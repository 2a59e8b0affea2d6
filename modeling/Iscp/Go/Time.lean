import Iscp.Go.Json.Number
import Mathlib.Algebra.Order.Group.Unbundled.Int
import Mathlib.Data.List.DropRight

/-!
# Instants and durations

A `time.Time` is an instant, in nanoseconds since the epoch, together with the offset of
the zone it is shown in; a `time.Duration` is a number of nanoseconds. Comparison looks at
the instant only, `==` and the written form at both. The written forms are those the
program uses: the RFC 3339 form of encoding/json, which refuses years that are not four
digits, and the form of `String`.
-/

namespace Iscp

namespace Go

open Json

/-- **A `time.Time`.** -/
structure Time where
  /-- Nanoseconds since the epoch. -/
  unixNano : ℤ
  /-- The offset of the zone, in seconds east of UTC. -/
  offset : ℤ
  deriving DecidableEq

/-- A `time.Duration`, in nanoseconds. -/
abbrev Duration := ℤ

/-- `time.Second`. -/
def second : Duration := 1000000000

/-- `time.Minute`. -/
def minute : Duration := 60 * second

/-- `time.Hour`. -/
def hour : Duration := 60 * minute

namespace Time

/-- `time.Time{}`, the first day of year 1. -/
def zero : Time := ⟨-62135596800 * second, 0⟩

/-- `t.UTC()`. -/
def utc (t : Time) : Time := { t with offset := 0 }

/-- `t.Add(d)`. -/
def add (t : Time) (d : Duration) : Time := { t with unixNano := t.unixNano + d }

/-- `t.Sub(u)`, which stops at the bounds of `int64`. -/
def sub (t u : Time) : Duration := max (-(2 ^ 63)) (min (2 ^ 63 - 1) (t.unixNano - u.unixNano))

/-- `t.Before(u)`. -/
def before (t u : Time) : Bool := t.unixNano < u.unixNano

/-- `t.After(u)`. -/
def after (t u : Time) : Bool := u.unixNano < t.unixNano

@[simp] theorem unixNano_utc (t : Time) : t.utc.unixNano = t.unixNano := rfl

@[simp] theorem unixNano_add (t : Time) (d : Duration) :
    (t.add d).unixNano = t.unixNano + d := rfl

variable {t u : Time}

@[simp] theorem before_iff : t.before u = true ↔ t.unixNano < u.unixNano :=
  decide_eq_true_iff

@[simp] theorem after_iff : t.after u = true ↔ u.unixNano < t.unixNano :=
  decide_eq_true_iff

/-- Stopping at the bounds of `int64` does not show in comparisons with a duration. -/
theorem lt_sub_iff {d : Duration} (hlo : -(2 ^ 63) ≤ d) (hhi : d < 2 ^ 63 - 1) :
    d < t.sub u ↔ d < t.unixNano - u.unixNano := by
  rw [sub, lt_max_iff, lt_min_iff]
  exact ⟨fun h => h.elim (fun h => absurd h (not_lt.mpr hlo)) And.right, fun h => Or.inr ⟨hhi, h⟩⟩

/-! ### The civil date -/

/-- The proleptic Gregorian date of a day, counted from the epoch: year, month, day. The
count is moved to the first of March of a year divisible by 400, so that leap days end
the years, the centuries and the cycles of 400 years. -/
def civil (days : ℤ) : ℤ × ℕ × ℕ :=
  let z := days + 719468
  let era := z / 146097
  let doe := (z % 146097).toNat
  let yoe := (doe - doe / 1460 + doe / 36524 - doe / 146096) / 365
  let doy := doe - (365 * yoe + yoe / 4 - yoe / 100)
  let mp := (5 * doy + 2) / 153
  let d := doy - (153 * mp + 2) / 5 + 1
  let m := if mp < 10 then mp + 3 else mp - 9
  (yoe + era * 400 + (if m ≤ 2 then 1 else 0), m, d)

/-- A number in decimal, filled up with zeros. -/
def pad (width n : ℕ) : Bytes :=
  List.replicate (width - (formatNat n).length) 0x30 ++ formatNat n

/-- The seconds of the clock the time is shown by. -/
def localSeconds (t : Time) : ℤ := t.unixNano / 1000000000 + t.offset

/-- The date the time is shown with. -/
def date (t : Time) : ℤ × ℕ × ℕ := civil (t.localSeconds / 86400)

/-- A year, in at least four digits. -/
def formatYear (y : ℤ) : Bytes :=
  if y < 0 then 0x2d :: pad 4 y.natAbs else pad 4 y.natAbs

/-- `2006-01-02`. -/
def formatDate (t : Time) : Bytes :=
  formatYear t.date.1 ++ 0x2d :: pad 2 t.date.2.1 ++ 0x2d :: pad 2 t.date.2.2

/-- `15:04:05.999999999`: the fraction without its trailing zeros. -/
def formatClock (t : Time) : Bytes :=
  let secs := (t.localSeconds % 86400).toNat
  let frac := (pad 9 (t.unixNano % 1000000000).toNat).rdropWhile (· = 0x30)
  pad 2 (secs / 3600) ++ 0x3a :: pad 2 (secs / 60 % 60) ++ 0x3a :: pad 2 (secs % 60) ++
    (if frac = [] then [] else 0x2e :: frac)

/-- The sign, hours and minutes of an offset; its seconds are not shown. -/
def formatOffset (offset : ℤ) (separator : Bytes) : Bytes :=
  let mins := offset.tdiv 60
  (if mins < 0 then 0x2d else 0x2b) :: pad 2 (mins.natAbs / 60) ++ separator ++
    pad 2 (mins.natAbs % 60)

/-- **The RFC 3339 form** with nanoseconds. -/
def rfc3339Nano (t : Time) : Bytes :=
  t.formatDate ++ 0x54 :: t.formatClock ++
    (if t.offset = 0 then [0x5a] else formatOffset t.offset [0x3a])

/-- Whether encoding/json writes the time: its year has four digits, and the hours of its
offset are those of a clock. -/
def Marshals (t : Time) : Prop :=
  0 ≤ t.date.1 ∧ t.date.1 ≤ 9999 ∧ (t.offset.tdiv 60).natAbs / 60 < 24

instance (t : Time) : Decidable t.Marshals := inferInstanceAs (Decidable (_ ∧ _))

/-- The error of encoding/json at a time it does not write. The year is looked at first. -/
def marshalErrorText (t : Time) : String :=
  "json: error calling MarshalJSON for type time.Time: Time.MarshalJSON: " ++
    if 0 ≤ t.date.1 ∧ t.date.1 ≤ 9999 then "timezone hour outside of range [0,23]"
    else "year outside of range [0,9999]"

/-- `t.String()`, for a time in UTC. -/
def string (t : Time) : Str :=
  t.formatDate ++ 0x20 :: t.formatClock ++ lit " +0000 UTC"

example : rfc3339Nano ⟨1709210096789000000, 0⟩ = lit "2024-02-29T12:34:56.789Z" := by decide

example : rfc3339Nano ⟨-1, -19800⟩ = lit "1969-12-31T18:29:59.999999999-05:30" := by decide

end Time

end Go

end Iscp
