import Iscp.Go.Rfc3339
import Mathlib.Data.Nat.Digits.Lemmas
import Mathlib.Tactic.IntervalCases

/-!
# Reading the RFC 3339 form

`Iscp.Go.Time.parseStrictRFC3339` is how `time.Time` reads itself from JSON. The text has a date
that exists, a clock, a fraction of a second, and the offset of a zone in hours and minutes. It is
read by `Iscp.Go.Time.parseRFC3339`, which keeps to the RFC; what that refuses is read once more, by
`Iscp.Go.Time.parse`, which takes an hour of one digit, a comma in front of the fraction, and
offsets up to 24 hours and 60 minutes as well.

The text of a time has no seconds of its offset, so a time comes back with the offset cut to
minutes, and at the instant its clock showed
(`Iscp.Go.Time.parseStrictRFC3339_rfc3339Nano`). Written again, it has the text it was read from,
with one exception: an offset of less than a minute is written as `+00:00`, read as UTC, and written
as `Z` then (`Iscp.Go.Time.rfc3339Nano_minuteZone_iff`).

That the date comes back is a matter of the calendar. A day of the cycle of 400 years is taken apart
into centuries, cycles of four years, years and a rest (`Iscp.Go.Time.exists_cycle`); in these terms
both directions of the calendar are linear.
-/

namespace Iscp.Go.Time

open Json

/-! ### Dates that exist -/

/-- `isLeap`. -/
def IsLeap (year : ℤ) : Prop := year % 4 = 0 ∧ (year % 100 ≠ 0 ∨ year % 400 = 0)

instance (year : ℤ) : Decidable (IsLeap year) := inferInstanceAs (Decidable (_ ∧ _))

/-- `daysIn`. -/
def daysIn (month : ℕ) (year : ℤ) : ℕ :=
  if month = 2 then if IsLeap year then 29 else 28 else 30 + (month + month / 8) % 2

/-- The day a date is, counted from the epoch. -/
def ofCivil (year : ℤ) (month day : ℕ) : ℤ :=
  let y := if month ≤ 2 then year - 1 else year
  let mp := if month ≤ 2 then month + 9 else month - 3
  let yoe := y % 400
  y / 400 * 146097 + (365 * yoe + yoe / 4 - yoe / 100) + ((153 * mp + 2) / 5 + day - 1 : ℕ) - 719468

/-- **A day of the cycle of 400 years**: its century, its cycle of four years, its year and its day
in the year. Only the last year of a cycle of four has a day 365, and the last cycle of a century
has none, but for the last century. -/
theorem exists_cycle {doe : ℕ} (h : doe < 146097) :
    ∃ c q r d, doe = 36524 * c + 1461 * q + 365 * r + d ∧ c ≤ 3 ∧ q ≤ 24 ∧ r ≤ 3 ∧ d ≤ 365 ∧
      (d = 365 → r = 3 ∧ (q = 24 → c = 3)) := by
  obtain ⟨c, x, hc, rfl, hx⟩ :
      ∃ c x, c ≤ 3 ∧ doe = 36524 * c + x ∧ (x < 36524 ∨ c = 3 ∧ x = 36524) := by
    by_cases hlast : doe = 146096
    · exact ⟨3, 36524, by omega⟩
    · exact ⟨doe / 36524, doe % 36524, by omega⟩
  obtain ⟨q, y, hq, rfl, hy⟩ : ∃ q y, q ≤ 24 ∧ x = 1461 * q + y ∧ y < 1461 :=
    ⟨x / 1461, x % 1461, by omega⟩
  by_cases hlast : y = 1460
  · exact ⟨c, q, 3, 365, by omega⟩
  · exact ⟨c, q, y / 365, y % 365, by omega⟩

section Cycle

variable {doe c q r d : ℕ} (h : doe = 36524 * c + 1461 * q + 365 * r + d)

include h

/-- **The year a day of the cycle is in.** -/
theorem cycle_year (hc : c ≤ 3) (hq : q ≤ 24) (hr : r ≤ 3) (hd : d ≤ 365)
    (hleap : d = 365 → r = 3 ∧ (q = 24 → c = 3)) :
    (doe - doe / 1460 + doe / 36524 - doe / 146096) / 365 = 100 * c + 4 * q + r := by
  have hcenturies : doe / 36524 - doe / 146096 = c ∧ doe / 146096 ≤ doe / 36524 := by
    by_cases hlast : doe = 146096
    · omega
    · omega
  have hcycles : doe / 1460 = 25 * c + q ∨
      doe / 1460 = 25 * c + q + 1 ∧ 1460 ≤ 24 * c + q + 365 * r + d := by
    omega
  rw [Nat.add_sub_assoc hcenturies.2, hcenturies.1]
  omega

theorem cycle_day (hq : q ≤ 24) (hr : r ≤ 3) {yoe : ℕ} (hy : yoe = 100 * c + 4 * q + r) :
    365 * yoe + yoe / 4 - yoe / 100 + d = doe := by
  have hfour : yoe / 4 = 25 * c + q := by omega
  have hcentury : yoe / 100 = c := by omega
  omega

end Cycle

theorem cycle_lt {c q r : ℕ} (hc : c ≤ 3) (hq : q ≤ 24) (hr : r ≤ 3) :
    100 * c + 4 * q + r < 400 := by
  omega

theorem isLeap_cycle {c q r : ℕ} (era : ℤ) (hq : q ≤ 24) (hr : r = 3) (hc : q = 24 → c = 3) :
    IsLeap ((100 * c + 4 * q + r : ℕ) + era * 400 + 1) := by
  refine ⟨by omega, ?_⟩
  by_cases hlast : q = 24
  · exact Or.inr (by have := hc hlast; omega)
  · exact Or.inl (by omega)

/-! In a year that starts with March, month `mp` starts on day `(153 * mp + 2) / 5`. -/

variable {mp d month n width : ℕ} {t : Time} {zone : Bytes} {offset : ℤ}

theorem month_start (hd : d ≤ 365) (hmp : mp = (5 * d + 2) / 153) :
    mp ≤ 11 ∧ (153 * mp + 2) / 5 ≤ d := by
  omega

theorem day_le_daysIn (hd : d ≤ 365) (hmp : mp = (5 * d + 2) / 153)
    (hmonth : month = if mp < 10 then mp + 3 else mp - 9) (h2 : month ≠ 2) (year : ℤ) :
    d - (153 * mp + 2) / 5 + 1 ≤ daysIn month year := by
  have hmp11 := (month_start hd hmp).1
  rw [daysIn, if_neg h2]
  by_cases hm : mp < 10
  · rw [if_pos hm] at hmonth
    subst hmonth
    interval_cases mp <;> omega
  · rw [if_neg hm] at hmonth
    have hmp10 : mp = 10 := by omega
    have hmonth1 : month = 1 := by omega
    rw [hmonth1]
    omega

theorem day_le_february (hmp : mp = (5 * d + 2) / 153) (hmp11 : mp = 11) (hd : d ≤ 336 + n) :
    d - (153 * mp + 2) / 5 + 1 ≤ n := by
  omega

theorem february (hmp11 : mp ≤ 11) (hmonth : month = if mp < 10 then mp + 3 else mp - 9)
    (h2 : month = 2) : mp = 11 := by
  split_ifs at hmonth <;> omega

theorem month_mem (hmp11 : mp ≤ 11) (hmonth : month = if mp < 10 then mp + 3 else mp - 9) :
    1 ≤ month ∧ month ≤ 12 := by
  split_ifs at hmonth <;> omega

theorem ofCivil_eq {y era : ℤ} {yoe day : ℕ} {year : ℤ} (hyoe : yoe < 400)
    (hy : y = yoe + era * 400) (hyear : year = y + if month ≤ 2 then 1 else 0) (hmp11 : mp ≤ 11)
    (hmonth : month = if mp < 10 then mp + 3 else mp - 9) (hstart : (153 * mp + 2) / 5 ≤ d)
    (hday : day = d - (153 * mp + 2) / 5 + 1) :
    ofCivil year month day =
      era * 146097 + (365 * yoe + yoe / 4 - yoe / 100 : ℕ) + d - 719468 := by
  have hmod : y % 400 = yoe := by omega
  have hdiv : y / 400 = era := by omega
  have hle : yoe / 100 ≤ 365 * yoe + yoe / 4 := by omega
  have hdoy {mp' : ℕ} (h : mp' = mp) : ((153 * mp' + 2) / 5 + day - 1 : ℕ) = d := by
    subst h
    omega
  rw [ofCivil]
  by_cases hm : mp < 10
  · rw [if_pos hm] at hmonth
    have hmonth2 : ¬month ≤ 2 := by omega
    simp only [if_neg hmonth2, add_zero] at hyear ⊢
    rw [hyear, hmod, hdiv, hdoy (by omega)]
    push_cast [Nat.cast_sub hle]
    rfl
  · rw [if_neg hm] at hmonth
    have hmonth2 : month ≤ 2 := by omega
    simp only [if_pos hmonth2] at hyear ⊢
    rw [hyear, Int.add_sub_cancel, hmod, hdiv, hdoy (by omega)]
    push_cast [Nat.cast_sub hle]
    rfl

/-- **The date of a day exists, and is the date of that day.** -/
theorem ofCivil_civil {days year : ℤ} {day : ℕ} (h : civil days = (year, month, day)) :
    ofCivil year month day = days ∧ (1 ≤ month ∧ month ≤ 12) ∧ 1 ≤ day ∧
      day ≤ daysIn month year := by
  obtain ⟨z, hz⟩ : ∃ z, z = days + 719468 := ⟨_, rfl⟩
  obtain ⟨doe, hdoe⟩ : ∃ doe, doe = (z % 146097).toNat := ⟨_, rfl⟩
  have hera : days = z / 146097 * 146097 + doe - 719468 := by omega
  have hlt : doe < 146097 := by omega
  obtain ⟨c, q, r, d, hcycle, hc, hq, hr, hd, hleap⟩ := exists_cycle hlt
  have hyoe := cycle_year hcycle hc hq hr hd hleap
  have hdoy := cycle_day hcycle hq hr hyoe
  obtain ⟨mp, hmp⟩ : ∃ mp, mp = (5 * d + 2) / 153 := ⟨_, rfl⟩
  obtain ⟨hmp11, hstart⟩ := month_start hd hmp
  simp only [civil, ← hz, ← hdoe, Nat.sub_eq_of_eq_add' hdoy.symm, ← hmp] at h
  obtain ⟨hyear, hmd⟩ := Prod.mk.inj h
  obtain ⟨hmonth, hday⟩ := Prod.mk.inj hmd
  rw [hyoe, hmonth] at hyear
  rw [hyoe] at hdoy
  refine ⟨?_, month_mem hmp11 hmonth.symm, hday ▸ Nat.le_add_left _ _, ?_⟩
  · rw [ofCivil_eq (cycle_lt hc hq hr) rfl hyear.symm hmp11 hmonth.symm hstart hday.symm, hera,
      ← hdoy]
    push_cast
    ring
  · rw [← hday]
    by_cases h2 : month = 2
    · have hfebruary := february hmp11 hmonth.symm h2
      rw [daysIn, if_pos h2]
      split_ifs with hl
      · exact day_le_february hmp hfebruary hd
      · -- only a leap year has a day 365
        have hd364 : d ≠ 365 := by
          intro hd365
          obtain ⟨hr3, hc3⟩ := hleap hd365
          refine hl ?_
          rw [← hyear, if_pos h2.le]
          exact isLeap_cycle (z / 146097) hq hr3 hc3
        exact day_le_february hmp hfebruary (Nat.le_of_lt_succ (lt_of_le_of_ne hd hd364))
    · exact day_le_daysIn hd hmp hmonth.symm h2 year

/-! ### The parts of the text -/

/-- `parseUint` on the next bytes: a number in decimal, within bounds. -/
def readNumber (width min max : ℕ) (s : Bytes) : Option (ℕ × Bytes) :=
  if width ≤ s.length then
    (parseDigits (s.take width)).bind fun n =>
      if min ≤ n ∧ n ≤ max then some (n, s.drop width) else none
  else none

/-- What follows this byte. -/
def readByte (b : UInt8) : Bytes → Option Bytes
  | [] => none
  | c :: s => if c = b then some s else none

/-- A date, in days, and what follows it. -/
def readDate (s : Bytes) : Option (ℤ × Bytes) := do
  let (year, s) ← readNumber 4 0 9999 s
  let s ← readByte 0x2d s
  let (month, s) ← readNumber 2 1 12 s
  let s ← readByte 0x2d s
  let (day, s) ← readNumber 2 1 (daysIn month year) s
  return (ofCivil year month day, s)

/-- What the two readers of the form differ in. -/
structure Reading where
  /-- Whether an hour may have one digit. -/
  shortHour : Bool
  /-- What may stand in front of a fraction. -/
  points : List UInt8
  maxOffsetHours : ℕ
  maxOffsetMinutes : ℕ

/-- How `parseRFC3339` reads. -/
def strictly : Reading := ⟨false, [0x2e], 23, 59⟩

/-- How `parse` reads. -/
def leniently : Reading := ⟨true, [0x2e, 0x2c], 24, 60⟩

/-- The clock, in seconds of the day. -/
def readClock (how : Reading) (s : Bytes) : Option (ℕ × Bytes) := do
  let (hour, s) ← (readNumber 2 0 23 s).or (if how.shortHour then readNumber 1 0 9 s else none)
  let s ← readByte 0x3a s
  let (min, s) ← readNumber 2 0 59 s
  let s ← readByte 0x3a s
  let (sec, s) ← readNumber 2 0 59 s
  return (hour * 3600 + min * 60 + sec, s)

/-- The fraction of a second, in nanoseconds; digits after the ninth do not count. -/
def readFraction (how : Reading) (s : Bytes) : ℕ × Bytes :=
  let digits := (s.drop 1).takeWhile isDigit
  if (∃ b ∈ s.head?, b ∈ how.points) ∧ digits ≠ [] then
    ((parseDigits ((digits ++ List.replicate 9 0x30).take 9)).getD 0, s.drop (1 + digits.length))
  else (0, s)

/-- The hours and minutes of an offset, in seconds. -/
def readOffset (how : Reading) (s : Bytes) : Option ℤ := do
  let (hr, s) ← readNumber 2 0 how.maxOffsetHours s
  let s ← readByte 0x3a s
  let (mm, s) ← readNumber 2 0 how.maxOffsetMinutes s
  if s = [] then some ((hr * 60 + mm : ℕ) * 60) else none

/-- The zone: `Z`, or an offset with its sign. -/
def readZone (how : Reading) : Bytes → Option ℤ
  | [0x5a] => some 0
  | 0x2d :: s => (readOffset how s).map (-·)
  | 0x2b :: s => readOffset how s
  | _ => none

/-- The whole text. -/
def readTime (how : Reading) (s : Bytes) : Option Time := do
  let (days, s) ← readDate s
  let s ← readByte 0x54 s
  let (secs, s) ← readClock how s
  let (nsec, s) := readFraction how s
  let offset ← readZone how s
  return ⟨(days * 86400 + secs - offset) * 1000000000 + nsec, offset⟩

/-- `parseRFC3339`. -/
def parseRFC3339 : Bytes → Option Time := readTime strictly

/-- `parse`, with the layout `RFC3339`. -/
def parse : Bytes → Option Time := readTime leniently

/-- **`parseStrictRFC3339`**, whose own checks are disabled. -/
def parseStrictRFC3339 (s : Bytes) : Option Time := (parseRFC3339 s).or (parse s)

example : parseStrictRFC3339 (lit "2024-02-29T12:34:56.789Z") = some ⟨1709210096789000000, 0⟩ := by
  decide +kernel

example : parseRFC3339 (lit "2030-01-01T0:00:00,5+24:00") = none ∧
    parseStrictRFC3339 (lit "2030-01-01T0:00:00,5+24:00") = some ⟨1893369600500000000, 86400⟩ := by
  decide +kernel

example : parseStrictRFC3339 (lit "2023-02-29T00:00:00Z") = none := by decide +kernel

/-! ### Reading what was written -/

theorem length_formatNat_le (hwidth : 0 < width) (h : n < 10 ^ width) :
    (formatNat n).length ≤ width := by
  rw [formatNat]
  split_ifs with h0
  · exact hwidth
  · rw [List.length_reverse, List.length_map]
    exact (Nat.digits_length_le_iff (by norm_num) n).mpr h

theorem length_pad (hwidth : 0 < width) (h : n < 10 ^ width) : (pad width n).length = width := by
  rw [pad, List.length_append, List.length_replicate]
  exact Nat.sub_add_cancel (length_formatNat_le hwidth h)

theorem all_isDigit_pad (width n : ℕ) : ∀ b ∈ pad width n, isDigit b = true := by
  refine List.forall_mem_append.mpr ⟨fun b hb => ?_, all_isDigit_formatNat n⟩
  rw [List.eq_of_mem_replicate hb]
  rfl

theorem parseDigits_pad (width n : ℕ) : parseDigits (pad width n) = some n := by
  have hne : pad width n ≠ [] := List.append_ne_nil_of_right_ne_nil _ (formatNat_ne_nil n)
  have hzeros (k : ℕ) : (List.replicate k (0x30 : UInt8)).foldl
      (fun n b => n * 10 + (b.toNat - 0x30)) 0 = 0 := by
    induction k with
    | zero => rfl
    | succ k ih => exact ih
  rw [parseDigits, if_pos ⟨hne, List.all_eq_true.mpr (all_isDigit_pad width n)⟩, pad,
    List.foldl_append, hzeros, foldl_formatNat]

theorem readNumber_pad {min max : ℕ} (hwidth : 0 < width) (h : n < 10 ^ width) (hmin : min ≤ n)
    (hmax : n ≤ max) (s : Bytes) : readNumber width min max (pad width n ++ s) = some (n, s) := by
  have hlen := length_pad hwidth h
  have hle : width ≤ (pad width n ++ s).length := by
    rw [List.length_append, hlen]
    exact Nat.le_add_right _ _
  rw [readNumber, if_pos hle, List.take_left' hlen, parseDigits_pad, Option.bind_some,
    if_pos ⟨hmin, hmax⟩, List.drop_left' hlen]

theorem readByte_cons (b : UInt8) (s : Bytes) : readByte b (b :: s) = some s := if_pos rfl

theorem readNumber_two {min max : ℕ} (hmin : min ≤ n) (hmax : n ≤ max) (h : n < 100) (s : Bytes) :
    readNumber 2 min max (pad 2 n ++ s) = some (n, s) := readNumber_pad two_pos h hmin hmax s

/-- **The date is read back.** -/
theorem readDate_formatDate (hlo : 0 ≤ t.date.1) (hhi : t.date.1 ≤ 9999) (s : Bytes) :
    readDate (t.formatDate ++ s) = some (t.localSeconds / 86400, s) := by
  obtain ⟨year, month, day, hdate⟩ : ∃ year month day, t.date = (year, month, day) := ⟨_, _, _, rfl⟩
  obtain ⟨hdays, ⟨hm1, hm12⟩, hd1, hdmax⟩ := ofCivil_civil hdate
  rw [formatDate]
  rw [hdate] at hlo hhi ⊢
  dsimp only at hlo hhi ⊢
  have hd31 : daysIn month year ≤ 31 := by
    rw [daysIn]
    split_ifs <;> omega
  have hyear : (year.natAbs : ℤ) = year := Int.natAbs_of_nonneg hlo
  have hfour (s : Bytes) : readNumber 4 0 9999 (pad 4 year.natAbs ++ s) = some (year.natAbs, s) :=
    readNumber_pad four_pos (by omega) (Nat.zero_le _) (by omega) s
  have hmonth := readNumber_two hm1 hm12 (by omega)
  have hday := readNumber_two hd1 hdmax (by omega)
  rw [formatYear, if_neg (by omega)]
  simp only [List.append_assoc, List.cons_append, readDate, hfour, Option.bind_eq_bind,
    Option.bind_some, readByte_cons, hyear, hmonth, hday, hdays]
  rfl

/-- The hours, minutes and seconds of a clock. -/
def formatSeconds (secs : ℕ) : Bytes :=
  pad 2 (secs / 3600) ++ 0x3a :: (pad 2 (secs / 60 % 60) ++ 0x3a :: pad 2 (secs % 60))

theorem readClock_formatSeconds {secs : ℕ} (h : secs < 86400) (s : Bytes) :
    readClock strictly (formatSeconds secs ++ s) = some (secs, s) := by
  have hhour := readNumber_two (Nat.zero_le (secs / 3600)) (show _ ≤ 23 by omega) (by omega)
  have hmin := readNumber_two (Nat.zero_le (secs / 60 % 60)) (show _ ≤ 59 by omega) (by omega)
  have hsec := readNumber_two (Nat.zero_le (secs % 60)) (show _ ≤ 59 by omega) (by omega)
  simp only [formatSeconds, List.append_assoc, List.cons_append, readClock, hhour,
    Option.some_or, Option.bind_eq_bind, Option.bind_some, readByte_cons, hmin, hsec]
  exact congrArg (fun n => some (n, s)) (by omega)

theorem rdropWhile_filled {l : Bytes} (h : l.length = n) :
    (l.rdropWhile (· = 0x30) ++ List.replicate n 0x30).take n = l := by
  obtain ⟨k, hk⟩ : ∃ k, l.rtakeWhile (· = (0x30 : UInt8)) = List.replicate k 0x30 :=
    ⟨_, List.eq_replicate_of_mem fun b hb => by simpa using List.mem_rtakeWhile_imp hb⟩
  have hsplit : l.rdropWhile (· = (0x30 : UInt8)) ++ List.replicate k 0x30 = l :=
    hk ▸ List.rdropWhile_append_rtakeWhile
  have hlen : (l.rdropWhile (· = (0x30 : UInt8))).length + k = n := by
    rw [← h, ← congrArg List.length hsplit, List.length_append, List.length_replicate]
  have hzeros : List.replicate n (0x30 : UInt8) =
      List.replicate k 0x30 ++ List.replicate (n - k) 0x30 := by
    rw [List.replicate_append_replicate, Nat.add_sub_cancel' (by omega)]
  rw [hzeros, ← List.append_assoc, hsplit, List.take_left' h]

/-- What may follow the clock: neither a digit nor a point. -/
def EndsClock (s : Bytes) : Prop := ∀ b ∈ s.head?, isDigit b = false ∧ b ≠ 0x2e

theorem takeWhile_digits {s : Bytes} (hs : ∀ b ∈ s, isDigit b = true) (hzone : EndsClock zone) :
    (s ++ zone).takeWhile isDigit = s := by
  rw [List.takeWhile_append_of_pos hs]
  cases zone with
  | nil => rw [List.takeWhile_nil, List.append_nil]
  | cons b zone =>
    rw [List.takeWhile_cons_of_neg (by simp [(hzone b rfl).1]), List.append_nil]

/-- **The fraction is read back.** -/
theorem readFraction_frac {ns : ℕ} (hns : ns < 10 ^ 9) (hzone : EndsClock zone) {frac : Bytes}
    (hfrac : frac = (pad 9 ns).rdropWhile (· = 0x30)) :
    readFraction strictly ((if frac = [] then [] else 0x2e :: frac) ++ zone) = (ns, zone) := by
  split_ifs with hnil
  · -- all digits were zeros
    have hns0 : ns = 0 := by
      have hall := List.rdropWhile_eq_nil_iff.mp (hfrac ▸ hnil)
      have hpad : pad 9 ns = pad 9 0 := by
        have hzeros : ∀ b ∈ pad 9 ns, b = 0x30 := fun b hb => by simpa using hall b hb
        rw [List.eq_replicate_of_mem hzeros, length_pad (by norm_num) hns]
        rfl
      exact Option.some.inj ((parseDigits_pad 9 ns).symm.trans (hpad ▸ parseDigits_pad 9 0))
    have hhead : ¬∃ b ∈ zone.head?, b ∈ strictly.points :=
      fun ⟨b, hb, hpoint⟩ => (hzone b hb).2 (List.mem_singleton.mp hpoint)
    rw [List.nil_append, readFraction]
    simp only [hhead, false_and, if_false, hns0]
  · have hdigits : ∀ b ∈ frac, isDigit b = true := fun b hb =>
      all_isDigit_pad 9 ns b ((List.rdropWhile_prefix _ _).subset (hfrac ▸ hb))
    have htake := takeWhile_digits hdigits hzone
    have hpoint : ∃ b ∈ some (0x2e : UInt8), b ∈ strictly.points :=
      ⟨_, rfl, List.mem_singleton_self _⟩
    simp only [readFraction, List.cons_append, List.drop_one, List.tail_cons, htake,
      List.head?_cons, hpoint, ne_eq, hnil, not_false_eq_true, and_self, if_true]
    rw [hfrac, rdropWhile_filled (length_pad (by norm_num) hns), parseDigits_pad, ← hfrac,
      Nat.add_comm, List.drop_succ_cons, List.drop_left, Option.getD_some]

theorem readOffset_pad (h : n / 60 < 24) :
    readOffset strictly (pad 2 (n / 60) ++ 0x3a :: pad 2 (n % 60)) = some ((n : ℤ) * 60) := by
  have hhours := readNumber_two (Nat.zero_le (n / 60))
    (show _ ≤ strictly.maxOffsetHours from Nat.le_of_lt_succ h) (by omega)
  have hminutes := readNumber_two (Nat.zero_le (n % 60))
    (show _ ≤ strictly.maxOffsetMinutes from Nat.le_of_lt_succ (Nat.mod_lt n (by norm_num)))
    (by omega) []
  rw [List.append_nil] at hminutes
  simp only [readOffset, hhours, Option.bind_eq_bind, Option.bind_some, readByte_cons, hminutes,
    if_true]
  rw [Nat.div_add_mod' n 60]

/-- The zone a time is written with. -/
def formatZone (offset : ℤ) : Bytes := if offset = 0 then [0x5a] else formatOffset offset [0x3a]

theorem rfc3339Nano_eq (t : Time) :
    t.rfc3339Nano = t.formatDate ++ 0x54 :: (t.formatClock ++ formatZone t.offset) := by
  rw [rfc3339Nano, formatZone, List.append_assoc]
  rfl

theorem formatZone_eq (offset : ℤ) : formatZone offset = [0x5a] ∧ offset = 0 ∨
    ∃ b s, formatZone offset = b :: s ∧ offset ≠ 0 ∧
      b = (if offset.tdiv 60 < 0 then 0x2d else 0x2b) ∧
      s = pad 2 ((offset.tdiv 60).natAbs / 60) ++ 0x3a :: pad 2 ((offset.tdiv 60).natAbs % 60) := by
  rw [formatZone]
  by_cases h : offset = 0
  · exact Or.inl ⟨if_pos h, h⟩
  · exact Or.inr ⟨_, _, by rw [if_neg h, formatOffset]; simp, h, rfl, rfl⟩

theorem endsClock_formatZone (offset : ℤ) : EndsClock (formatZone offset) := by
  rintro b hb
  obtain ⟨hz, -⟩ | ⟨c, s, hz, -, rfl, -⟩ := formatZone_eq offset
  · rw [hz] at hb
    cases hb
    decide
  · rw [hz] at hb
    cases hb
    split_ifs <;> decide

theorem readZone_formatZone (h : (offset.tdiv 60).natAbs / 60 < 24) :
    readZone strictly (formatZone offset) = some (offset.tdiv 60 * 60) := by
  obtain ⟨hz, rfl⟩ | ⟨b, s, hz, -, hb, rfl⟩ := formatZone_eq offset
  · rw [hz]
    rfl
  · rw [hz, hb]
    split_ifs with hneg
    · rw [readZone, readOffset_pad h, Option.map_some]
      congr 1
      omega
    · rw [readZone, readOffset_pad h]
      congr 1
      omega

/-- **The time with its offset cut to minutes**, at the instant its clock shows. -/
def minuteZone (t : Time) : Time :=
  ⟨t.unixNano + (t.offset - t.offset.tdiv 60 * 60) * 1000000000, t.offset.tdiv 60 * 60⟩

/-- **A time is read back** from its text, but for the seconds of its offset. -/
theorem parseStrictRFC3339_rfc3339Nano (h : t.Marshals) :
    parseStrictRFC3339 t.rfc3339Nano = some t.minuteZone := by
  obtain ⟨hlo, hhi, hoffset⟩ := h
  obtain ⟨secs, hsecs⟩ : ∃ secs, secs = (t.localSeconds % 86400).toNat := ⟨_, rfl⟩
  obtain ⟨ns, hns⟩ : ∃ ns, ns = (t.unixNano % 1000000000).toNat := ⟨_, rfl⟩
  have hsecs_lt : secs < 86400 := by omega
  have hns_lt : ns < 10 ^ 9 := by omega
  obtain ⟨frac, hfrac⟩ : ∃ frac, frac = (pad 9 ns).rdropWhile (· = 0x30) := ⟨_, rfl⟩
  have hclock : t.formatClock = formatSeconds secs ++ (if frac = [] then [] else 0x2e :: frac) := by
    simp only [formatClock, ← hsecs, ← hns, ← hfrac, formatSeconds, List.append_assoc,
      List.cons_append]
  rw [rfc3339Nano_eq, hclock, List.append_assoc, parseStrictRFC3339, parseRFC3339, readTime,
    readDate_formatDate hlo hhi]
  simp only [Option.bind_eq_bind, Option.bind_some, readByte_cons,
    readClock_formatSeconds hsecs_lt,
    readFraction_frac hns_lt (endsClock_formatZone t.offset) hfrac, readZone_formatZone hoffset,
    Option.pure_def, Option.some_or]
  -- the day and its clock are the seconds the time shows
  have hlocal : t.localSeconds / 86400 * 86400 + (secs : ℤ) = t.localSeconds := by omega
  have hnano : t.unixNano / 1000000000 * 1000000000 + (ns : ℤ) = t.unixNano := by omega
  rw [hlocal, minuteZone, localSeconds]
  refine congrArg some (Time.mk.injEq .. ▸ ⟨?_, rfl⟩)
  clear * - hnano
  omega

/-! ### Writing again what was read -/

theorem localSeconds_minuteZone (t : Time) : t.minuteZone.localSeconds = t.localSeconds := by
  simp only [localSeconds, minuteZone]
  omega

theorem unixNano_minuteZone_mod (t : Time) :
    t.minuteZone.unixNano % 1000000000 = t.unixNano % 1000000000 := by
  simp only [minuteZone]
  omega

theorem formatDate_minuteZone (t : Time) : t.minuteZone.formatDate = t.formatDate := by
  simp only [formatDate, date, localSeconds_minuteZone]

theorem formatClock_minuteZone (t : Time) : t.minuteZone.formatClock = t.formatClock := by
  simp only [formatClock, localSeconds_minuteZone, unixNano_minuteZone_mod]

theorem tdiv_minuteZone (t : Time) : t.minuteZone.offset.tdiv 60 = t.offset.tdiv 60 :=
  Int.mul_tdiv_cancel _ (by norm_num)

theorem minuteZone_minuteZone (t : Time) : t.minuteZone.minuteZone = t.minuteZone := by
  rw [minuteZone, tdiv_minuteZone]
  simp only [minuteZone, sub_self, zero_mul, add_zero]

theorem marshals_minuteZone : t.minuteZone.Marshals ↔ t.Marshals := by
  simp only [Marshals, date, localSeconds_minuteZone, tdiv_minuteZone]

/-- **An offset is shown**, or there is none: it is not hidden in the seconds that have no text. -/
def ShowsZone (t : Time) : Prop := t.offset = 0 ∨ 60 ≤ t.offset.natAbs

instance (t : Time) : Decidable t.ShowsZone := inferInstanceAs (Decidable (_ ∨ _))

theorem tdiv_eq_zero_iff : offset.tdiv 60 = 0 ↔ offset.natAbs < 60 := by
  rw [← Int.natAbs_eq_zero, Int.natAbs_tdiv]
  exact Nat.div_eq_zero_iff.trans (by simp)

theorem formatZone_inj_zero : formatZone offset = formatZone 0 ↔ offset = 0 := by
  refine ⟨fun h => ?_, fun h => h ▸ rfl⟩
  obtain ⟨-, h0⟩ | ⟨b, s, hz, -, -, rfl⟩ := formatZone_eq offset
  · exact h0
  · rw [hz] at h
    have htail := (List.cons.inj (h.trans rfl)).2
    simp at htail

/-- **A time is written again as it was read** just if its offset is shown. -/
theorem rfc3339Nano_minuteZone_iff : t.minuteZone.rfc3339Nano = t.rfc3339Nano ↔ t.ShowsZone := by
  have hzone : t.minuteZone.rfc3339Nano = t.rfc3339Nano ↔
      formatZone t.minuteZone.offset = formatZone t.offset := by
    rw [rfc3339Nano_eq, rfc3339Nano_eq, formatDate_minuteZone, formatClock_minuteZone,
      List.append_right_inj, List.cons.injEq, List.append_right_inj]
    simp
  rw [hzone, ShowsZone]
  by_cases hsmall : t.offset.natAbs < 60
  · have h0 : t.minuteZone.offset = 0 := by simp [minuteZone, tdiv_eq_zero_iff.mpr hsmall]
    rw [h0, eq_comm, formatZone_inj_zero]
    omega
  · have hne : t.offset.tdiv 60 ≠ 0 := fun h => hsmall (tdiv_eq_zero_iff.mp h)
    have h0 : t.minuteZone.offset ≠ 0 := by simpa [minuteZone] using hne
    rw [formatZone, formatZone, if_neg h0, if_neg (by omega), formatOffset, formatOffset,
      tdiv_minuteZone]
    simp only [true_iff]
    omega

end Iscp.Go.Time
