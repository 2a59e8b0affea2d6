import Iscp.Go.Text
import Mathlib.Data.Nat.Digits.Lemmas

/-!
# Numbers of encoding/json and strconv

The decimal form `strconv.FormatInt` gives an integer, the scanner that finds the end
of a JSON number, and `strconv.ParseInt` with the bounds of `int64`. The scanner knows
fractions and exponents, since encoding/json does; it is the canonical profile that
refuses them afterwards.

An integer's decimal form is read back as that integer
(`Iscp.Go.Json.scanNumber_formatInt`, `Iscp.Go.Json.parseInt_formatInt`), provided
nothing that could prolong the number follows it.
-/

namespace Iscp

namespace Go

namespace Json

/-! ### Writing -/

/-- The character of a digit. -/
def digitByte (d : ℕ) : UInt8 := UInt8.ofNat (0x30 + d)

/-- The decimal form of a natural number. -/
def formatNat (n : ℕ) : Bytes :=
  if n = 0 then [0x30] else ((Nat.digits 10 n).map digitByte).reverse

/-- **The decimal form of an integer**, `strconv.FormatInt(i, 10)`. -/
def formatInt (i : ℤ) : Bytes :=
  if i < 0 then 0x2d :: formatNat i.natAbs else formatNat i.natAbs

/-! ### Scanning -/

/-- Whether a byte is a decimal digit. -/
def isDigit (b : UInt8) : Bool := 0x30 ≤ b ∧ b ≤ 0x39

/-- The states of the scanner inside a number. -/
inductive NumState where
  /-- After the minus sign. -/
  | neg
  /-- After a leading zero. -/
  | zero
  /-- Inside the integer part. -/
  | int
  /-- After the decimal point. -/
  | dot
  /-- Inside the fraction. -/
  | frac
  /-- After the `e` of an exponent. -/
  | exp
  /-- After the sign of an exponent. -/
  | expSign
  /-- Inside the digits of an exponent. -/
  | expInt
  deriving DecidableEq

/-- Whether a number may end in this state. -/
def NumState.complete : NumState → Bool
  | .zero | .int | .frac | .expInt => true
  | .neg | .dot | .exp | .expSign => false

/-- The state after one more byte of the number; `none` when the byte is not part of
it. -/
def NumState.next : NumState → UInt8 → Option NumState
  | .neg, b => if b = 0x30 then some .zero else if isDigit b then some .int else none
  | .zero, b => if b = 0x2e then some .dot else if b = 0x65 ∨ b = 0x45 then some .exp else none
  | .int, b =>
    if isDigit b then some .int
    else if b = 0x2e then some .dot else if b = 0x65 ∨ b = 0x45 then some .exp else none
  | .dot, b => if isDigit b then some .frac else none
  | .frac, b =>
    if isDigit b then some .frac else if b = 0x65 ∨ b = 0x45 then some .exp else none
  | .exp, b =>
    if b = 0x2b ∨ b = 0x2d then some .expSign else if isDigit b then some .expInt else none
  | .expSign, b => if isDigit b then some .expInt else none
  | .expInt, b => if isDigit b then some .expInt else none

/-- The scanner from a given state on: the bytes of the number, and what follows
them. -/
def scanNumberFrom : NumState → Bytes → Option (Bytes × Bytes)
  | st, [] => if st.complete then some ([], []) else none
  | st, b :: s => match st.next b with
      | some st' => (scanNumberFrom st' s).map fun (x, r) => (b :: x, r)
      | none => if st.complete then some ([], b :: s) else none

/-- **The scanner at the start of a number.** -/
def scanNumber : Bytes → Option (Bytes × Bytes)
  | [] => none
  | b :: s =>
    if b = 0x2d then (scanNumberFrom .neg s).map fun (x, r) => (b :: x, r)
    else if b = 0x30 then (scanNumberFrom .zero s).map fun (x, r) => (b :: x, r)
    else if isDigit b then (scanNumberFrom .int s).map fun (x, r) => (b :: x, r)
    else none

/-! ### Parsing -/

/-- The value of a nonempty sequence of decimal digits. -/
def parseDigits (s : Bytes) : Option ℕ :=
  if s ≠ [] ∧ s.all isDigit then some (s.foldl (fun n b => n * 10 + (b.toNat - 0x30)) 0) else none

/-- **`strconv.ParseInt(s, 10, 64)`**: a sign, digits, and the bounds of `int64`. -/
def parseInt : Bytes → Option ℤ
  | 0x2d :: s => (parseDigits s).bind fun n => if n ≤ 2 ^ 63 then some (-(n : ℤ)) else none
  | 0x2b :: s => (parseDigits s).bind fun n => if n < 2 ^ 63 then some (n : ℤ) else none
  | s => (parseDigits s).bind fun n => if n < 2 ^ 63 then some (n : ℤ) else none

/-- The integers of Go's `int64`. -/
def IsInt64 (i : ℤ) : Prop := -(2 ^ 63) ≤ i ∧ i < 2 ^ 63

instance (i : ℤ) : Decidable (IsInt64 i) := inferInstanceAs (Decidable (_ ∧ _))

theorem isInt64_of_parseInt {s : Bytes} {i : ℤ} (h : parseInt s = some i) : IsInt64 i := by
  unfold parseInt at h
  split at h
  all_goals
    obtain ⟨n, -, hn⟩ := Option.bind_eq_some_iff.mp h
    split_ifs at hn with hb
    cases hn
    constructor <;> omega

/-! ### The shape of a decimal form -/

variable {d : ℕ} {u : Bytes}

theorem isDigit_digitByte (h : d < 10) : isDigit (digitByte d) = true := by
  revert d
  decide

theorem digitByte_toNat (h : d < 10) : (digitByte d).toNat - 0x30 = d := by
  revert d
  decide

theorem digitByte_ne_zero (h : d < 10) (h0 : d ≠ 0) : digitByte d ≠ 0x30 := by
  revert d
  decide

theorem isDigit_of_mem_digits {n : ℕ} {b : UInt8} (hb : b ∈ (Nat.digits 10 n).map digitByte) :
    isDigit b = true := by
  obtain ⟨d, hd, rfl⟩ := List.mem_map.mp hb
  exact isDigit_digitByte (Nat.digits_lt_base (by norm_num) hd)

/-- **A positive number's decimal form** starts with a digit that is not zero, and goes
on with digits. -/
theorem formatNat_pos {n : ℕ} (hn : n ≠ 0) :
    ∃ b s, formatNat n = b :: s ∧ isDigit b = true ∧ b ≠ 0x30 ∧ ∀ c ∈ s, isDigit c = true := by
  have hne : Nat.digits 10 n ≠ [] := Nat.digits_ne_nil_iff_ne_zero.mpr hn
  have hmap : (Nat.digits 10 n).map digitByte ≠ [] := by simpa using hne
  have hrev : formatNat n = ((Nat.digits 10 n).map digitByte).getLast hmap ::
      ((Nat.digits 10 n).map digitByte).dropLast.reverse := by
    rw [formatNat, if_neg hn]
    conv_lhs => rw [← List.dropLast_append_getLast hmap]
    rw [List.reverse_append]
    rfl
  have hlast : ((Nat.digits 10 n).map digitByte).getLast hmap =
      digitByte ((Nat.digits 10 n).getLast hne) := List.getLast_map hmap
  refine ⟨_, _, hrev, isDigit_of_mem_digits (List.getLast_mem hmap), ?_, fun c hc => ?_⟩
  · rw [hlast]
    exact digitByte_ne_zero (Nat.digits_lt_base (by norm_num) (List.getLast_mem hne))
      (Nat.getLast_digit_ne_zero 10 hn)
  · exact isDigit_of_mem_digits (List.dropLast_subset _ (List.mem_reverse.mp hc))

theorem formatNat_zero : formatNat 0 = [0x30] := rfl

theorem all_isDigit_formatNat (n : ℕ) : ∀ b ∈ formatNat n, isDigit b = true := by
  rcases eq_or_ne n 0 with rfl | hn
  · exact List.forall_mem_singleton.mpr rfl
  · obtain ⟨b, s, hs, hb, -, hall⟩ := formatNat_pos hn
    rw [hs]
    exact List.forall_mem_cons.mpr ⟨hb, hall⟩

theorem formatNat_ne_nil (n : ℕ) : formatNat n ≠ [] := by
  rcases eq_or_ne n 0 with rfl | hn
  · decide
  · obtain ⟨b, s, hs, -⟩ := formatNat_pos hn
    simp [hs]

/-- **An integer's decimal form** is `0`, or digits of which the first is not zero, with a
minus sign in front of them or not. -/
theorem formatInt_cases (i : ℤ) : formatInt i = [0x30] ∨
    ∃ b s, (formatInt i = b :: s ∨ formatInt i = 0x2d :: b :: s) ∧ isDigit b = true ∧ b ≠ 0x30 ∧
      ∀ c ∈ s, isDigit c = true := by
  rcases eq_or_ne i.natAbs 0 with h0 | h0
  · obtain rfl : i = 0 := by omega
    exact Or.inl rfl
  · obtain ⟨b, s, hs, hb, hb0, hall⟩ := formatNat_pos h0
    refine Or.inr ⟨b, s, ?_, hb, hb0, hall⟩
    rw [formatInt, hs]
    split_ifs
    · exact Or.inr rfl
    · exact Or.inl rfl

theorem ne_of_isDigit {b c : UInt8} (h : isDigit b = true) (hc : isDigit c = false) : b ≠ c := by
  rintro rfl
  exact absurd h (by simp [hc])

/-! ### Reading a decimal form back -/

/-- Nothing at the front of these bytes prolongs a number. -/
def EndsNumber (u : Bytes) : Prop :=
  ∀ b ∈ u.head?, isDigit b = false ∧ b ≠ 0x2e ∧ b ≠ 0x65 ∧ b ≠ 0x45

theorem scanNumberFrom_stop {st : NumState} (hst : st = .zero ∨ st = .int) (hu : EndsNumber u) :
    scanNumberFrom st u = some ([], u) := by
  cases u with
  | nil => rcases hst with rfl | rfl <;> rfl
  | cons b u =>
    obtain ⟨h1, h2, h3, h4⟩ := hu b rfl
    rcases hst with rfl | rfl <;>
      simp [scanNumberFrom, NumState.next, NumState.complete, h1, h2, h3, h4]

theorem scanNumberFrom_digits {s : Bytes} (hs : ∀ b ∈ s, isDigit b = true) (hu : EndsNumber u) :
    scanNumberFrom .int (s ++ u) = some (s, u) := by
  induction s with
  | nil => exact scanNumberFrom_stop (Or.inr rfl) hu
  | cons b s ih =>
    have hb : NumState.next .int b = some .int := if_pos (hs b List.mem_cons_self)
    rw [List.cons_append, scanNumberFrom, hb]
    simp only
    rw [ih fun c hc => hs c (List.mem_cons_of_mem _ hc)]
    rfl

theorem scanNumber_formatNat (n : ℕ) (hu : EndsNumber u) :
    scanNumber (formatNat n ++ u) = some (formatNat n, u) := by
  rcases eq_or_ne n 0 with rfl | hn
  · rw [formatNat_zero, List.singleton_append, scanNumber, if_neg (by decide), if_pos rfl,
      scanNumberFrom_stop (Or.inl rfl) hu]
    rfl
  · obtain ⟨b, s, hs, hb, h0, hall⟩ := formatNat_pos hn
    rw [hs, List.cons_append, scanNumber, if_neg (ne_of_isDigit hb rfl), if_neg h0, if_pos hb,
      scanNumberFrom_digits hall hu]
    rfl

/-- **Scanning a decimal form** finds its end. -/
theorem scanNumber_formatInt (i : ℤ) (hu : EndsNumber u) :
    scanNumber (formatInt i ++ u) = some (formatInt i, u) := by
  rw [formatInt]
  split_ifs with hi
  · obtain ⟨b, s, hs, hb, h0, hall⟩ := formatNat_pos (n := i.natAbs) (by omega)
    have hnext : NumState.next .neg b = some .int := by
      rw [NumState.next, if_neg h0, if_pos hb]
    rw [hs, List.cons_append, scanNumber, if_pos rfl, List.cons_append, scanNumberFrom, hnext]
    simp only
    rw [scanNumberFrom_digits hall hu]
    rfl
  · exact scanNumber_formatNat _ hu

theorem foldl_formatNat (n : ℕ) :
    (formatNat n).foldl (fun m b => m * 10 + (b.toNat - 0x30)) 0 = n := by
  rcases eq_or_ne n 0 with rfl | hn
  · rfl
  · rw [formatNat, if_neg hn, List.foldl_reverse, List.foldr_map]
    have h : ∀ l : List ℕ, (∀ d ∈ l, d < 10) →
        l.foldr (fun d m => m * 10 + ((digitByte d).toNat - 0x30)) 0 = Nat.ofDigits 10 l := by
      intro l hl
      induction l with
      | nil => rfl
      | cons d l ih =>
        rw [List.foldr_cons, ih fun e he => hl e (List.mem_cons_of_mem _ he),
          digitByte_toNat (hl d List.mem_cons_self), Nat.ofDigits_cons]
        ring
    rw [h _ fun d hd => Nat.digits_lt_base (by norm_num) hd, Nat.ofDigits_digits]

theorem parseDigits_formatNat (n : ℕ) : parseDigits (formatNat n) = some n := by
  rw [parseDigits, if_pos ⟨formatNat_ne_nil n, List.all_eq_true.mpr (all_isDigit_formatNat n)⟩,
    foldl_formatNat]

/-- **Parsing a decimal form** gives the integer back, within the bounds of `int64`. -/
theorem parseInt_formatInt_eq (i : ℤ) :
    parseInt (formatInt i) = if IsInt64 i then some i else none := by
  rw [formatInt]
  split_ifs with hneg hi hi
  · obtain ⟨hlo, hhi⟩ := hi
    rw [parseInt, parseDigits_formatNat, Option.bind_some, if_pos (by omega)]
    congr 1
    omega
  · rw [parseInt, parseDigits_formatNat, Option.bind_some, if_neg]
    exact fun h => hi ⟨by omega, by omega⟩
  all_goals
    obtain ⟨b, s, hs⟩ := List.exists_cons_of_ne_nil (formatNat_ne_nil i.natAbs)
    have hb := all_isDigit_formatNat i.natAbs b (hs ▸ List.mem_cons_self)
    have hp := parseDigits_formatNat i.natAbs
    rw [hs] at hp ⊢
    rw [parseInt.eq_3 _ (fun t ht => ne_of_isDigit hb rfl (List.cons.inj ht).1)
      (fun t ht => ne_of_isDigit hb rfl (List.cons.inj ht).1), hp, Option.bind_some]
  · obtain ⟨hlo, hhi⟩ := hi
    rw [if_pos (by omega)]
    congr 1
    omega
  · rw [if_neg]
    exact fun h => hi ⟨by omega, by omega⟩

theorem parseInt_formatInt {i : ℤ} (hi : IsInt64 i) : parseInt (formatInt i) = some i := by
  rw [parseInt_formatInt_eq, if_pos hi]

end Json

end Go

end Iscp
