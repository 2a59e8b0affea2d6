import Iscp.Go.Text

/-!
# Base64 for URLs, without padding

`base64.RawURLEncoding`: three bytes become four characters, a last byte two and the last
two bytes three. Decoding passes over line breaks and does not look at the bits of the last
character that no byte uses, so that a byte string has many encodings; it has one that
`Iscp.Go.Base64.encodeToString` writes, and decoding undoes that one
(`Iscp.Go.Base64.decodeString_encodeToString`).
-/

namespace Iscp

namespace Go

namespace Base64

/-- The characters of the encoding, by their values. -/
def alphabet : Str := lit "ABCDEFGHIJKLMNOPQRSTUVWXYZabcdefghijklmnopqrstuvwxyz0123456789-_"

/-- The character of a value below 64. -/
def encodeDigit (n : ℕ) : UInt8 := alphabet.getD n 0

/-- The value of a digit. -/
def decodeDigit (b : UInt8) : Option ℕ := alphabet.idxOf? b

/-- **`EncodeToString`.** -/
def encodeToString : Bytes → Str
  | [] => []
  | [x] =>
    let val := x.toNat * 65536
    [encodeDigit (val / 262144), encodeDigit (val / 4096 % 64)]
  | [x, y] =>
    let val := x.toNat * 65536 + y.toNat * 256
    [encodeDigit (val / 262144), encodeDigit (val / 4096 % 64), encodeDigit (val / 64 % 64)]
  | x :: y :: z :: s =>
    let val := x.toNat * 65536 + y.toNat * 256 + z.toNat
    encodeDigit (val / 262144) :: encodeDigit (val / 4096 % 64) :: encodeDigit (val / 64 % 64) ::
      encodeDigit (val % 64) :: encodeToString s

/-- The first bytes of a group of four values. -/
def quantum (a b c d : ℕ) : Bytes :=
  let val := a * 262144 + b * 4096 + c * 64 + d
  [UInt8.ofNat (val / 65536), UInt8.ofNat (val / 256), UInt8.ofNat val]

/-- Decoding, once line breaks are gone. -/
def decodeDigits : Str → Option Bytes
  | [] => some []
  | [_] => none
  | [a, b] => do
    let a ← decodeDigit a
    let b ← decodeDigit b
    return (quantum a b 0 0).take 1
  | [a, b, c] => do
    let a ← decodeDigit a
    let b ← decodeDigit b
    let c ← decodeDigit c
    return (quantum a b c 0).take 2
  | a :: b :: c :: d :: s => do
    let a ← decodeDigit a
    let b ← decodeDigit b
    let c ← decodeDigit c
    let d ← decodeDigit d
    let rest ← decodeDigits s
    return quantum a b c d ++ rest

/-- **`DecodeString`.** -/
def decodeString (s : Str) : Option Bytes := decodeDigits (s.filter fun b => b ≠ 0x0d ∧ b ≠ 0x0a)

/-! ### Decoding an encoding -/

theorem decodeDigit_encodeDigit {n : ℕ} (h : n < 64) : decodeDigit (encodeDigit n) = some n := by
  revert n
  decide

theorem quantum_split (x y z : UInt8) (v : ℕ)
    (hv : v = x.toNat * 65536 + y.toNat * 256 + z.toNat) :
    quantum (v / 262144) (v / 4096 % 64) (v / 64 % 64) (v % 64) = [x, y, z] := by
  have hx := x.toNat_lt
  have hy := y.toNat_lt
  have hz := z.toNat_lt
  have hval : v / 262144 * 262144 + v / 4096 % 64 * 4096 + v / 64 % 64 * 64 + v % 64 = v := by
    omega
  have hbyte : ∀ (b : UInt8) (n : ℕ), n % 256 = b.toNat → UInt8.ofNat n = b := fun b n h =>
    UInt8.toNat_inj.mp (by rw [UInt8.toNat_ofNat', h])
  simp only [quantum, hval]
  rw [hbyte x (v / 65536) (by omega), hbyte y (v / 256) (by omega), hbyte z v (by omega)]

/-- What is encoded is decoded again. -/
theorem decodeDigits_encodeToString (s : Bytes) : decodeDigits (encodeToString s) = some s := by
  induction s using encodeToString.induct with
  | case1 => rfl
  | case2 x =>
    have hx := x.toNat_lt
    have hq := quantum_split x 0 0 (x.toNat * 65536) (by simp)
    rw [show x.toNat * 65536 / 64 % 64 = 0 by omega, show x.toNat * 65536 % 64 = 0 by omega] at hq
    rw [encodeToString, decodeDigits, decodeDigit_encodeDigit (by omega),
      decodeDigit_encodeDigit (by omega)]
    simp [hq]
  | case3 x y =>
    have hx := x.toNat_lt
    have hy := y.toNat_lt
    have hq := quantum_split x y 0 (x.toNat * 65536 + y.toNat * 256) (by simp)
    rw [show (x.toNat * 65536 + y.toNat * 256) % 64 = 0 by omega] at hq
    rw [encodeToString, decodeDigits, decodeDigit_encodeDigit (by omega),
      decodeDigit_encodeDigit (by omega), decodeDigit_encodeDigit (by omega)]
    simp [hq]
  | case4 x y z s ih =>
    have hx := x.toNat_lt
    have hy := y.toNat_lt
    have hz := z.toNat_lt
    rw [encodeToString, decodeDigits, decodeDigit_encodeDigit (by omega),
      decodeDigit_encodeDigit (by omega), decodeDigit_encodeDigit (by omega),
      decodeDigit_encodeDigit (by omega), ih]
    simp [quantum_split x y z _ rfl]

theorem mem_alphabet_of_mem_encodeToString {s : Bytes} {b : UInt8} (h : b ∈ encodeToString s) :
    b ∈ alphabet := by
  have hlen : alphabet.length = 64 := rfl
  have hdigit : ∀ {n : ℕ}, n < 64 → encodeDigit n ∈ alphabet := by
    intro n hn
    rw [encodeDigit, List.getD_eq_getElem?_getD, List.getElem?_eq_getElem (hlen ▸ hn)]
    exact List.getElem_mem _
  induction s using encodeToString.induct with
  | case1 => exact absurd h List.not_mem_nil
  | case2 x =>
    have hx := x.toNat_lt
    simp only [encodeToString, List.mem_cons, List.not_mem_nil, or_false] at h
    rcases h with rfl | rfl <;> exact hdigit (by omega)
  | case3 x y =>
    have hx := x.toNat_lt
    have hy := y.toNat_lt
    simp only [encodeToString, List.mem_cons, List.not_mem_nil, or_false] at h
    rcases h with rfl | rfl | rfl <;> exact hdigit (by omega)
  | case4 x y z s ih =>
    have hx := x.toNat_lt
    have hy := y.toNat_lt
    have hz := z.toNat_lt
    simp only [encodeToString, List.mem_cons] at h
    rcases h with rfl | rfl | rfl | rfl | h
    · exact hdigit (by omega)
    · exact hdigit (by omega)
    · exact hdigit (by omega)
    · exact hdigit (by omega)
    · exact ih h

variable {data : Bytes}

theorem mem_alphabet_of_decodeDigits {s : Str} (h : decodeDigits s = some data) {b : UInt8}
    (hb : b ∈ s) : b ∈ alphabet := by
  have hdigit : ∀ {c : UInt8} {n : ℕ}, decodeDigit c = some n → c ∈ alphabet := fun h => by
    rw [decodeDigit, List.idxOf?_eq_some_iff] at h
    obtain ⟨hn, rfl, -⟩ := h
    exact List.getElem_mem hn
  induction s using decodeDigits.induct generalizing data with
  | case1 => exact absurd hb List.not_mem_nil
  | case2 => cases h
  | case3 c d =>
    simp only [decodeDigits, Option.bind_eq_bind, Option.bind_eq_some_iff] at h
    obtain ⟨_, hc, _, hd, -⟩ := h
    simp only [List.mem_cons, List.not_mem_nil, or_false] at hb
    rcases hb with rfl | rfl
    · exact hdigit hc
    · exact hdigit hd
  | case4 c d e =>
    simp only [decodeDigits, Option.bind_eq_bind, Option.bind_eq_some_iff] at h
    obtain ⟨_, hc, _, hd, _, he, -⟩ := h
    simp only [List.mem_cons, List.not_mem_nil, or_false] at hb
    rcases hb with rfl | rfl | rfl
    · exact hdigit hc
    · exact hdigit hd
    · exact hdigit he
  | case5 c d e f s ih =>
    simp only [decodeDigits, Option.bind_eq_bind, Option.bind_eq_some_iff] at h
    obtain ⟨_, hc, _, hd, _, he, _, hf, rest, hrest, -⟩ := h
    simp only [List.mem_cons] at hb
    rcases hb with rfl | rfl | rfl | rfl | hb
    · exact hdigit hc
    · exact hdigit hd
    · exact hdigit he
    · exact hdigit hf
    · exact ih hrest hb

theorem zero_notMem_of_decodeString {s : Str} (h : decodeString s = some data) : 0 ∉ s := by
  intro hzero
  have hmem : 0 ∈ s.filter fun b => b ≠ 0x0d ∧ b ≠ 0x0a :=
    List.mem_filter.mpr ⟨hzero, by decide⟩
  exact absurd (mem_alphabet_of_decodeDigits h hmem) (by decide)

/-- **Decoding undoes encoding.** -/
@[simp] theorem decodeString_encodeToString (s : Bytes) :
    decodeString (encodeToString s) = some s := by
  have hall : ∀ b ∈ alphabet, b ≠ 0x0d ∧ b ≠ 0x0a := List.forall_iff_forall_mem.mp (by decide)
  rw [decodeString, List.filter_eq_self.mpr fun b hb =>
    decide_eq_true (hall b (mem_alphabet_of_mem_encodeToString hb)), decodeDigits_encodeToString]

theorem utf8_encodeToString (s : Bytes) : Utf8 (encodeToString s) := by
  have hall : ∀ b ∈ alphabet, b < 0x80 := List.forall_iff_forall_mem.mp (by decide)
  exact utf8_of_forall_lt fun b hb => hall b (mem_alphabet_of_mem_encodeToString hb)

end Base64

end Go

end Iscp
