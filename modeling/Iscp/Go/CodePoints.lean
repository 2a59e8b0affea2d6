import Iscp.Go.Text
import Mathlib.Order.Defs.LinearOrder
import Mathlib.Data.List.Lex

/-!
# The order of code points

Go compares strings byte by byte. On valid UTF-8 this is the comparison of the texts code point
by code point (`Iscp.Go.lt_iff_codePoints_lt`): an encoding starts with a byte that grows with
its length, and the bits of the scalar follow with the most significant ones first.
-/

namespace Iscp

namespace Go

/-- **The code points of a string**, an invalid byte counting as the replacement scalar. -/
def codePoints (s : Str) : List ℕ := (runes s).map fun r => (r.getD replacement).toNat

theorem codePoints_encode (cs : List Char) : codePoints (encode cs) = cs.map Char.toNat := by
  simp [codePoints, Function.comp_def]

/-- **The encoding of a smaller scalar comes first**, whatever follows the two. -/
theorem utf8EncodeChar_append_lt {c d : Char} (h : c.toNat < d.toNat) (s t : Str) :
    String.utf8EncodeChar c ++ s < String.utf8EncodeChar d ++ t := by
  have hc : c.val.toNat = c.toNat := rfl
  have hd : d.val.toNat = d.toNat := rfl
  have hmax : d.toNat < 0x110000 := by
    rcases d.valid with hv | hv <;> omega
  have h6 : ∀ n, (n % 64 + 128) % 256 = n % 64 + 128 := by omega
  have h5 : ∀ n, (n % 32 + 192) % 256 = n % 32 + 192 := by omega
  have h4 : ∀ n, (n % 16 + 224) % 256 = n % 16 + 224 := by omega
  have h3 : ∀ n, (n % 8 + 240) % 256 = n % 8 + 240 := by omega
  have d2 : ∀ n, n / 4096 = n / 64 / 64 := by omega
  have d3 : ∀ n, n / 262144 = n / 64 / 64 / 64 := by omega
  -- the first byte that differs is found by the lengths of the encodings
  unfold String.utf8EncodeChar
  simp only [hc, hd]
  split_ifs <;>
    simp only [List.cons_append, List.nil_append, List.cons_lt_cons_iff, UInt8.lt_iff_toNat_lt,
      ← UInt8.toNat_inj, UInt8.toNat_ofNat', Nat.reducePow, h6, h5, h4, h3, d2, d3] <;>
    omega

theorem append_left_lt_iff (l : Str) {s t : Str} : l ++ s < l ++ t ↔ s < t := by
  induction l with
  | nil => rfl
  | cons b l ih => rw [List.cons_append, List.cons_append, List.cons_lt_cons_iff, ih]; simp

theorem encode_lt_encode {cs ds : List Char} (h : cs.map Char.toNat < ds.map Char.toNat) :
    encode cs < encode ds := by
  induction cs generalizing ds with
  | nil =>
    cases ds with
    | nil => exact absurd h (List.lt_irrefl _)
    | cons d ds =>
      obtain ⟨b, l, hbl⟩ := List.exists_cons_of_ne_nil (utf8EncodeChar_ne_nil d)
      rw [encode_nil, encode_cons, hbl]
      exact List.nil_lt_cons _ _
  | cons c cs ih =>
    cases ds with
    | nil => exact absurd h (List.not_lt_nil _)
    | cons d ds =>
      rw [encode_cons, encode_cons]
      rw [List.map_cons, List.map_cons, List.cons_lt_cons_iff] at h
      rcases h with hlt | ⟨heq, hrest⟩
      · exact utf8EncodeChar_append_lt hlt _ _
      · obtain rfl := Char.toNat_inj.mp heq
        exact (append_left_lt_iff _).mpr (ih hrest)

/-- **On valid text the order of bytes is the order of code points.** -/
theorem lt_iff_codePoints_lt {s t : Str} (hs : Utf8 s) (ht : Utf8 t) :
    s < t ↔ codePoints s < codePoints t := by
  obtain ⟨cs, rfl⟩ := utf8_iff_exists.mp hs
  obtain ⟨ds, rfl⟩ := utf8_iff_exists.mp ht
  rw [codePoints_encode, codePoints_encode]
  refine ⟨fun h => ?_, encode_lt_encode⟩
  -- of two different texts one comes first, and it does so for bytes and code points alike
  rcases lt_trichotomy (cs.map Char.toNat) (ds.map Char.toNat) with hlt | heq | hgt
  · exact hlt
  · have hinj : Function.Injective Char.toNat := fun _ _ => Char.toNat_inj.mp
    obtain rfl := List.map_injective_iff.mpr hinj heq
    exact absurd h (List.lt_irrefl _)
  · exact absurd (List.lt_trans h (encode_lt_encode hgt)) (List.lt_irrefl _)

end Go

end Iscp
