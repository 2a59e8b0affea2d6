import Mathlib.Data.List.Basic

/-!
# Byte strings in order

Go compares strings byte by byte, as lists are compared. If two byte strings are put together from
pieces of the same lengths, they compare as their first pieces do, and as the rest if these are
equal (`Iscp.Go.append_lt_append_iff`). The big-endian reading of a byte string is compared the
same way: byte strings of one length are in the order of the numbers they stand for
(`Iscp.Go.bigEndian_lt_iff`).
-/

namespace Iscp

namespace Go

/-! ### Pieces -/

section Lex

variable {α : Type} [LT α]

/-- **Strings compare piece by piece**, if the pieces have the same lengths. -/
theorem append_lt_append_iff {a a' : List α} (h : a.length = a'.length) (s s' : List α) :
    a ++ s < a' ++ s' ↔ a < a' ∨ (a = a' ∧ s < s') := by
  induction a generalizing a' with
  | nil =>
    obtain rfl := List.length_eq_zero_iff.mp h.symm
    simp
  | cons x a ih =>
    cases a' with
    | nil => cases h
    | cons y a' =>
      rw [List.cons_append, List.cons_append, List.cons_lt_cons_iff, List.cons_lt_cons_iff,
        ih (Nat.succ.inj h), List.cons.injEq]
      constructor
      · rintro (hlt | ⟨rfl, hlt | ⟨rfl, hlt⟩⟩)
        · exact .inl (.inl hlt)
        · exact .inl (.inr ⟨rfl, hlt⟩)
        · exact .inr ⟨⟨rfl, rfl⟩, hlt⟩
      · rintro ((hlt | ⟨rfl, hlt⟩) | ⟨⟨rfl, rfl⟩, hlt⟩)
        · exact .inl hlt
        · exact .inr ⟨rfl, .inl hlt⟩
        · exact .inr ⟨rfl, .inr ⟨rfl, hlt⟩⟩

theorem cons_lt_cons_self_iff [Std.Irrefl (fun x y : α => x < y)] (x : α) (s s' : List α) :
    x :: s < x :: s' ↔ s < s' := by
  rw [List.cons_lt_cons_iff, or_iff_right (Std.Irrefl.irrefl x), and_iff_right rfl]

end Lex

/-! ### Numbers -/

/-- **`binary.BigEndian`**: the number a byte string stands for, the first byte counting most. -/
def bigEndian (b : List UInt8) : ℕ := b.foldl (fun n v => n * 256 + v.toNat) 0

variable {b' b : List UInt8}

theorem foldl_lt_iff (h : b.length = b'.length) (n m : ℕ) :
    b.foldl (fun n v => n * 256 + v.toNat) n < b'.foldl (fun n v => n * 256 + v.toNat) m ↔
      n < m ∨ (n = m ∧ b < b') := by
  induction b generalizing b' n m with
  | nil =>
    obtain rfl := List.length_eq_zero_iff.mp h.symm
    simp
  | cons v b ih =>
    cases b' with
    | nil => cases h
    | cons w b' =>
      have hv := v.toNat_lt
      have hw := w.toNat_lt
      rw [List.foldl_cons, List.foldl_cons, ih (Nat.succ.inj h), List.cons_lt_cons_iff,
        UInt8.lt_iff_toNat_lt, ← UInt8.toNat_inj]
      constructor
      · rintro (hlt | ⟨heq, hlt⟩)
        · rcases Nat.lt_trichotomy n m with hnm | rfl | hnm
          · exact .inl hnm
          · exact .inr ⟨rfl, .inl (by omega)⟩
          · omega
        · exact .inr ⟨by omega, .inr ⟨by omega, hlt⟩⟩
      · rintro (hlt | ⟨rfl, hlt | ⟨heq, hlt⟩⟩)
        · exact .inl (by omega)
        · exact .inl (by omega)
        · exact .inr ⟨by omega, hlt⟩

/-- **Byte strings of one length are in the order of their numbers.** -/
theorem bigEndian_lt_iff (h : b.length = b'.length) : bigEndian b < bigEndian b' ↔ b < b' := by
  rw [bigEndian, bigEndian, foldl_lt_iff h]
  simp

end Go

end Iscp
