import Iscp.Go.Time
import Iscp.Go.Json.Quote

/-!
# The RFC 3339 form of an instant

What is known of the text encoding/json writes for a `time.Time`: it has digits and a few marks, so
that it is ASCII, and stands in a JSON string as it is.
-/

namespace Iscp

namespace Go

namespace Time

open Json

/-- The bytes that occur in the text of a time. -/
def isTimeByte (b : UInt8) : Bool := isDigit b || b ∈ lit "+-.:TZ"

/-- Text of digits and the marks between them. -/
def TimeText (s : Bytes) : Prop := ∀ b ∈ s, isTimeByte b = true

variable {s : Bytes}

theorem timeText_append {t : Bytes} : TimeText (s ++ t) ↔ TimeText s ∧ TimeText t :=
  List.forall_mem_append

theorem timeText_cons {b : UInt8} :
    TimeText (b :: s) ↔ isTimeByte b = true ∧ TimeText s := List.forall_mem_cons

theorem timeText_nil : TimeText [] := fun _ h => absurd h List.not_mem_nil

theorem timeText_of_digits (h : ∀ b ∈ s, isDigit b = true) : TimeText s := fun b hb => by
  rw [isTimeByte, h b hb, Bool.true_or]

theorem timeText_pad (width n : ℕ) : TimeText (pad width n) := by
  refine timeText_append.mpr ⟨fun b hb => ?_, timeText_of_digits (all_isDigit_formatNat n)⟩
  rw [List.eq_of_mem_replicate hb]
  decide

theorem timeText_formatYear (y : ℤ) : TimeText (formatYear y) := by
  rw [formatYear]
  split_ifs
  · exact timeText_cons.mpr ⟨by decide, timeText_pad _ _⟩
  · exact timeText_pad _ _

theorem timeText_formatDate (t : Time) : TimeText t.formatDate := by
  simp only [formatDate, timeText_append, timeText_cons, timeText_pad, timeText_formatYear,
    and_true, true_and]
  decide

theorem timeText_formatClock (t : Time) : TimeText t.formatClock := by
  have hfraction (s : Bytes) (hs : TimeText s) : TimeText (s.rdropWhile (· = 0x30)) := fun b hb =>
    hs b ((List.rdropWhile_prefix _ s).subset hb)
  simp only [formatClock, timeText_append, timeText_cons, timeText_pad, true_and, and_true]
  refine ⟨by decide, ?_⟩
  split_ifs
  · exact timeText_nil
  · exact timeText_cons.mpr ⟨by decide, hfraction _ (timeText_pad _ _)⟩

theorem timeText_formatOffset (offset : ℤ) {separator : Bytes} (h : TimeText separator) :
    TimeText (formatOffset offset separator) := by
  simp only [formatOffset, timeText_append, timeText_cons, timeText_pad, h, and_true]
  split_ifs <;> decide

/-- **The RFC 3339 form** has digits and marks only. -/
theorem timeText_rfc3339Nano (t : Time) : TimeText t.rfc3339Nano := by
  simp only [rfc3339Nano, timeText_append, timeText_cons, timeText_formatDate, timeText_formatClock,
    true_and, and_true]
  refine ⟨by decide, ?_⟩
  split_ifs
  · exact timeText_cons.mpr ⟨by decide, timeText_nil⟩
  · exact timeText_formatOffset _ (timeText_cons.mpr ⟨by decide, timeText_nil⟩)

theorem exists_char_of_isTimeByte {b : UInt8} (h : isTimeByte b = true) :
    ∃ c : Char, String.utf8EncodeChar c = [b] ∧ quoteChar c = [b] := by
  have hall : ∀ n : Fin 256, isTimeByte (UInt8.ofNat n) = true →
      String.utf8EncodeChar (Char.ofNat n) = [UInt8.ofNat n] ∧
        quoteChar (Char.ofNat n) = [UInt8.ofNat n] := by
    decide +kernel
  have hb : UInt8.ofNat b.toNat = b := UInt8.ofNat_toNat
  have hchar := hall ⟨b.toNat, b.toNat_lt⟩ (hb.symm ▸ h)
  exact ⟨_, hb ▸ hchar⟩

theorem quoteBody_of_timeText (h : TimeText s) : quoteBody s = s := by
  induction s with
  | nil => rfl
  | cons b s ih =>
    obtain ⟨hb, hs⟩ := timeText_cons.mp h
    obtain ⟨c, henc, hquote⟩ := exists_char_of_isTimeByte hb
    have hrunes : runes (b :: s) = some c :: runes s := by
      rw [← runes_encode_append, henc, List.singleton_append]
    have hrest := ih hs
    rw [quoteBody] at hrest ⊢
    rw [hrunes, List.flatMap_cons, hrest, quoteRune, hquote, List.singleton_append]

theorem utf8_rfc3339Nano (t : Time) : Utf8 t.rfc3339Nano := by
  refine utf8_of_forall_lt fun b hb => ?_
  have hall : ∀ n : Fin 256, isTimeByte (UInt8.ofNat n) = true → UInt8.ofNat n < 0x80 := by
    decide +kernel
  have hlt := hall ⟨b.toNat, b.toNat_lt⟩
  rw [UInt8.ofNat_toNat] at hlt
  exact hlt (t.timeText_rfc3339Nano b hb)

end Time

end Go

end Iscp
