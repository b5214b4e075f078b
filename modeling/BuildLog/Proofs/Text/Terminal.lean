import BuildLog.Text.Terminal
import Mathlib.Data.List.TakeWhile

/-! What is left of a text without its control sequences, told without a reader of sequences: each
place of it is the beginning of a whole sequence, which is dropped, or a character that stays. -/
namespace BuildLog.Text

variable {text sequence rest shown : Text} {c : Char}

theorem isSequence_of_sequence? (h : sequence? text = some (sequence, rest)) :
    IsSequence sequence := by
  unfold sequence? at h
  split at h
  next tail =>
    dsimp only at h
    split at h
    · cases h
    next last behind hsplit =>
      split at h
      next hlast =>
        cases h
        exact .intro (fun _ => List.mem_takeWhile_imp) (fun _ => List.mem_takeWhile_imp) hlast
      next => cases h
  next => cases h

theorem sequence?_eq_some_iff :
    sequence? text = some (sequence, rest) ↔ IsSequence sequence ∧ sequence ++ rest = text := by
  constructor
  · intro h
    exact ⟨isSequence_of_sequence? h, append_of_sequence? h⟩
  · rintro ⟨h, rfl⟩
    exact sequence?_append h rest

theorem sequence?_eq_none_iff :
    sequence? text = none ↔ ∀ sequence, IsSequence sequence → ¬ sequence <+: text := by
  rw [Option.eq_none_iff_forall_ne_some]
  constructor
  · rintro h sequence hsequence ⟨rest, hrest⟩
    exact h (sequence, rest) (sequence?_eq_some_iff.mpr ⟨hsequence, hrest⟩)
  · rintro h ⟨sequence, rest⟩ hsome
    obtain ⟨hsequence, hrest⟩ := sequence?_eq_some_iff.mp hsome
    exact h sequence hsequence ⟨rest, hrest⟩

inductive Strips : Text → Text → Prop
  | nil : Strips [] []
  | sequence {sequence text shown : Text} (h : IsSequence sequence) (more : Strips text shown) :
    Strips (sequence ++ text) shown
  | char {c : Char} {text shown : Text}
    (h : ∀ sequence, IsSequence sequence → ¬ sequence <+: c :: text) (more : Strips text shown) :
    Strips (c :: text) (c :: shown)

theorem strips_withoutSequences (text : Text) : Strips text (withoutSequences text) := by
  fun_induction glyphs text with
  | case1 =>
    rw [withoutSequences_nil]
    exact .nil
  | case2 c rest sequence after h _ ih =>
    obtain ⟨hsequence, heq⟩ := sequence?_eq_some_iff.mp h
    rw [withoutSequences_of_sequence? h, ← heq]
    exact .sequence hsequence ih
  | case3 c rest h ih =>
    rw [withoutSequences_of_none h]
    exact .char (sequence?_eq_none_iff.mp h) ih

/-- Whole sequences are left out and everything else stays, in its order. -/
theorem strips_iff : Strips text shown ↔ shown = withoutSequences text := by
  constructor
  · intro h
    induction h with
    | nil => exact withoutSequences_nil.symm
    | sequence hsequence more ih => rw [withoutSequences_sequence_append hsequence, ih]
    | char hplain more ih => rw [withoutSequences_of_none (sequence?_eq_none_iff.mpr hplain), ih]
  · rintro rfl
    exact strips_withoutSequences text

end BuildLog.Text
