import BuildLog.Proofs.Text.Pieces
import BuildLog.Text.Lines
import BuildLog.Text.Utf8
import Mathlib.Data.List.Induction
import Mathlib.Data.List.Infix

/-! The first lines of a log are the lines of one of its beginnings, and what a reader makes of
bytes begins with what it makes of a beginning of them. So a log can be cut behind any line. -/
namespace BuildLog

namespace Text

@[simp] theorem lines_nil : lines [] = [] := rfl

theorem lines_append_cons {line : Text} (h : '\n' ∉ line) (rest : Text) :
    lines (line ++ '\n' :: rest) = line :: lines rest := by
  have hpieces := List.splitOn_append_cons_self_of_not_mem h rest
  obtain ⟨first, others, hrest⟩ := List.exists_cons_of_ne_nil (List.splitOn_ne_nil '\n' rest)
  unfold lines
  simp only [hpieces, hrest, List.getLast?_cons_cons, List.dropLast_cons_cons]
  split <;> rfl

theorem lines_of_not_mem {text : Text} (hne : text ≠ []) (h : '\n' ∉ text) :
    lines text = [text] := by
  unfold lines
  simp only [List.splitOn_eq_singleton h, List.getLast?_singleton]
  rw [if_neg]
  simpa using hne

theorem not_mem_of_mem_lines {line text : Text} (h : line ∈ lines text) : '\n' ∉ line := by
  apply not_mem_of_mem_splitOn
  unfold lines at h
  dsimp only at h
  split at h
  · exact List.mem_of_mem_dropLast h
  · exact h

theorem mem_of_mem_lines {c : Char} {line text : Text} (hc : c ∈ line) (h : line ∈ lines text) :
    c ∈ text := by
  unfold lines at h
  dsimp only at h
  split at h
  · exact mem_of_mem_piece hc (List.mem_of_mem_dropLast h)
  · exact mem_of_mem_piece hc h

theorem lines_flatMap {α : Type} {items : List α} {line : α → Text}
    (h : ∀ item ∈ items, '\n' ∉ line item) :
    lines (items.flatMap fun item => line item ++ ['\n']) = items.map line := by
  induction items with
  | nil => rfl
  | cons item items ih =>
    obtain ⟨hitem, hitems⟩ := List.forall_mem_cons.mp h
    rw [List.flatMap_cons, List.append_assoc, List.singleton_append, lines_append_cons hitem,
      ih hitems, List.map_cons]

theorem count_flatMap {α : Type} {items : List α} {line : α → Text}
    (h : ∀ item ∈ items, '\n' ∉ line item) :
    (items.flatMap fun item => line item ++ ['\n']).count '\n' = items.length := by
  induction items with
  | nil => rfl
  | cons item items ih =>
    obtain ⟨hitem, hitems⟩ := List.forall_mem_cons.mp h
    rw [List.flatMap_cons, List.count_append, List.count_append, List.count_eq_zero.mpr hitem,
      ih hitems, List.length_cons]
    simp [Nat.add_comm]

theorem completeLines_append_cons {line : Text} (h : '\n' ∉ line) (rest : Text) :
    completeLines (line ++ '\n' :: rest) = line :: completeLines rest := by
  have hpieces := List.splitOn_append_cons_self_of_not_mem h rest
  obtain ⟨first, others, hrest⟩ := List.exists_cons_of_ne_nil (List.splitOn_ne_nil '\n' rest)
  unfold completeLines
  rw [hpieces, hrest, List.dropLast_cons_cons]

theorem completeLines_flatMap {lines : List Text} (h : ∀ line ∈ lines, '\n' ∉ line) :
    completeLines (lines.flatMap fun line => line ++ ['\n']) = lines := by
  induction lines with
  | nil => rfl
  | cons line lines ih =>
    obtain ⟨hline, hlines⟩ := List.forall_mem_cons.mp h
    rw [List.flatMap_cons, List.append_assoc, List.singleton_append,
      completeLines_append_cons hline, ih hlines]

theorem completeLines_prefix (text : Text) : completeLines text <+: lines text := by
  unfold completeLines lines
  dsimp only
  split
  · exact List.prefix_rfl
  · exact List.dropLast_prefix _

/-- The induction is on the number of lines, each taken off with the line feed behind it. -/
theorem exists_lines_eq_take (n : Nat) (text : Text) :
    ∃ beginning, beginning <+: text ∧ lines beginning = (lines text).take n := by
  induction n generalizing text with
  | zero => exact ⟨[], List.nil_prefix, rfl⟩
  | succ n ih =>
    by_cases h : '\n' ∈ text
    · obtain ⟨line, rest, rfl, hline⟩ := List.eq_append_cons_of_mem h
      obtain ⟨beginning, hbeginning, hlines⟩ := ih rest
      refine ⟨line ++ '\n' :: beginning, ?_, ?_⟩
      · rw [List.prefix_append_right_inj, List.prefix_cons_inj]
        exact hbeginning
      · rw [lines_append_cons hline, lines_append_cons hline, hlines, List.take_succ_cons]
    · refine ⟨text, List.prefix_rfl, ?_⟩
      by_cases hne : text = []
      · rw [hne, lines_nil, List.take_nil]
      · rw [lines_of_not_mem hne h, List.take_succ_cons, List.take_nil]

theorem foldl_step_of_not_mem {text : Text} (h : '\r' ∉ text) (done : Text) :
    text.foldl NewlineReader.step ⟨false, done⟩ = ⟨false, text.reverse ++ done⟩ := by
  induction text generalizing done with
  | nil => rfl
  | cons c text ih =>
    rw [List.mem_cons, not_or] at h
    have hstep : NewlineReader.step ⟨false, done⟩ c = ⟨false, c :: done⟩ := by
      simp [NewlineReader.step, Ne.symm h.1]
    rw [List.foldl_cons, hstep, ih h.2, List.reverse_cons, List.append_assoc]
    rfl

theorem unifyNewlines_of_not_mem {text : Text} (h : '\r' ∉ text) : unifyNewlines text = text := by
  unfold unifyNewlines
  rw [foldl_step_of_not_mem h, List.append_nil, List.reverse_reverse]

theorem return_not_mem_unifyNewlines (text : Text) : '\r' ∉ unifyNewlines text := by
  have hfold (reader : NewlineReader) (hdone : '\r' ∉ reader.done) :
      '\r' ∉ (text.foldl NewlineReader.step reader).done := by
    induction text generalizing reader with
    | nil => exact hdone
    | cons c text ih =>
      refine ih _ ?_
      unfold NewlineReader.step
      split_ifs with hreturn
      · simp [hdone]
      · exact hdone
      · simp [hdone, Ne.symm hreturn]
  unfold unifyNewlines
  rw [List.mem_reverse]
  exact hfold ⟨false, []⟩ List.not_mem_nil

theorem unifyNewlines_concat (text : Text) (c : Char) :
    unifyNewlines (text ++ [c]) = unifyNewlines text ∨
      ∃ d, unifyNewlines (text ++ [c]) = unifyNewlines text ++ [d] := by
  unfold unifyNewlines
  rw [List.foldl_append, List.foldl_cons, List.foldl_nil]
  unfold NewlineReader.step
  split_ifs
  · exact .inr ⟨'\n', List.reverse_cons⟩
  · exact .inl rfl
  · exact .inr ⟨c, List.reverse_cons⟩

theorem exists_unifyNewlines_eq {beginning text : Text} (h : beginning <+: unifyNewlines text) :
    ∃ raw, raw <+: text ∧ unifyNewlines raw = beginning := by
  induction text using List.reverseRecOn with
  | nil => exact ⟨[], List.prefix_rfl, (List.prefix_nil.mp h).symm⟩
  | append_singleton text c ih =>
    have hearlier (h : beginning <+: unifyNewlines text) :
        ∃ raw, raw <+: text ++ [c] ∧ unifyNewlines raw = beginning := by
      obtain ⟨raw, hraw, hunify⟩ := ih h
      exact ⟨raw, hraw.trans (List.prefix_append _ _), hunify⟩
    obtain hsame | ⟨d, hmore⟩ := unifyNewlines_concat text c
    · rw [hsame] at h
      exact hearlier h
    · rw [hmore, List.prefix_concat_iff] at h
      obtain rfl | h := h
      · exact ⟨text ++ [c], List.prefix_rfl, hmore⟩
      · exact hearlier h

end Text

namespace Utf8

def settled (done : List Piece) : Text := done.reverse.map Piece.replaced

theorem settled_cons (piece : Piece) (done : List Piece) :
    settled (piece :: done) = settled done ++ [piece.replaced] := by
  simp [settled]

namespace Decoder

/-- What the bytes so far are read as if no others come. -/
def text (decoder : Decoder) : Text := decoder.finish.map Piece.replaced

variable {beginning : Text} {done : List Piece}

theorem text_of_none : text ⟨none, done⟩ = settled done := rfl

theorem text_of_some (pending : Pending) : text ⟨some pending, done⟩ = settled done ++ ['\ufffd'] :=
  settled_cons (.fault ⟨.unexpectedEnd, pending.bytes⟩) done

theorem settled_prefix_text (decoder : Decoder) : settled decoder.done <+: decoder.text := by
  obtain ⟨_ | pending, done⟩ := decoder
  · exact List.prefix_rfl
  · rw [text_of_some]
    exact List.prefix_append _ _

theorem prefix_text {decoder : Decoder} (h : beginning <+: decoder.text) :
    beginning = decoder.text ∨ beginning <+: settled decoder.done := by
  obtain ⟨_ | pending, done⟩ := decoder
  · exact .inr h
  · rw [text_of_some, List.prefix_concat_iff] at h
    rw [text_of_some]
    exact h

theorem prefix_begin {byte : UInt8} (h : beginning <+: settled (begin done byte).done) :
    beginning = (begin done byte).text ∨ beginning <+: settled done := by
  unfold begin at h ⊢
  revert h
  cases Utf8.begin byte with
  | inl piece =>
    intro h
    dsimp only at h ⊢
    rw [settled_cons, List.prefix_concat_iff] at h
    rw [text_of_none, settled_cons]
    exact h
  | inr pending => exact .inr

/-- A byte settles no more than was read without it, or than is read with it as the last one. -/
theorem prefix_step {decoder : Decoder} {byte : UInt8}
    (h : beginning <+: settled (decoder.step byte).done) :
    beginning = (decoder.step byte).text ∨ beginning <+: decoder.text := by
  obtain ⟨_ | pending, done⟩ := decoder
  · exact prefix_begin h
  · have hsettled := settled_prefix_text ⟨some pending, done⟩
    unfold step at h ⊢
    dsimp only at h ⊢
    split at h
    next c _ =>
      rw [settled_cons, List.prefix_concat_iff] at h
      rw [text_of_none, settled_cons]
      exact h.imp_right fun h => h.trans hsettled
    next => exact .inr (List.IsPrefix.trans h hsettled)
    next =>
      -- the byte ends the pending character as a fault, which is what it was read as
      have hfault := prefix_begin h
      rw [settled_cons] at hfault
      rw [text_of_some]
      exact hfault

end Decoder

theorem decodeReplacing_eq (bytes : List UInt8) :
    decodeReplacing bytes = (bytes.foldl Decoder.step .start).text := rfl

theorem exists_decodeReplacing_eq {beginning : Text} {bytes : List UInt8}
    (h : beginning <+: decodeReplacing bytes) :
    ∃ raw, raw <+: bytes ∧ decodeReplacing raw = beginning := by
  induction bytes using List.reverseRecOn with
  | nil => exact ⟨[], List.prefix_rfl, (List.prefix_nil.mp h).symm⟩
  | append_singleton bytes byte ih =>
    rw [decodeReplacing_eq, List.foldl_append] at h
    have hcases : beginning = decodeReplacing (bytes ++ [byte]) ∨
        beginning <+: decodeReplacing bytes := by
      rw [decodeReplacing_eq, decodeReplacing_eq, List.foldl_append]
      obtain h | h := Decoder.prefix_text h
      · exact .inl h
      · exact Decoder.prefix_step h
    obtain rfl | h := hcases
    · exact ⟨bytes ++ [byte], List.prefix_rfl, rfl⟩
    · obtain ⟨raw, hraw, hdecode⟩ := ih h
      exact ⟨raw, hraw.trans (List.prefix_append _ _), hdecode⟩

end Utf8

end BuildLog
