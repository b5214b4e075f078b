import BuildLog.Text.Basic
import Mathlib.Data.List.Infix

/-! Texts that are joined of pieces, and the pieces that a text is cut into at a separator. -/
namespace BuildLog.Text

variable {c : Char} {piece separator : Text} {pieces : List Text}

@[simp] theorem join_nil (separator : Text) : join separator [] = [] := rfl

@[simp] theorem join_singleton (separator piece : Text) : join separator [piece] = piece := by
  simp [join]

theorem join_cons_cons (separator first second : Text) (rest : List Text) :
    join separator (first :: second :: rest) =
      first ++ separator ++ join separator (second :: rest) := by
  simp [join, List.intercalate_cons_cons]

theorem join_append {first second : List Text} (hfirst : first ≠ []) (hsecond : second ≠ []) :
    join separator (first ++ second) =
      join separator first ++ separator ++ join separator second := by
  induction first with
  | nil => exact absurd rfl hfirst
  | cons piece rest ih =>
    cases rest with
    | nil =>
      obtain ⟨next, others, rfl⟩ := List.exists_cons_of_ne_nil hsecond
      rw [List.singleton_append, join_cons_cons, join_singleton]
    | cons next others =>
      rw [List.cons_append, List.cons_append, join_cons_cons, join_cons_cons, ← List.cons_append,
        ih (List.cons_ne_nil _ _)]
      simp only [List.append_assoc]

/-- Next to a piece there is a separator or an end of the text. -/
theorem exists_of_mem_pieces (separator : Text) (hpiece : piece ∈ pieces) :
    ∃ before after, join separator pieces = before ++ piece ++ after ∧
      separator <:+ separator ++ before ∧ separator <+: after ++ separator := by
  induction pieces with
  | nil => cases hpiece
  | cons first rest ih =>
    cases rest with
    | nil =>
      rw [List.mem_singleton.mp hpiece, join_singleton]
      exact ⟨[], [], by simp, by simp, by simp⟩
    | cons second rest =>
      rw [join_cons_cons]
      rcases List.mem_cons.mp hpiece with rfl | hrest
      · refine ⟨[], separator ++ join separator (second :: rest), by simp, by simp, ?_⟩
        rw [List.append_assoc]
        exact List.prefix_append _ _
      · obtain ⟨before, after, hjoin, hbefore, hafter⟩ := ih hrest
        refine ⟨first ++ (separator ++ before), after, ?_, ?_, hafter⟩
        · rw [hjoin]
          simp only [List.append_assoc]
        · exact (hbefore.trans (List.suffix_append first _)).trans (List.suffix_append separator _)

theorem infix_join (hpiece : piece ∈ pieces) : piece <:+: join separator pieces := by
  obtain ⟨before, after, hjoin, -, -⟩ := exists_of_mem_pieces separator hpiece
  exact ⟨before, after, hjoin.symm⟩

theorem join_ne_nil (hpiece : piece ∈ pieces) (hne : piece ≠ []) : join separator pieces ≠ [] := by
  intro hjoin
  have hinfix : piece <:+: join separator pieces := infix_join hpiece
  rw [hjoin, List.infix_nil] at hinfix
  exact hne hinfix

theorem infix_join_between (hpiece : piece ∈ pieces) :
    separator ++ piece ++ separator <:+: separator ++ join separator pieces ++ separator := by
  obtain ⟨before, after, hjoin, ⟨front, hfront⟩, ⟨back, hback⟩⟩ :=
    exists_of_mem_pieces separator hpiece
  refine ⟨front, back, ?_⟩
  calc front ++ (separator ++ piece ++ separator) ++ back
      = (front ++ separator) ++ piece ++ (separator ++ back) := by simp only [List.append_assoc]
    _ = separator ++ join separator pieces ++ separator := by
        rw [hfront, hback, hjoin]
        simp only [List.append_assoc]

theorem mem_join (hc : c ∈ piece) (hpiece : piece ∈ pieces) : c ∈ join separator pieces :=
  (infix_join hpiece).subset hc

theorem exists_of_mem_join (h : c ∈ join separator pieces) :
    c ∈ separator ∨ ∃ piece ∈ pieces, c ∈ piece := by
  induction pieces with
  | nil => cases h
  | cons first rest ih =>
    cases rest with
    | nil =>
      rw [join_singleton] at h
      exact .inr ⟨first, List.mem_cons_self, h⟩
    | cons second rest =>
      rw [join_cons_cons, List.mem_append, List.mem_append] at h
      obtain (h | h) | h := h
      · exact .inr ⟨first, List.mem_cons_self, h⟩
      · exact .inl h
      · exact (ih h).imp_right fun ⟨piece, hpiece, hc⟩ => ⟨piece, List.mem_cons_of_mem _ hpiece, hc⟩

section
variable {separator : Char} {text : Text}

theorem exists_last_occurrence (h : c ∈ text) :
    ∃ before after, text = before ++ c :: after ∧ c ∉ after := by
  obtain ⟨after, before, htext, hafter⟩ := List.eq_append_cons_of_mem (List.mem_reverse.mpr h)
  refine ⟨before.reverse, after.reverse, ?_, by simpa using hafter⟩
  rw [← List.reverse_reverse text, htext]
  simp

theorem join_splitOn (separator : Char) (text : Text) :
    join [separator] (text.splitOn separator) = text :=
  List.intercalate_splitOn separator

theorem infix_of_mem_splitOn (hpiece : piece ∈ text.splitOn separator) : piece <:+: text := by
  have h : piece <:+: join [separator] (text.splitOn separator) := infix_join hpiece
  rwa [join_splitOn] at h

theorem mem_of_mem_piece (hc : c ∈ piece) (hpiece : piece ∈ text.splitOn separator) : c ∈ text :=
  (infix_of_mem_splitOn hpiece).subset hc

theorem exists_piece (hc : c ∈ text) (h : c ≠ separator) :
    ∃ piece ∈ text.splitOn separator, c ∈ piece := by
  rw [← join_splitOn separator text] at hc
  refine (exists_of_mem_join hc).resolve_left ?_
  rwa [List.mem_singleton]

theorem splitOn_cons_self (separator : Char) (text : Text) :
    (separator :: text).splitOn separator = [] :: text.splitOn separator := by
  rw [List.splitOn_cons_eq_if_modifyHead, if_pos (beq_self_eq_true separator)]

theorem exists_splitOn_cons (h : c ≠ separator) (text : Text) :
    ∃ first others, text.splitOn separator = first :: others ∧
      (c :: text).splitOn separator = (c :: first) :: others := by
  obtain ⟨first, others, hpieces⟩ :=
    List.exists_cons_of_ne_nil (List.splitOn_ne_nil separator text)
  refine ⟨first, others, hpieces, ?_⟩
  rw [List.splitOn_cons_eq_if_modifyHead, if_neg (by simpa using h), hpieces, List.modifyHead_cons]

theorem exists_first_piece (h : text.head? = some c) (hc : c ≠ separator) :
    ∃ piece, (text.splitOn separator).head? = some piece ∧ c ∈ piece := by
  obtain ⟨rest, rfl⟩ := List.head?_eq_some_iff.mp h
  obtain ⟨first, others, -, hpieces⟩ := exists_splitOn_cons hc rest
  exact ⟨c :: first, by rw [hpieces, List.head?_cons], List.mem_cons_self⟩

theorem exists_final_piece (h : text.getLast? = some c) (hc : c ≠ separator) :
    ∃ piece, (text.splitOn separator).getLast? = some piece ∧ c ∈ piece := by
  by_cases hmem : separator ∈ text
  · obtain ⟨before, after, rfl, hafter⟩ := exists_last_occurrence hmem
    refine ⟨after, ?_, ?_⟩
    · rw [List.splitOn_append_cons_self, List.splitOn_eq_singleton hafter, List.getLast?_concat]
    · rw [List.getLast?_append_of_ne_nil _ (List.cons_ne_nil _ _)] at h
      exact List.mem_of_ne_of_mem hc (List.mem_of_getLast? h)
  · rw [List.splitOn_eq_singleton hmem]
    exact ⟨text, rfl, List.mem_of_getLast? h⟩

theorem exists_piece_of_not_mem {part : Text} (hpart : part <:+: text) (h : separator ∉ part) :
    ∃ piece ∈ text.splitOn separator, part <:+: piece := by
  -- the piece reaches from the last separator before the part to the first one behind it
  have hbehind (front after : Text) (hfront : separator ∉ front) :
      ∃ piece ∈ (front ++ part ++ after).splitOn separator, part <:+: piece := by
    have hfree : separator ∉ front ++ part := by simp [hfront, h]
    by_cases hafter : separator ∈ after
    · obtain ⟨back, rest, rfl, hback⟩ := List.eq_append_cons_of_mem hafter
      refine ⟨front ++ part ++ back, ?_, front, back, rfl⟩
      rw [← List.append_assoc, List.splitOn_append_cons_self_of_not_mem (by simp_all)]
      exact List.mem_cons_self
    · refine ⟨front ++ part ++ after, ?_, front, after, rfl⟩
      rw [List.splitOn_eq_singleton (by simp_all)]
      exact List.mem_singleton_self _
  obtain ⟨before, after, rfl⟩ := hpart
  by_cases hbefore : separator ∈ before
  · obtain ⟨others, front, rfl, hfront⟩ := exists_last_occurrence hbefore
    obtain ⟨piece, hpiece, hinfix⟩ := hbehind front after hfront
    refine ⟨piece, ?_, hinfix⟩
    rw [List.append_assoc, List.append_assoc, List.cons_append, List.splitOn_append_cons_self,
      ← List.append_assoc]
    exact List.mem_append_right _ hpiece
  · exact hbehind before after hbefore

theorem not_mem_of_mem_splitOn (hpiece : piece ∈ text.splitOn separator) : separator ∉ piece := by
  induction text generalizing piece with
  | nil =>
    rw [List.splitOn_nil, List.mem_singleton] at hpiece
    rw [hpiece]
    exact List.not_mem_nil
  | cons c text ih =>
    by_cases hc : c = separator
    · rw [hc, splitOn_cons_self] at hpiece
      rcases List.mem_cons.mp hpiece with rfl | hpiece
      · exact List.not_mem_nil
      · exact ih hpiece
    · obtain ⟨first, others, hrest, hcons⟩ := exists_splitOn_cons hc text
      rw [hcons] at hpiece
      rw [hrest] at ih
      rcases List.mem_cons.mp hpiece with rfl | hpiece
      · exact List.not_mem_cons_of_ne_of_not_mem (Ne.symm hc) (ih List.mem_cons_self)
      · exact ih (List.mem_cons_of_mem _ hpiece)

end
end BuildLog.Text
