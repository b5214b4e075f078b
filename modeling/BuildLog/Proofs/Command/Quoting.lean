import BuildLog.Command.Quoting

/-! A command string determines its arguments: the reader takes apart what `render` has put
together, whatever the arguments hold. -/
namespace BuildLog.Command

theorem needsQuotes_eq_false {c : Char} (h : needsQuotes c = false) :
    c ≠ ' ' ∧ c ≠ '"' ∧ c ≠ '\\' := by
  simpa [needsQuotes, and_assoc] using h

theorem quote_of_plain {argument : Text} (hne : argument ≠ [])
    (h : ∀ c ∈ argument, needsQuotes c = false) : quote argument = argument := by
  unfold quote
  rw [if_neg]
  simpa [hne] using h

namespace Reading

theorem finish_quoted_cons {c : Char} (h : c ≠ '\\') (sofar rest : Text) :
    (quoted sofar).finish (c :: rest) =
      if c = '"' then (bare sofar).finish rest else (quoted (c :: sofar)).finish rest := by
  rw [finish]
  intro _ _ hc
  exact absurd hc h

theorem finish_quoted_escape (argument sofar rest : Text) :
    (quoted sofar).finish (escape argument ++ '"' :: rest) =
      (bare (argument.reverse ++ sofar)).finish rest := by
  induction argument generalizing sofar with
  | nil => rw [escape, List.nil_append, finish_quoted_cons (by decide), if_pos rfl]; rfl
  | cons c argument ih =>
    rw [List.reverse_cons, List.append_assoc, List.singleton_append, ← ih]
    by_cases h : c = '"' ∨ c = '\\'
    · rw [escape, if_pos h]
      rfl
    · rw [escape, if_neg h, List.cons_append]
      rw [not_or] at h
      rw [finish_quoted_cons h.2, if_neg h.1]

theorem finish_bare_append {argument : Text} (h : ∀ c ∈ argument, needsQuotes c = false)
    (sofar rest : Text) :
    (bare sofar).finish (argument ++ rest) = (bare (argument.reverse ++ sofar)).finish rest := by
  induction argument generalizing sofar with
  | nil => rfl
  | cons c argument ih =>
    obtain ⟨hc, hargument⟩ := List.forall_mem_cons.mp h
    obtain ⟨hspace, hquote, -⟩ := needsQuotes_eq_false hc
    rw [List.cons_append, finish, if_neg hspace, if_neg hquote, ih hargument, List.reverse_cons,
      List.append_assoc, List.singleton_append]

/-- Whichever way an argument is written, it is read up to its end. -/
theorem finish_between_quote (argument rest : Text) :
    between.finish (quote argument ++ rest) = (bare argument.reverse).finish rest := by
  by_cases h : argument = [] ∨ argument.any needsQuotes
  · rw [quote, if_pos h, List.cons_append, List.cons_append, List.append_assoc,
      List.singleton_append, finish, if_neg (by decide), if_pos rfl, finish_quoted_escape,
      List.append_nil]
  · obtain ⟨hne, hplain⟩ := not_or.mp h
    have hplain : ∀ c ∈ argument, needsQuotes c = false := by simpa using hplain
    rw [quote_of_plain hne hplain]
    obtain ⟨c, tail, rfl⟩ := List.exists_cons_of_ne_nil hne
    obtain ⟨hc, htail⟩ := List.forall_mem_cons.mp hplain
    obtain ⟨hspace, hquote, -⟩ := needsQuotes_eq_false hc
    rw [List.cons_append, finish, if_neg hspace, if_neg hquote, finish_bare_append htail,
      List.reverse_cons]

end Reading

theorem render_cons_cons (first second : Text) (rest : List Text) :
    render (first :: second :: rest) = quote first ++ ' ' :: render (second :: rest) := by
  simp [render, Text.join, List.intercalate_cons_cons]

/-- The reader gives back the arguments that a command string was made of. -/
theorem read_render (arguments : List Text) : read (render arguments) = arguments := by
  unfold read
  induction arguments with
  | nil => rfl
  | cons first rest ih =>
    cases rest with
    | nil =>
      have h := Reading.finish_between_quote first []
      simpa [render, Text.join, Reading.finish] using h
    | cons second rest =>
      rw [render_cons_cons, Reading.finish_between_quote, Reading.finish, if_pos rfl, ih,
        List.reverse_reverse]

end BuildLog.Command
