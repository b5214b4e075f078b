import BuildLog.Proofs.Command.Quoting
import Mathlib.Data.List.Basic

/-! Two ways back from a command string. The reader gives back all arguments at once. Of a single
quoted argument it is enough to replace the escapes, first those of quotes and then those of
backslashes, although a replacement does not see where an escape begins. -/
namespace BuildLog

namespace Text

/-- A text with each occurrence of a needle replaced. Occurrences are found from left to right and
do not overlap; the needle is not empty. -/
def replaceAll (needle replacement : Text) : Text → Text
  | [] => []
  | c :: rest =>
    if needle.isPrefixOf (c :: rest) then
      replacement ++ replaceAll needle replacement (rest.drop (needle.length - 1))
    else c :: replaceAll needle replacement rest
termination_by text => text.length
decreasing_by
  · rw [List.length_drop, List.length_cons]
    omega
  · exact Nat.lt_succ_self rest.length

variable (needle replacement : Text)

@[simp] theorem replaceAll_nil : replaceAll needle replacement [] = [] := by
  rw [replaceAll]

theorem replaceAll_append (first : Char) (others rest : Text) :
    replaceAll (first :: others) replacement (first :: others ++ rest) =
      replacement ++ replaceAll (first :: others) replacement rest := by
  rw [List.cons_append, replaceAll, if_pos]
  · rw [List.length_cons, Nat.add_sub_cancel, List.drop_left]
  · rw [List.isPrefixOf_iff_prefix]
    exact List.prefix_append (first :: others) rest

theorem replaceAll_cons {needle : Text} {c : Char} {rest : Text} (h : ¬ needle <+: c :: rest) :
    replaceAll needle replacement (c :: rest) = c :: replaceAll needle replacement rest := by
  rw [replaceAll, if_neg]
  rwa [List.isPrefixOf_iff_prefix]

theorem replaceAll_cons_of_ne {first c : Char} (h : c ≠ first) (others rest : Text) :
    replaceAll (first :: others) replacement (c :: rest) =
      c :: replaceAll (first :: others) replacement rest :=
  replaceAll_cons replacement fun hprefix => h (List.cons_prefix_cons.mp hprefix).1.symm

theorem replaceAll_singleton (c : Char) (text : Text) :
    replaceAll [c] replacement text = text.flatMap fun d => if d = c then replacement else [d] := by
  induction text with
  | nil => simp
  | cons d text ih =>
    rw [List.flatMap_cons, ← ih]
    by_cases h : d = c
    · rw [if_pos h, h]
      exact replaceAll_append replacement c [] text
    · rw [if_neg h, replaceAll_cons_of_ne replacement h, List.singleton_append]

end Text

namespace Command

open Text (replaceAll replaceAll_nil replaceAll_append replaceAll_cons replaceAll_cons_of_ne
  replaceAll_singleton)

theorem escape_cons (c : Char) (argument : Text) :
    escape (c :: argument) =
      (if c = '"' ∨ c = '\\' then ['\\', c] else [c]) ++ escape argument := by
  rw [escape]
  split <;> rfl

theorem escape_eq_replaceAll (argument : Text) :
    escape argument = replaceAll ['"'] ['\\', '"'] (replaceAll ['\\'] ['\\', '\\'] argument) := by
  rw [replaceAll_singleton, replaceAll_singleton, List.flatMap_assoc]
  induction argument with
  | nil => rfl
  | cons c argument ih =>
    rw [escape_cons, List.flatMap_cons, ← ih]
    by_cases hquote : c = '"'
    · subst hquote
      rfl
    · by_cases hback : c = '\\'
      · subst hback
        rfl
      · simp [hquote, hback]

theorem head?_escape (argument : Text) : (escape argument).head? ≠ some '"' := by
  cases argument with
  | nil => simp [escape]
  | cons c argument =>
    rw [escape_cons]
    by_cases h : c = '"' ∨ c = '\\'
    · simp [h]
    · simp only [if_neg h, List.singleton_append, List.head?_cons, ne_eq, Option.some.injEq]
      exact (not_or.mp h).1

/-- A backslash that escapes a backslash is not taken for one that escapes a quote, because the
quote behind the pair has a backslash of its own. -/
theorem replaceAll_quote_escape (argument : Text) :
    replaceAll ['\\', '"'] ['"'] (escape argument) = replaceAll ['\\'] ['\\', '\\'] argument := by
  induction argument with
  | nil => simp [escape]
  | cons c argument ih =>
    rw [replaceAll_singleton] at ih ⊢
    rw [escape_cons, List.flatMap_cons, ← ih]
    by_cases hquote : c = '"'
    · subst hquote
      exact replaceAll_append ['"'] '\\' ['"'] (escape argument)
    · by_cases hback : c = '\\'
      · subst hback
        have hpair : ¬ ['\\', '"'] <+: '\\' :: '\\' :: escape argument := by
          simp [List.cons_prefix_cons]
        have hsecond : ¬ ['\\', '"'] <+: '\\' :: escape argument := by
          intro h
          obtain ⟨rest, hrest⟩ := (List.cons_prefix_cons.mp h).2
          exact head?_escape argument (by simp [← hrest])
        rw [if_pos (.inr rfl), if_pos rfl, List.cons_append, List.singleton_append,
          replaceAll_cons _ hpair, replaceAll_cons _ hsecond]
        rfl
      · rw [if_neg (not_or.mpr ⟨hquote, hback⟩), if_neg hback, List.singleton_append,
          replaceAll_cons_of_ne _ hback]
        rfl

theorem replaceAll_doubled (argument : Text) :
    replaceAll ['\\', '\\'] ['\\'] (replaceAll ['\\'] ['\\', '\\'] argument) = argument := by
  rw [replaceAll_singleton]
  induction argument with
  | nil => simp
  | cons c argument ih =>
    rw [List.flatMap_cons]
    by_cases hback : c = '\\'
    · subst hback
      rw [if_pos rfl, replaceAll_append, ih]
      rfl
    · rw [if_neg hback, List.singleton_append, replaceAll_cons_of_ne _ hback, ih]

theorem quote_cases (argument : Text) :
    (argument ≠ [] ∧ (∀ c ∈ argument, c ≠ ' ' ∧ c ≠ '"' ∧ c ≠ '\\') ∧ quote argument = argument) ∨
      quote argument = '"' :: escape argument ++ ['"'] := by
  by_cases h : argument = [] ∨ argument.any needsQuotes
  · exact .inr (if_pos h)
  · obtain ⟨hne, hplain⟩ := not_or.mp h
    refine .inl ⟨hne, fun c hc => ?_, if_neg h⟩
    simp only [List.any_eq_true, not_exists, not_and, Bool.not_eq_true] at hplain
    exact needsQuotes_eq_false (hplain c hc)

/-- A command string determines its arguments. Those that hold a space, a quote or a backslash, and
empty ones, stand between quotes; what is there came about by two replacements, and two replacements
undo it. -/
theorem render_determines_arguments :
    (∀ arguments, read (render arguments) = arguments) ∧ Function.Injective render ∧
      ∀ argument,
        (argument ≠ [] ∧ (∀ c ∈ argument, c ≠ ' ' ∧ c ≠ '"' ∧ c ≠ '\\') ∧
          quote argument = argument) ∨
        ∃ interior, quote argument = '"' :: interior ++ ['"'] ∧
          interior = replaceAll ['"'] ['\\', '"'] (replaceAll ['\\'] ['\\', '\\'] argument) ∧
          argument = replaceAll ['\\', '\\'] ['\\'] (replaceAll ['\\', '"'] ['"'] interior) := by
  refine ⟨read_render, Function.LeftInverse.injective read_render, fun argument => ?_⟩
  refine (quote_cases argument).imp_right fun hquote => ⟨escape argument, hquote, ?_, ?_⟩
  · exact escape_eq_replaceAll argument
  · rw [replaceAll_quote_escape, replaceAll_doubled]

end Command
end BuildLog
