import BuildLog.Proofs.Command.Escaping

/-! A line with escapes is taken apart by marking the spaces that stay, cutting at the others, and
putting the spaces back. One pass from left to right comes to the same: it holds the characters of
the fragment it is in, and each character of the line adds one of them or ends the fragment. -/
namespace BuildLog.Command

/-- The arguments that a fragment gives at its end. Nothing comes of a fragment without characters,
but an empty argument of one that holds only blanks. -/
def closeFragment (fragment : Text) : List Text :=
  if fragment = [] then [] else [Text.strip fragment]

def readFragments (fragment : Text) : Text → List Text
  | [] => closeFragment fragment
  | '\\' :: ' ' :: rest => readFragments (fragment ++ [' ']) rest
  | c :: rest =>
    if c = spaceMark then readFragments (fragment ++ [' ']) rest
    else if c = ' ' then closeFragment fragment ++ readFragments [] rest
    else readFragments (fragment ++ [c]) rest

def markedArguments (marked : Text) : List Text :=
  ((marked.splitOn ' ').filter (· ≠ [])).map fun piece => Text.strip (unmarkSpaces piece)

theorem markedArguments_of_not_mem {piece : Text} (h : ' ' ∉ piece) :
    markedArguments piece = closeFragment (unmarkSpaces piece) := by
  unfold markedArguments closeFragment
  rw [List.splitOn_eq_singleton h]
  by_cases hpiece : piece = [] <;> simp [hpiece, unmarkSpaces]

theorem markedArguments_append_space {piece : Text} (h : ' ' ∉ piece) (rest : Text) :
    markedArguments (piece ++ ' ' :: rest) =
      closeFragment (unmarkSpaces piece) ++ markedArguments rest := by
  rw [← markedArguments_of_not_mem h]
  unfold markedArguments
  rw [List.splitOn_append_cons_self, List.filter_append, List.map_append]

/-- The fragment holds what stands behind the last space that was cut at, with its marks undone:
this carries the induction over the line. -/
theorem readFragments_unmarkSpaces {piece : Text} (h : ' ' ∉ piece) (line : Text) :
    readFragments (unmarkSpaces piece) line = markedArguments (piece ++ markSpaces line) := by
  have hunmark (piece : Text) (c : Char) : unmarkSpaces (piece ++ [c]) =
      unmarkSpaces piece ++ [if c = spaceMark then ' ' else c] := List.map_append
  have hmark : ' ' ≠ spaceMark := by decide
  fun_induction markSpaces line generalizing piece with
  | case1 => rw [readFragments, List.append_nil, markedArguments_of_not_mem h]
  | case2 rest ih =>
    have hnext := @ih (piece ++ [spaceMark]) (by simp [h, hmark])
    rwa [hunmark, if_pos rfl, List.append_assoc] at hnext
  | case3 c rest hescape ih =>
    have hstep : readFragments (unmarkSpaces piece) (c :: rest) =
        if c = spaceMark then readFragments (unmarkSpaces piece ++ [' ']) rest
        else if c = ' ' then closeFragment (unmarkSpaces piece) ++ readFragments [] rest
        else readFragments (unmarkSpaces piece ++ [c]) rest := by
      rw [readFragments]
      exact hescape
    rw [hstep]
    by_cases hspace : c = ' '
    · subst hspace
      rw [if_neg hmark, if_pos rfl, markedArguments_append_space h]
      exact congrArg _ (ih List.not_mem_nil)
    · have hnext := @ih (piece ++ [c]) (by simp [h, Ne.symm hspace])
      rw [hunmark, List.append_assoc, List.singleton_append] at hnext
      rw [← hnext, if_neg hspace]
      split <;> rfl

/-- A line that holds a quote or a backslash is taken apart by one pass. -/
theorem arguments_eq_readFragments {line : Text} (h : '\'' ∈ line ∨ '"' ∈ line ∨ '\\' ∈ line) :
    arguments line = readFragments [] line := by
  have hquoting : line.any isQuoting = true := by
    rw [List.any_eq_true]
    obtain h | h | h := h <;> exact ⟨_, h, rfl⟩
  unfold arguments
  rw [if_pos hquoting]
  exact (readFragments_unmarkSpaces List.not_mem_nil line).symm

theorem arguments_eq_readFragments_of_blanks :
    let line := "a\\\\ b  \\ \\  \t \ue000' c\\".toList
    ('\'' ∈ line ∨ '"' ∈ line ∨ '\\' ∈ line) ∧ arguments line = readFragments [] line ∧
      readFragments [] line = ["a\\ b", "", "", "'", "c\\"].map String.toList := by
  intro line
  have h : '\'' ∈ line ∨ '"' ∈ line ∨ '\\' ∈ line := by decide
  exact ⟨h, arguments_eq_readFragments h, by decide⟩

end BuildLog.Command
