import BuildLog.Command.Line
import BuildLog.Proofs.Text.Tight
import Mathlib.Data.List.Chain

/-! The words of a line: what is left of the pieces between its spaces once blanks are stripped off
and empty pieces are left out. They are the arguments of a line without escapes that hold anything,
and all of them if no blanks stand next to each other in the line. Unlike the arguments they can be
told for the parts of a line on their own. -/
namespace BuildLog

namespace Text

theorem strip_concat_of_isBlank {c : Char} (h : isBlank c = true) (text : Text) :
    strip (text ++ [c]) = strip text := by
  unfold strip
  rw [List.dropWhile_append]
  split
  next hblank =>
    rw [List.isEmpty_iff] at hblank
    rw [hblank, List.dropWhile_cons_of_pos h]
    rfl
  next => exact List.rdropWhile_concat_pos _ _ _ h

theorem strip_append_of_tight {last : Text} (h : Tight last) (text : Text) :
    strip (text ++ last) = text.dropWhile isBlank ++ last := by
  obtain ⟨c, hc, hfirst⟩ := h.head
  obtain ⟨d, hd, hlast⟩ := h.last
  obtain ⟨before, rfl⟩ := List.getLast?_eq_some_iff.mp hd
  have hdrop : (text ++ (before ++ [d])).dropWhile isBlank =
      text.dropWhile isBlank ++ (before ++ [d]) := by
    rw [List.dropWhile_append]
    split
    next hblank =>
      rw [List.isEmpty_iff] at hblank
      obtain ⟨tail, htail⟩ := List.head?_eq_some_iff.mp hc
      rw [hblank, htail, List.dropWhile_cons_of_neg (by simp [hfirst]), List.nil_append]
    next => rfl
  rw [strip, hdrop, ← List.append_assoc]
  exact List.rdropWhile_concat_neg _ _ _ (by simp [hlast])

/-- No two blanks of the text stand next to each other. -/
def SinglySpaced (text : Text) : Prop :=
  text.IsChain fun first second => isBlank first = false ∨ isBlank second = false

instance : DecidablePred SinglySpaced := fun text =>
  inferInstanceAs (Decidable (text.IsChain fun _ _ => _))

namespace SinglySpaced

variable {text : Text}

theorem of_isInfix (h : SinglySpaced text) {part : Text} (hpart : part <:+: text) :
    SinglySpaced part :=
  List.IsChain.infix h hpart

theorem not_pair_isInfix (h : SinglySpaced text) {first second : Char}
    (hfirst : isBlank first = true) (hsecond : isBlank second = true) :
    ¬ [first, second] <:+: text := by
  intro hinfix
  have hpair := List.isChain_pair.mp (h.of_isInfix hinfix)
  simp [hfirst, hsecond] at hpair

theorem between_spaces (h : SinglySpaced text) (htight : Tight text) :
    SinglySpaced ([' '] ++ text ++ [' ']) := by
  obtain ⟨c, hc, hfirst⟩ := htight.head
  obtain ⟨d, hd, hlast⟩ := htight.last
  refine List.IsChain.append (List.IsChain.append (.singleton ' ') h ?_) (.singleton ' ') ?_
  · rintro _ - second hsecond
    rw [hc, Option.mem_some_iff] at hsecond
    exact .inr (hsecond ▸ hfirst)
  · rintro first hlast' _ -
    rw [List.getLast?_append_of_ne_nil _ htight.ne_nil, hd, Option.mem_some_iff] at hlast'
    exact .inl (hlast' ▸ hlast)

theorem strip_piece_ne_nil (h : SinglySpaced text) (htight : Tight text) {piece : Text}
    (hpiece : piece ∈ text.splitOn ' ') : strip piece ≠ [] := by
  have hspaced : SinglySpaced ([' '] ++ piece ++ [' ']) := by
    have hinfix : [' '] ++ piece ++ [' '] <:+: [' '] ++ join [' '] (text.splitOn ' ') ++ [' '] :=
      infix_join_between hpiece
    rw [join_splitOn] at hinfix
    exact (h.between_spaces htight).of_isInfix hinfix
  cases piece with
  | nil => exact absurd (List.infix_refl _) (hspaced.not_pair_isInfix isBlank_space isBlank_space)
  | cons c rest =>
    have hc : isBlank c = false := by
      refine Bool.eq_false_iff.mpr fun hblank => ?_
      exact hspaced.not_pair_isInfix isBlank_space hblank (List.prefix_append [' ', c] _).isInfix
    exact strip_ne_nil List.mem_cons_self hc

end SinglySpaced

end Text

namespace Command

open Text (isBlank strip)

def words (line : Text) : List Text := ((line.splitOn ' ').map strip).filter (· ≠ [])

variable {c : Char} {line : Text}

@[simp] theorem words_nil : words [] = [] := rfl

theorem words_append_space (line more : Text) : words (line ++ ' ' :: more) =
    words line ++ words more := by
  unfold words
  rw [List.splitOn_append_cons_self, List.map_append, List.filter_append]

theorem words_of_not_mem (h : ' ' ∉ line) : words line = [strip line].filter (· ≠ []) := by
  unfold words
  rw [List.splitOn_eq_singleton h, List.map_singleton]

theorem words_cons_of_isBlank (h : isBlank c = true) (line : Text) :
    words (c :: line) = words line := by
  unfold words
  by_cases hc : c = ' '
  · rw [hc, Text.splitOn_cons_self]
    rfl
  · obtain ⟨first, others, hrest, hcons⟩ := Text.exists_splitOn_cons hc line
    rw [hrest, hcons, List.map_cons, List.map_cons, Text.strip_cons_of_isBlank h]

theorem exists_last_piece (line : Text) : ∃ others last, last <:+ line ∧ ' ' ∉ last ∧
    ∀ more, words (line ++ more) = others ++ words (last ++ more) := by
  by_cases h : ' ' ∈ line
  · obtain ⟨before, piece, rfl, hpiece⟩ := Text.exists_last_occurrence h
    refine ⟨words before, piece, (List.suffix_cons _ _).trans (List.suffix_append _ _), hpiece, ?_⟩
    intro more
    rw [List.append_assoc, List.cons_append, words_append_space]
  · exact ⟨[], line, List.suffix_refl line, h, fun _ => rfl⟩

theorem words_concat_of_isBlank (h : isBlank c = true) (line : Text) :
    words (line ++ [c]) = words line := by
  obtain ⟨others, last, -, hlast, hwords⟩ := exists_last_piece line
  have hend : words (last ++ [c]) = words last := by
    by_cases hc : c = ' '
    · rw [hc, words_append_space, words_nil, List.append_nil]
    · have hfree : ' ' ∉ last ++ [c] := by
        simpa [hlast] using Ne.symm hc
      rw [words_of_not_mem hfree, words_of_not_mem hlast, Text.strip_concat_of_isBlank h]
  have hline := hwords []
  rw [List.append_nil, List.append_nil] at hline
  rw [hwords, hend, hline]

theorem words_dropWhile_isBlank (line : Text) : words (line.dropWhile isBlank) = words line := by
  induction line with
  | nil => rfl
  | cons c line ih =>
    by_cases h : isBlank c = true
    · rw [List.dropWhile_cons_of_pos h, ih, words_cons_of_isBlank h]
    · rw [List.dropWhile_cons_of_neg h]

theorem words_rdropWhile_isBlank (line : Text) : words (line.rdropWhile isBlank) = words line := by
  induction line using List.reverseRecOn with
  | nil => rfl
  | append_singleton line c ih =>
    by_cases h : isBlank c = true
    · rw [List.rdropWhile_concat_pos _ _ _ h, ih, words_concat_of_isBlank h]
    · rw [List.rdropWhile_concat_neg _ _ _ h]

theorem words_strip (line : Text) : words (strip line) = words line := by
  rw [strip, Text.dropTrailing_eq_rdropWhile, words_rdropWhile_isBlank, words_dropWhile_isBlank]

theorem filter_plainArguments (line : Text) :
    (plainArguments line).filter (· ≠ []) = words line := by
  rw [← words_strip]
  unfold plainArguments words
  dsimp only
  split
  next h => rw [h]; rfl
  next => rfl

theorem words_ne_nil (hc : c ∈ line) (h : isBlank c = false) : words line ≠ [] := by
  obtain ⟨piece, hpiece, hmem⟩ := Text.exists_piece hc (Text.ne_space_of_isBlank_eq_false h)
  refine List.ne_nil_of_mem (List.mem_filter.mpr ⟨List.mem_map_of_mem hpiece, ?_⟩)
  exact decide_eq_true (Text.strip_ne_nil hmem h)

theorem ne_nil_of_mem_words {word : Text} (h : word ∈ words line) : word ≠ [] :=
  of_decide_eq_true (List.mem_filter.mp h).2

/-- The arguments of a line without escapes are its words, unless blanks stand next to each other.
-/
theorem arguments_eq_words (hplain : line.any isQuoting = false) (h : Text.SinglySpaced line) :
    arguments line = words line := by
  unfold arguments
  rw [if_neg (Bool.eq_false_iff.mp hplain), ← filter_plainArguments, eq_comm, List.filter_eq_self]
  intro argument hargument
  unfold plainArguments at hargument
  dsimp only at hargument
  split at hargument
  · cases hargument
  next hbody =>
    obtain ⟨piece, hpiece, rfl⟩ := List.mem_map.mp hargument
    have hspaced : Text.SinglySpaced (strip line) := h.of_isInfix (Text.isInfix_strip line)
    exact decide_eq_true (hspaced.strip_piece_ne_nil (.strip hbody) hpiece)

theorem mem_arguments_of_mem_words {word : Text} (hplain : line.any isQuoting = false)
    (h : word ∈ words line) : word ∈ arguments line := by
  rw [← filter_plainArguments] at h
  unfold arguments
  rw [if_neg (by simp [hplain])]
  exact (List.mem_filter.mp h).1

end Command
end BuildLog
