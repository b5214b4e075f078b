import BuildLog.Proofs.Command.Escaping
import BuildLog.Proofs.Command.Quoting

/-! Lines without escapes that are taken apart, written of their arguments with one space between
each two, and taken apart again. Nothing is lost by that but the blanks around the arguments: a
written line begins and ends with an argument that holds something, so no space of it is stripped
off, and each of the others separates the same two arguments as before. -/
namespace BuildLog.Command

variable {line : Text}

/-- What the arguments of a line without escapes are like. An argument may be empty, but neither the
first one nor the last one is. -/
structure IsSettled (arguments : List Text) : Prop where
  any_isQuoting : ∀ argument ∈ arguments, argument.any isQuoting = false
  strip_eq : ∀ argument ∈ arguments, Text.strip argument = argument
  space_not_mem : ∀ argument ∈ arguments, ' ' ∉ argument
  first_ne_nil : ∀ argument ∈ arguments.head?, argument ≠ []
  last_ne_nil : ∀ argument ∈ arguments.getLast?, argument ≠ []

theorem any_isQuoting_eq_false_iff :
    line.any isQuoting = false ↔ '\'' ∉ line ∧ '"' ∉ line ∧ '\\' ∉ line := by
  simp only [List.any_eq_false, isQuoting, Bool.or_eq_true, beq_iff_eq, not_or]
  constructor
  · intro h
    exact ⟨fun hc => (h _ hc).1.1 rfl, fun hc => (h _ hc).1.2 rfl, fun hc => (h _ hc).2 rfl⟩
  · rintro ⟨hsingle, hdouble, hback⟩ c hc
    exact ⟨⟨ne_of_mem_of_not_mem hc hsingle, ne_of_mem_of_not_mem hc hdouble⟩,
      ne_of_mem_of_not_mem hc hback⟩

theorem any_isQuoting_of_subset {part : Text} (hplain : line.any isQuoting = false)
    (h : part ⊆ line) : part.any isQuoting = false := by
  rw [List.any_eq_false] at hplain ⊢
  exact fun c hc => hplain c (h hc)

theorem isSettled_nil : IsSettled [] :=
  ⟨by simp, by simp, by simp, by simp, by simp⟩

theorem isSettled_arguments (hplain : line.any isQuoting = false) : IsSettled (arguments line) := by
  unfold arguments plainArguments
  rw [if_neg (Bool.eq_false_iff.mp hplain)]
  dsimp only
  split
  · exact isSettled_nil
  next hbody =>
    -- the body begins and ends in what is no blank, and so do its first and its last piece
    have htight : Text.Tight (Text.strip line) := .strip hbody
    have hpart {piece : Text} (hpiece : piece ∈ (Text.strip line).splitOn ' ') :
        Text.strip piece ⊆ line := fun _ hc =>
      Text.mem_of_mem_strip (Text.mem_of_mem_piece (Text.mem_of_mem_strip hc) hpiece)
    have hkept {piece : Text} {ends : Option Text} {c : Char} (hends : ends = some piece)
        (hc : c ∈ piece) (hblank : Text.isBlank c = false) :
        ∀ argument ∈ ends.map Text.strip, argument ≠ [] := by
      intro argument hargument
      rw [hends, Option.map_some, Option.mem_some_iff] at hargument
      exact hargument ▸ Text.strip_ne_nil hc hblank
    refine ⟨?_, ?_, ?_, ?_, ?_⟩
    · intro argument hargument
      obtain ⟨piece, hpiece, rfl⟩ := List.mem_map.mp hargument
      exact any_isQuoting_of_subset hplain (hpart hpiece)
    · intro argument hargument
      obtain ⟨piece, -, rfl⟩ := List.mem_map.mp hargument
      exact Text.strip_strip piece
    · intro argument hargument hspace
      obtain ⟨piece, hpiece, rfl⟩ := List.mem_map.mp hargument
      exact Text.not_mem_of_mem_splitOn hpiece (Text.mem_of_mem_strip hspace)
    · obtain ⟨c, hc, hblank⟩ := htight.head
      obtain ⟨piece, hpiece, hmem⟩ :=
        Text.exists_first_piece hc (Text.ne_space_of_isBlank_eq_false hblank)
      rw [List.head?_map]
      exact hkept hpiece hmem hblank
    · obtain ⟨c, hc, hblank⟩ := htight.last
      obtain ⟨piece, hpiece, hmem⟩ :=
        Text.exists_final_piece hc (Text.ne_space_of_isBlank_eq_false hblank)
      rw [List.getLast?_map]
      exact hkept hpiece hmem hblank

namespace IsSettled

variable {found : List Text}

theorem tight_of_mem (h : IsSettled found) {argument : Text} (hmem : argument ∈ found)
    (hne : argument ≠ []) : Text.Tight argument :=
  .of_strip_eq hne (h.strip_eq argument hmem)

theorem any_isQuoting_join (h : IsSettled found) :
    (Text.join [' '] found).any isQuoting = false := by
  rw [List.any_eq_false]
  intro c hc
  obtain hc | ⟨argument, hargument, hc⟩ := Text.exists_of_mem_join hc
  · rw [List.mem_singleton.mp hc]
    decide
  · exact List.any_eq_false.mp (h.any_isQuoting argument hargument) c hc

theorem arguments_join (h : IsSettled found) : arguments (Text.join [' '] found) = found := by
  unfold arguments
  rw [if_neg (Bool.eq_false_iff.mp h.any_isQuoting_join)]
  by_cases hne : found = []
  · rw [hne]
    rfl
  have hfirst := List.head?_eq_some_head hne
  have hlast := List.getLast?_eq_some_getLast hne
  have htight : Text.Tight (Text.join [' '] found) :=
    .join_of_ends hfirst hlast
      (h.tight_of_mem (List.head_mem hne) (h.first_ne_nil _ hfirst))
      (h.tight_of_mem (List.getLast_mem hne) (h.last_ne_nil _ hlast)) [' ']
  exact plainArguments_join htight h.space_not_mem h.strip_eq

theorem render_eq (h : IsSettled found) (hempty : [] ∉ found) :
    render found = Text.join [' '] found := by
  have hquote : ∀ argument ∈ found, quote argument = argument := by
    intro argument hargument
    refine quote_of_plain (ne_of_mem_of_not_mem hargument hempty) fun c hc => ?_
    obtain ⟨-, hdouble, hback⟩ := any_isQuoting_eq_false_iff.mp (h.any_isQuoting argument hargument)
    simp only [needsQuotes, Bool.or_eq_false_iff, beq_eq_false_iff_ne]
    exact ⟨⟨ne_of_mem_of_not_mem hc (h.space_not_mem argument hargument),
      ne_of_mem_of_not_mem hc hdouble⟩, ne_of_mem_of_not_mem hc hback⟩
  unfold render
  rw [List.map_congr_left hquote, List.map_id']

end IsSettled

/-- A line without escapes that is written anew of its arguments has the same arguments, the empty
ones among them. If none is empty, none is quoted either, and the command string that the line
becomes is its own command string. -/
theorem arguments_join_arguments (hsingle : '\'' ∉ line) (hdouble : '"' ∉ line)
    (hback : '\\' ∉ line) :
    arguments (Text.join [' '] (arguments line)) = arguments line ∧
      (∀ argument ∈ arguments line, Text.strip argument = argument ∧ ' ' ∉ argument) ∧
      (∀ hne : arguments line ≠ [],
        (arguments line).head hne ≠ [] ∧ (arguments line).getLast hne ≠ []) ∧
      ([] ∉ arguments line → requote (requote line) = requote line) := by
  have hsettled : IsSettled (arguments line) :=
    isSettled_arguments (any_isQuoting_eq_false_iff.mpr ⟨hsingle, hdouble, hback⟩)
  refine ⟨hsettled.arguments_join, ?_, ?_, ?_⟩
  · intro argument hargument
    exact ⟨hsettled.strip_eq argument hargument, hsettled.space_not_mem argument hargument⟩
  · intro hne
    exact ⟨hsettled.first_ne_nil _ (List.head?_eq_some_head hne),
      hsettled.last_ne_nil _ (List.getLast?_eq_some_getLast hne)⟩
  · intro hempty
    have hline : requote line = Text.join [' '] (arguments line) := hsettled.render_eq hempty
    calc requote (requote line)
        = render (arguments (Text.join [' '] (arguments line))) := by rw [hline, requote]
      _ = render (arguments line) := by rw [hsettled.arguments_join]
      _ = requote line := rfl

theorem arguments_join_arguments_of_blanks :
    let line := "\u3000 a\tb \t \u00a0c\u2028  d\u0085".toList
    let full := " clang -c\u2003 a\tb.m \u001f".toList
    arguments line = ["a\tb", "", "c", "", "d"].map String.toList ∧
      arguments "a\tb  c  d".toList = arguments line ∧
      requote full = "clang -c a\tb.m".toList ∧ requote (requote full) = requote full := by
  intro line full
  have hfound : arguments line = ["a\tb", "", "c", "", "d"].map String.toList := by decide
  obtain ⟨hagain, -⟩ := arguments_join_arguments (by decide : '\'' ∉ line)
    (by decide : '"' ∉ line) (by decide : '\\' ∉ line)
  obtain ⟨-, -, -, hrequote⟩ := arguments_join_arguments (by decide : '\'' ∉ full)
    (by decide : '"' ∉ full) (by decide : '\\' ∉ full)
  have hjoin : Text.join [' '] (arguments line) = "a\tb  c  d".toList := by
    rw [hfound]
    decide
  exact ⟨hfound, hjoin ▸ hagain, by decide, hrequote (by decide)⟩

end BuildLog.Command
