import BuildLog.Proofs.Command.Escaping
import BuildLog.Proofs.Command.Words

/-! The two ways of taking a line apart, side by side. One strips the line, cuts it, and keeps what
is empty; the other cuts the line as it is, leaves empty pieces out, and strips the others, which
may make some of them empty. A line that escapes no space and holds no mark has the same words on
both. -/
namespace BuildLog.Command

open Text (strip)

variable {line : Text}

theorem markSpaces_eq_self (h : ¬ ['\\', ' '] <:+: line) : markSpaces line = line := by
  induction line with
  | nil => rfl
  | cons c line ih =>
    have hrest : ¬ ['\\', ' '] <:+: line := fun hline => h (List.infix_cons hline)
    rw [markSpaces_cons, ih hrest]
    rintro rfl hspace
    obtain ⟨rest, rfl⟩ := List.head?_eq_some_iff.mp hspace
    exact h (List.prefix_append ['\\', ' '] rest).isInfix

theorem unmarkSpaces_eq_self (h : spaceMark ∉ line) : unmarkSpaces line = line := by
  refine (List.map_congr_left fun c hc => ?_).trans (List.map_id line)
  rw [if_neg (ne_of_mem_of_not_mem hc h), id]

theorem filter_map_filter {change : Text → Text} (h : change [] = []) (pieces : List Text) :
    ((pieces.filter (· ≠ [])).map change).filter (· ≠ []) =
      (pieces.map change).filter (· ≠ []) := by
  rw [List.filter_map, List.filter_filter, List.filter_map]
  refine congrArg (List.map change) (List.filter_congr fun piece _ => ?_)
  by_cases hpiece : piece = [] <;> simp [hpiece, h]

theorem filter_escapedArguments (hescape : ¬ ['\\', ' '] <:+: line) (hmark : spaceMark ∉ line) :
    (escapedArguments line).filter (· ≠ []) = words line := by
  unfold escapedArguments words
  rw [filter_map_filter rfl, markSpaces_eq_self hescape]
  congr 1
  refine List.map_congr_left fun piece hpiece => ?_
  rw [unmarkSpaces_eq_self]
  exact fun hmem => hmark (Text.mem_of_mem_piece hmem hpiece)

theorem filter_arguments (hescape : ¬ ['\\', ' '] <:+: line) (hmark : spaceMark ∉ line) :
    (arguments line).filter (· ≠ []) = words line := by
  unfold arguments
  split
  · exact filter_escapedArguments hescape hmark
  · exact filter_plainArguments line

/-- A quote behind a line without quotes and backslashes has it taken apart the other way. That
shows in its empty arguments alone: the others stay, in their order, with the quote behind them. -/
theorem arguments_append_quote (hsingle : '\'' ∉ line) (hdouble : '"' ∉ line) (hback : '\\' ∉ line)
    (hmark : spaceMark ∉ line) :
    arguments line = plainArguments line ∧
    arguments (line ++ " '".toList) = escapedArguments (line ++ " '".toList) ∧
    (arguments (line ++ " '".toList)).filter (· ≠ []) =
      (arguments line).filter (· ≠ []) ++ ["'".toList] := by
  have hplain : line.any isQuoting = false := by
    rw [List.any_eq_false]
    intro c hc
    simp only [isQuoting, Bool.or_eq_true, beq_iff_eq, not_or]
    exact ⟨⟨ne_of_mem_of_not_mem hc hsingle, ne_of_mem_of_not_mem hc hdouble⟩,
      ne_of_mem_of_not_mem hc hback⟩
  have hquoting : (line ++ " '".toList).any isQuoting = true := by
    rw [List.any_append, hplain]
    rfl
  have hquote {c : Char} (hline : c ∉ line) (hc : c ∉ " '".toList) : c ∉ line ++ " '".toList :=
    fun hmem => (List.mem_append.mp hmem).elim hline hc
  have hescape {text : Text} (h : '\\' ∉ text) : ¬ ['\\', ' '] <:+: text :=
    fun hpair => h (hpair.subset List.mem_cons_self)
  refine ⟨if_neg (Bool.eq_false_iff.mp hplain), if_pos hquoting, ?_⟩
  calc (arguments (line ++ " '".toList)).filter (· ≠ [])
      = words (line ++ " '".toList) :=
        filter_arguments (hescape (hquote hback (by decide))) (hquote hmark (by decide))
    _ = words line ++ words "'".toList := words_append_space line _
    _ = (arguments line).filter (· ≠ []) ++ ["'".toList] := by
      rw [filter_arguments (hescape hback) hmark]
      rfl

theorem arguments_append_quote_of_blanks :
    let line := " \t a\tb  \u3000 c\u00a0 \u2028".toList
    arguments line = ["a\tb", "", "", "c"].map String.toList ∧
      arguments (line ++ " '".toList) = ["", "a\tb", "", "c", "", "'"].map String.toList ∧
      (arguments (line ++ " '".toList)).filter (· ≠ []) =
        (arguments line).filter (· ≠ []) ++ ["'".toList] := by
  intro line
  have hagree := arguments_append_quote (by decide : '\'' ∉ line) (by decide : '"' ∉ line)
    (by decide : '\\' ∉ line) (by decide : spaceMark ∉ line)
  exact ⟨by decide, by decide, hagree.2.2⟩

end BuildLog.Command
