import BuildLog.Path
import Mathlib.Data.List.Basic
import Mathlib.Data.List.Induction

/-! Where the components of a path lead, one after the other. The components above hold names and,
farthest from where the path has come to, climbs out of where a relative path starts. Reducing some
components first does not change where they lead, whatever stands in front of them. -/
namespace BuildLog.Path

variable {absolute : Bool} {above : List Text}

theorem enter_of_ne {component : Text} (h : component ≠ "..".toList) :
    enter absolute above component = component :: above := if_neg h

theorem enter_parent_of_ne {nearest : Text} (h : nearest ≠ "..".toList) :
    enter absolute (nearest :: above) "..".toList = above := by
  rw [enter, if_pos rfl]
  exact if_neg h

theorem enter_parent_parent :
    enter absolute ("..".toList :: above) "..".toList = "..".toList :: "..".toList :: above := rfl

/-- What the components above look like: names, the nearest first, and behind them the climbs that a
relative path starts with. -/
def Stacked (absolute : Bool) (above : List Text) : Prop :=
  ∃ names count, above = names ++ List.replicate count "..".toList ∧ "..".toList ∉ names ∧
    (absolute = true → count = 0)

theorem stacked_nil (absolute : Bool) : Stacked absolute [] :=
  ⟨[], 0, rfl, List.not_mem_nil, fun _ => rfl⟩

namespace Stacked

theorem enter (h : Stacked absolute above) (component : Text) :
    Stacked absolute (enter absolute above component) := by
  obtain ⟨names, count, rfl, hnames, hcount⟩ := h
  by_cases hparent : component = "..".toList
  · subst hparent
    cases names with
    | cons nearest names =>
      rw [List.mem_cons, not_or] at hnames
      rw [List.cons_append, enter_parent_of_ne (Ne.symm hnames.1)]
      exact ⟨names, count, rfl, hnames.2, hcount⟩
    | nil =>
      cases count with
      | zero =>
        cases absolute
        · exact ⟨[], 1, rfl, List.not_mem_nil, nofun⟩
        · exact stacked_nil true
      | succ count =>
        have hrelative : absolute ≠ true := fun h => Nat.succ_ne_zero count (hcount h)
        exact ⟨[], count + 2, rfl, List.not_mem_nil, fun h => absurd h hrelative⟩
  · rw [enter_of_ne hparent]
    have hfree := List.not_mem_cons_of_ne_of_not_mem (Ne.symm hparent) hnames
    exact ⟨component :: names, count, rfl, hfree, hcount⟩

theorem foldl_enter (h : Stacked absolute above) (parts : List Text) :
    Stacked absolute (parts.foldl (Path.enter absolute) above) := by
  induction parts generalizing above with
  | nil => exact h
  | cons part parts ih => exact ih (h.enter part)

end Stacked

theorem exists_climbs_reduce (absolute : Bool) (parts : List Text) :
    ∃ count names, reduce absolute parts = List.replicate count "..".toList ++ names ∧
      "..".toList ∉ names ∧ (absolute = true → count = 0) := by
  obtain ⟨names, count, hstack, hnames, hcount⟩ := (stacked_nil absolute).foldl_enter parts
  refine ⟨count, names.reverse, ?_, by simpa using hnames, hcount⟩
  rw [reduce, hstack, List.reverse_append, List.reverse_replicate]

/-- A climb can be taken back to the components that it was taken to, and these be entered again. At
the root it goes nowhere; then the components above must be at the root too. -/
theorem foldl_enter_reverse {inner : Bool}
    (h : inner = true → enter absolute above "..".toList = above) (stack : List Text)
    (component : Text) :
    (enter inner stack component).reverse.foldl (enter absolute) above =
      enter absolute (stack.reverse.foldl (enter absolute) above) component := by
  by_cases hparent : component = "..".toList
  · subst hparent
    cases stack with
    | nil =>
      cases inner
      · rfl
      · exact (h rfl).symm
    | cons nearest stack =>
      by_cases hnearest : nearest = "..".toList
      · rw [hnearest, enter_parent_parent, List.reverse_cons, List.foldl_concat]
      · rw [enter_parent_of_ne hnearest, List.reverse_cons, List.foldl_concat,
          enter_of_ne hnearest, enter_parent_of_ne hnearest]
  · rw [enter_of_ne hparent, List.reverse_cons, List.foldl_concat]

theorem foldl_enter_reduce {inner : Bool}
    (h : inner = true → enter absolute above "..".toList = above) (parts : List Text) :
    (reduce inner parts).foldl (enter absolute) above = parts.foldl (enter absolute) above := by
  induction parts using List.reverseRecOn with
  | nil => rfl
  | append_singleton parts part ih =>
    rw [reduce] at ih ⊢
    rw [List.foldl_concat, List.foldl_concat, foldl_enter_reverse h, ih]

theorem reduce_reduce_append (absolute : Bool) (parts more : List Text) :
    reduce absolute (reduce absolute parts ++ more) = reduce absolute (parts ++ more) := by
  have hroot : absolute = true → enter absolute [] "..".toList = [] := by
    intro h
    rw [h]
    rfl
  rw [reduce, List.foldl_append, foldl_enter_reduce hroot, ← List.foldl_append]
  rfl

theorem reduce_append_reduce (absolute : Bool) (parts more : List Text) :
    reduce absolute (parts ++ reduce false more) = reduce absolute (parts ++ more) := by
  have hrelative (above : List Text) :
      (reduce false more).foldl (enter absolute) above = more.foldl (enter absolute) above := by
    refine foldl_enter_reduce ?_ more
    nofun
  rw [reduce, List.foldl_append, hrelative, ← List.foldl_append]
  rfl

theorem reduce_of_climbs {count : Nat} {names : List Text} (hnames : "..".toList ∉ names)
    (hcount : absolute = true → count = 0) :
    reduce absolute (List.replicate count "..".toList ++ names) =
      List.replicate count "..".toList ++ names := by
  have hclimbs : (List.replicate count "..".toList).foldl (enter absolute) [] =
      List.replicate count "..".toList := by
    cases absolute with
    | true => rw [hcount rfl]; rfl
    | false =>
      induction count with
      | zero => rfl
      | succ count ih =>
        rw [List.replicate_succ', List.foldl_concat, ih nofun, ← List.replicate_succ']
        cases count <;> rfl
  have henter (above : List Text) :
      names.foldl (enter absolute) above = names.reverse ++ above := by
    induction names generalizing above with
    | nil => rfl
    | cons name names ih =>
      rw [List.mem_cons, not_or] at hnames
      rw [List.foldl_cons, enter_of_ne (Ne.symm hnames.1), ih hnames.2, List.reverse_cons,
        List.append_assoc, List.singleton_append]
  rw [reduce, List.foldl_append, hclimbs, henter, List.reverse_append, List.reverse_reverse,
    List.reverse_replicate]

end BuildLog.Path
