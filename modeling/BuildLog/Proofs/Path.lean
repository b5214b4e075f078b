import BuildLog.Path
import BuildLog.Proofs.Text.Pieces
import Mathlib.Tactic.SplitIfs

/-! What becomes of the text of a path: the name at its end, and the components that are left when
it is normalized. -/
namespace BuildLog.Path

variable {c : Char}

theorem exists_front_of_baseName (path : Text) : ∃ front, path = front ++ baseName path ∧
    (front = [] ∨ front.getLast? = some '/') := by
  unfold baseName
  by_cases h : '/' ∈ path
  · obtain ⟨before, name, rfl, hname⟩ := Text.exists_last_occurrence h
    refine ⟨before ++ ['/'], ?_, .inr (by simp)⟩
    rw [List.splitOn_append_cons_self, List.splitOn_eq_singleton hname, List.getLastD_concat,
      List.append_assoc, List.singleton_append]
  · exact ⟨[], by rw [List.splitOn_eq_singleton h]; rfl, .inl rfl⟩

theorem baseName_append {front name : Text} (hname : '/' ∉ name)
    (hfront : front = [] ∨ front.getLast? = some '/') : baseName (front ++ name) = name := by
  unfold baseName
  obtain rfl | hfront := hfront
  · rw [List.nil_append, List.splitOn_eq_singleton hname]
    rfl
  · obtain ⟨before, rfl⟩ := List.getLast?_eq_some_iff.mp hfront
    rw [List.append_assoc, List.singleton_append, List.splitOn_append_cons_self,
      List.splitOn_eq_singleton hname, List.getLastD_concat]

theorem enter_subset (absolute : Bool) (above : List Text) (component : Text) :
    enter absolute above component ⊆ component :: above := by
  unfold enter
  split
  · split
    · split
      · exact List.nil_subset _
      · exact List.Subset.refl _
    · split
      · exact List.Subset.refl _
      · exact fun _ h => List.mem_cons_of_mem _ (List.mem_cons_of_mem _ h)
  · exact List.Subset.refl _

theorem reduce_subset (absolute : Bool) (parts : List Text) : reduce absolute parts ⊆ parts := by
  have hfold (above : List Text) : parts.foldl (enter absolute) above ⊆ parts ++ above := by
    induction parts generalizing above with
    | nil => exact List.Subset.refl _
    | cons part parts ih =>
      intro component h
      rcases List.mem_append.mp (ih _ h) with h | h
      · exact List.mem_append_left _ (List.mem_cons_of_mem _ h)
      · rcases List.mem_cons.mp (enter_subset absolute above part h) with rfl | h
        · exact List.mem_append_left _ List.mem_cons_self
        · exact List.mem_append_right _ h
  intro component h
  simpa using hfold [] (List.mem_reverse.mp h)

/-- What a path is joined of when nothing in it can be left out, a climb included. -/
structure IsComponent (part : Text) : Prop where
  ne_nil : part ≠ []
  ne_dot : part ≠ ".".toList
  slash_not_mem : '/' ∉ part

theorem isComponent_of_mem_components {path part : Text} (h : part ∈ components path) :
    IsComponent part := by
  obtain ⟨hpiece, hnamed⟩ := List.mem_filter.mp h
  obtain ⟨hne, hdot⟩ := of_decide_eq_true hnamed
  exact ⟨hne, hdot, Text.not_mem_of_mem_splitOn hpiece⟩

theorem isComponent_of_mem_reduce {absolute : Bool} {path part : Text}
    (h : part ∈ reduce absolute (components path)) : IsComponent part :=
  isComponent_of_mem_components (reduce_subset _ _ h)

theorem mem_of_mem_normalize {path : Text} (h : c ∈ normalize path) :
    c ∈ path ∨ c = '/' ∨ c = '.' := by
  have hjoin {absolute : Bool} (h : c ∈ Text.join ['/'] (reduce absolute (components path))) :
      c ∈ path ∨ c = '/' ∨ c = '.' := by
    obtain h | ⟨piece, hpiece, h⟩ := Text.exists_of_mem_join h
    · exact .inr (.inl (List.mem_singleton.mp h))
    · have hpiece := (List.mem_filter.mp (reduce_subset _ _ hpiece)).1
      exact .inl (Text.mem_of_mem_piece h hpiece)
  unfold normalize at h
  dsimp only at h
  split_ifs at h with hempty habsolute hnone
  · cases h
  · rcases List.mem_cons.mp h with h | h
    · exact .inr (.inl h)
    · exact hjoin h
  · exact .inr (.inr (List.mem_singleton.mp h))
  · exact hjoin h

theorem normalize_ne_nil {path : Text} (h : path ≠ []) : normalize path ≠ [] := by
  unfold normalize
  dsimp only
  rw [if_neg h]
  split_ifs with habsolute hnone
  · exact List.cons_ne_nil _ _
  · exact List.cons_ne_nil _ _
  · obtain ⟨part, hpart⟩ := List.exists_mem_of_ne_nil _ hnone
    exact Text.join_ne_nil hpart (isComponent_of_mem_reduce hpart).ne_nil

theorem normalize_eq_nil_iff {path : Text} : normalize path = [] ↔ path = [] :=
  ⟨fun h => by_contra fun hne => normalize_ne_nil hne h, fun h => h ▸ normalize_nil⟩

end BuildLog.Path
