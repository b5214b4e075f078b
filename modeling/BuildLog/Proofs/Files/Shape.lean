import BuildLog.Machine
import BuildLog.Proofs.Attempt
import Mathlib.Tactic.Common

/-! Where a path leads hangs on which locations hold directories and files, not on what the files
hold. Two trees of one shape lead every path to one place, and to write into a file keeps the
shape. -/
namespace BuildLog

namespace Files

def Node.isDirectory : Node → Bool
  | .directory => true
  | .file _ => false

namespace Tree

/-- Whether there is a directory or a file at a location, if anything is there. -/
def shape (tree : Tree) (location : Location) : Option Bool :=
  (tree.get? location).map Node.isDirectory

theorem get?_insert (tree : Tree) (location : Location) (node : Node) (other : Location) :
    (tree.insert location node).get? other =
      if other = [] then some .directory
      else if location = other then some node else tree.get? other := by
  unfold get? insert
  by_cases hroot : other = []
  · simp [hroot]
  · by_cases h : location = other
    · simp [hroot, h]
    · simp only [hroot, h, if_false, List.find?_cons, decide_false]
      rw [List.find?_filter]
      congr 2
      funext entry
      by_cases hentry : entry.1 = other <;> simp [hentry, Ne.symm h]

theorem contentAt_insert (tree : Tree) {location : Location} (h : location ≠ [])
    (content : List UInt8) :
    (tree.insert location (.file content)).contentAt location = content := by
  unfold contentAt
  rw [get?_insert, if_neg h, if_pos rfl]

theorem contentAt_insert_of_ne (tree : Tree) {location other : Location} (h : location ≠ other)
    (node : Node) : (tree.insert location node).contentAt other = tree.contentAt other := by
  unfold contentAt
  rw [get?_insert, if_neg h]
  by_cases hroot : other = []
  · simp [hroot, get?]
  · rw [if_neg hroot]

theorem shape_insert_file {tree : Tree} {location : Location}
    (h : tree.shape location = some false) (content : List UInt8) :
    (tree.insert location (.file content)).shape = tree.shape := by
  funext other
  unfold shape
  rw [get?_insert]
  by_cases hroot : other = []
  · simp [hroot, get?]
  · by_cases hsame : location = other
    · rw [if_neg hroot, if_pos hsame, ← hsame]
      exact h.symm
    · rw [if_neg hroot, if_neg hsame]

theorem shape_of_locateFile {tree : Tree} {workingDirectory location : Location} {path : Text}
    (h : tree.locateFile workingDirectory path = .ok location) :
    tree.shape location = some false := by
  unfold locateFile at h
  obtain ⟨found, -, h⟩ := exists_of_bind_eq_ok h
  split at h
  next content hget =>
    cases h
    simp [shape, hget, Node.isDirectory]
  next => cases h
  next => cases h

theorem ne_nil_of_not_directory {tree : Tree} {location : Location}
    (h : ¬ tree.get? location = some .directory) : location ≠ [] := by
  rintro rfl
  exact h rfl

theorem locateTarget_ne_nil {tree : Tree} {workingDirectory location : Location} {path : Text}
    (h : tree.locateTarget workingDirectory path = .ok location) : location ≠ [] := by
  -- the file is either one that is there, or its own name is the last of the location
  unfold locateTarget at h
  obtain ⟨-, -, h⟩ := exists_of_bind_eq_ok h
  obtain ⟨directory, -, h⟩ := exists_of_bind_eq_ok h
  split at h
  next name _ _ =>
    split at h
    · cases h
    split at h
    next =>
      split at h
      next => cases h
      next hfile =>
        cases h
        exact ne_nil_of_not_directory hfile
    next =>
      cases h
      simp
    next => cases h
  next => cases h
  next => cases h

section Congruence

variable {s t : Tree} (h : s.shape = t.shape)

include h

theorem shape_insert_congr (location : Location) (node : Node) :
    (s.insert location node).shape = (t.insert location node).shape := by
  funext other
  have hother := congrFun h other
  unfold shape at hother ⊢
  rw [get?_insert, get?_insert]
  split_ifs
  · rfl
  · rfl
  · exact hother

theorem get?_cases (location : Location) :
    (s.get? location = none ∧ t.get? location = none) ∨
      (s.get? location = some .directory ∧ t.get? location = some .directory) ∨
      ∃ content other, s.get? location = some (.file content) ∧
        t.get? location = some (.file other) := by
  have hshape := congrFun h location
  unfold shape at hshape
  rcases hs : s.get? location with _ | _ | content <;>
    rcases ht : t.get? location with _ | _ | other <;>
    simp_all [Node.isDirectory]

theorem isSome_get?_congr (location : Location) :
    (s.get? location).isSome = (t.get? location).isSome := by
  obtain ⟨hs, ht⟩ | ⟨hs, ht⟩ | ⟨content, other, hs, ht⟩ := get?_cases h location <;> rw [hs, ht]
  rfl

theorem step_congr : s.step = t.step := by
  funext location component
  unfold step
  simp only [isSome_get?_congr h]
  obtain ⟨hs, ht⟩ | ⟨hs, ht⟩ | ⟨content, other, hs, ht⟩ := get?_cases h location <;>
    simp only [hs, ht]

theorem locate_congr (workingDirectory : Location) (path : Text) :
    s.locate workingDirectory path = t.locate workingDirectory path := by
  unfold locate
  rw [step_congr h]

theorem contains_congr (workingDirectory : Location) (path : Text) :
    s.contains workingDirectory path = t.contains workingDirectory path := by
  unfold contains
  rw [locate_congr h]

theorem locateFile_congr (workingDirectory : Location) (path : Text) :
    s.locateFile workingDirectory path = t.locateFile workingDirectory path := by
  unfold locateFile
  rw [locate_congr h]
  refine bind_congr fun location => ?_
  obtain ⟨hs, ht⟩ | ⟨hs, ht⟩ | ⟨content, other, hs, ht⟩ := get?_cases h location <;>
    simp only [hs, ht]

theorem get?_eq_directory_congr (location : Location) :
    s.get? location = some .directory ↔ t.get? location = some .directory := by
  obtain ⟨hs, ht⟩ | ⟨hs, ht⟩ | ⟨content, other, hs, ht⟩ := get?_cases h location <;>
    simp [hs, ht]

theorem locateTarget_congr (workingDirectory : Location) (path : Text) :
    s.locateTarget workingDirectory path = t.locateTarget workingDirectory path := by
  unfold locateTarget
  rw [step_congr h]
  simp only [get?_eq_directory_congr h]
  refine bind_congr fun _ => bind_congr fun directory => ?_
  obtain ⟨hs, ht⟩ | ⟨hs, ht⟩ | ⟨content, other, hs, ht⟩ := get?_cases h directory <;>
    simp only [hs, ht]

end Congruence

end Tree
end Files

end BuildLog
