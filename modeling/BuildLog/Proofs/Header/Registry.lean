import BuildLog.Header.Registry

/-! How a registry grows: by at most one entry for each build, and without losing a header that a
path stands for. -/
namespace BuildLog.Header.Registry

theorem size_insert_le (registry : Registry) (build : Build) :
    (registry.insert build).size ≤ registry.size + 1 := by
  have hle : (registry.builds.filter fun other => other.output ≠ build.output).length ≤
      registry.builds.length := List.length_filter_le _ _
  exact Nat.succ_le_succ hle

theorem exists_build_of_register? {registry larger : Registry} {arguments : List Text}
    (h : registry.register? arguments = some larger) :
    ∃ build, Build.ofArguments? arguments = some build ∧ larger = registry.insert build := by
  obtain ⟨build, hbuild, rfl⟩ := Option.map_eq_some_iff.mp h
  exact ⟨build, hbuild, rfl⟩

theorem isSome_resolve (registry : Registry) (path : Text) :
    (registry.resolve path).isSome = ((registry.get? (path ++ ".pth".toList)).isSome ||
      (registry.get? (path ++ ".pch".toList)).isSome || (registry.get? path).isSome) := by
  simp [resolve, Option.isSome_or, Bool.or_assoc]

/-- Whether a registry knows every output that another one knows, maybe of another source. -/
def Covers (larger registry : Registry) : Prop :=
  ∀ output, (registry.get? output).isSome = true → (larger.get? output).isSome = true

namespace Covers

variable {registry larger : Registry}

theorem refl (registry : Registry) : Covers registry registry := fun _ h => h

theorem insert_self (registry : Registry) (build : Build) :
    Covers (registry.insert build) registry := by
  intro output h
  rw [get?_insert]
  split
  · rfl
  · exact h

theorem insert (h : Covers larger registry) (build : Build) :
    Covers (larger.insert build) (registry.insert build) := by
  intro output hknown
  rw [get?_insert] at hknown ⊢
  split at hknown
  · next hbuild => rw [if_pos hbuild]; rfl
  · next hbuild => rw [if_neg hbuild]; exact h output hknown

theorem resolve (h : Covers larger registry) {path : Text}
    (hpath : (registry.resolve path).isSome = true) : (larger.resolve path).isSome = true := by
  simp only [isSome_resolve, Bool.or_eq_true] at hpath ⊢
  exact hpath.imp (Or.imp (h _) (h _)) (h _)

end Covers
end BuildLog.Header.Registry
