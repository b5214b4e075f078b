import BuildLog.Proofs.Path.Normal
import BuildLog.Proofs.Text.Tight

/-! Which paths lie below a directory. The test looks at texts; on absolute paths in normal form it
finds those whose components begin with the components of the directory. -/
namespace BuildLog.Path

variable {directory path : Text}

theorem IsNormal.eq_join_components (h : IsNormal path) (habsolute : isAbsolute path = true) :
    path = '/' :: Text.join ['/'] (components path) := by
  have hdot : path ≠ ".".toList := by
    rintro rfl
    cases habsolute
  rw [h.components_eq hdot]
  obtain ⟨rest, rfl⟩ := exists_eq_cons_slash habsolute
  rw [pieces_cons_slash, join_segments]

/-- Only the root loses its slash. -/
theorem IsNormal.dropTrailing_eq (h : IsNormal path) (hroot : path ≠ "/".toList) :
    Text.dropTrailing (· == '/') path = path := by
  rw [Text.dropTrailing_eq_rdropWhile, List.rdropWhile_eq_self_iff]
  intro hne hlast
  refine hroot (h.eq_root_of_getLast? ?_)
  rw [List.getLast?_eq_some_getLast hne, beq_iff_eq.mp hlast]

theorem isUnder_iff_of_ne_root (h : IsNormal directory) (hroot : directory ≠ "/".toList) :
    isUnder directory path = true ↔ path = directory ∨ directory ++ ['/'] <+: path := by
  rw [isUnder, h.dropTrailing_eq hroot, Bool.or_eq_true, beq_iff_eq, List.isPrefixOf_iff_prefix]

theorem isUnder_root (habsolute : isAbsolute path = true) : isUnder "/".toList path = true := by
  obtain ⟨rest, rfl⟩ := exists_eq_cons_slash habsolute
  exact Bool.or_eq_true_iff.mpr (.inr rfl)

theorem isUnder_iff (hdirectory : IsNormal directory) (hpath : IsNormal path)
    (habove : isAbsolute directory = true) (habsolute : isAbsolute path = true) :
    isUnder directory path = true ↔ components directory <+: components path := by
  by_cases hroot : directory = "/".toList
  · rw [hroot, isUnder_root habsolute, eq_self, true_iff]
    exact List.nil_prefix
  rw [isUnder_iff_of_ne_root hdirectory hroot]
  constructor
  · rintro (rfl | ⟨rest, rfl⟩)
    · exact List.prefix_refl _
    · rw [List.append_assoc, List.singleton_append, components_append_slash]
      exact List.prefix_append _ _
  · rintro ⟨more, hmore⟩
    have hjoin := hpath.eq_join_components habsolute
    have hfront := hdirectory.eq_join_components habove
    rw [← hmore] at hjoin
    cases more with
    | nil =>
      rw [List.append_nil, ← hfront] at hjoin
      exact .inl hjoin
    | cons next more =>
      have hnames : components directory ≠ [] := by
        intro hnone
        rw [hnone] at hfront
        exact hroot hfront
      refine .inr ⟨Text.join ['/'] (next :: more), ?_⟩
      rw [hjoin, Text.join_append hnames (List.cons_ne_nil _ _), ← List.cons_append,
        ← List.cons_append, ← hfront]

end BuildLog.Path
