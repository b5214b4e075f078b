import BuildLog.Proofs.Path
import BuildLog.Proofs.Path.Reduction

/-! The form that normalizing brings a path into, told by what stands between its slashes. A path
has that form exactly if normalizing leaves it as it is. Normalizing one part of a path first does
not change what comes out, so a path may be resolved piece by piece. -/
namespace BuildLog.Path

def segments (text : Text) : List Text := if text = [] then [] else text.splitOn '/'

/-- The pieces of a path. The slash in front of an absolute path ends none of them. -/
def pieces (path : Text) : List Text := segments (if isAbsolute path then path.tail else path)

/-- A path in which nothing can be left out. That nothing is left is said by a single dot. -/
structure IsNormal (path : Text) : Prop where
  named : path ≠ ".".toList → ∀ piece ∈ pieces path, piece ≠ [] ∧ piece ≠ ".".toList
  climbs : ∃ count names, pieces path = List.replicate count "..".toList ++ names ∧
    "..".toList ∉ names ∧ (isAbsolute path = true → count = 0)

variable {path rest : Text} {parts : List Text}

/-! What is between the slashes. -/

theorem components_append_slash (path rest : Text) :
    components (path ++ '/' :: rest) = components path ++ components rest := by
  unfold components
  rw [List.splitOn_append_cons_self, List.filter_append]

theorem components_cons_slash (path : Text) : components ('/' :: path) = components path :=
  components_append_slash [] path

theorem isAbsolute_append_slash (path rest : Text) :
    isAbsolute (path ++ '/' :: rest) = (path.isEmpty || isAbsolute path) := by
  cases path <;> rfl

theorem exists_eq_cons_slash (h : isAbsolute path = true) : ∃ rest, path = '/' :: rest :=
  List.head?_eq_some_iff.mp (beq_iff_eq.mp h)

theorem pieces_cons_slash (rest : Text) : pieces ('/' :: rest) = segments rest := rfl

theorem pieces_of_relative (h : isAbsolute path = false) : pieces path = segments path := by
  rw [pieces, h]
  rfl

theorem join_segments (text : Text) : Text.join ['/'] (segments text) = text := by
  unfold segments
  split
  next h => rw [h]; rfl
  next => exact Text.join_splitOn '/' text

theorem segments_join (h : ∀ part ∈ parts, IsComponent part) :
    segments (Text.join ['/'] parts) = parts := by
  by_cases hparts : parts = []
  · rw [hparts]
    rfl
  · obtain ⟨part, hpart⟩ := List.exists_mem_of_ne_nil _ hparts
    rw [segments, if_neg (Text.join_ne_nil hpart (h part hpart).ne_nil)]
    exact List.splitOn_intercalate '/' (fun part hpart => (h part hpart).slash_not_mem) hparts

theorem components_eq_filter_segments (text : Text) :
    components text = (segments text).filter fun part => part ≠ [] ∧ part ≠ ".".toList := by
  unfold segments
  split
  next h => rw [h]; rfl
  next => rfl

theorem components_join (h : ∀ part ∈ parts, IsComponent part) :
    components (Text.join ['/'] parts) = parts := by
  rw [components_eq_filter_segments, segments_join h, List.filter_eq_self]
  exact fun part hpart => decide_eq_true ⟨(h part hpart).ne_nil, (h part hpart).ne_dot⟩

theorem isAbsolute_join (h : ∀ part ∈ parts, IsComponent part) :
    isAbsolute (Text.join ['/'] parts) = false := by
  cases parts with
  | nil => rfl
  | cons first others =>
    obtain ⟨hne, -, hslash⟩ := h first List.mem_cons_self
    obtain ⟨c, name, rfl⟩ := List.exists_cons_of_ne_nil hne
    have hc : c ≠ '/' := fun heq => hslash (heq ▸ List.mem_cons_self)
    cases others with
    | nil => simpa [isAbsolute] using hc
    | cons second others =>
      rw [Text.join_cons_cons]
      simpa [isAbsolute] using hc

namespace IsNormal

theorem components_eq (h : IsNormal path) (hdot : path ≠ ".".toList) :
    components path = pieces path := by
  have hfilter : components path =
      (pieces path).filter fun piece => piece ≠ [] ∧ piece ≠ ".".toList := by
    cases habsolute : isAbsolute path with
    | true =>
      obtain ⟨rest, rfl⟩ := exists_eq_cons_slash habsolute
      rw [components_cons_slash, pieces_cons_slash, components_eq_filter_segments]
    | false => rw [pieces_of_relative habsolute, components_eq_filter_segments]
  rw [hfilter, List.filter_eq_self]
  exact fun piece hpiece => decide_eq_true (h.named hdot piece hpiece)

theorem not_double_slash (h : IsNormal path) : ¬ "//".toList <+: path := by
  rintro ⟨rest, rfl⟩
  have hempty : ([] : Text) ∈ pieces ("//".toList ++ rest) := by
    change [] ∈ ('/' :: rest).splitOn '/'
    rw [Text.splitOn_cons_self]
    exact List.mem_cons_self
  exact (h.named nofun [] hempty).1 rfl

theorem eq_root_of_getLast? (h : IsNormal path) (hlast : path.getLast? = some '/') :
    path = "/".toList := by
  have hsegments (text : Text) : [] ∈ segments (text ++ ['/']) := by
    rw [segments, if_neg (by simp), List.splitOn_append_cons_self, List.splitOn_nil]
    exact List.mem_append_right _ List.mem_cons_self
  have hdot : path ≠ ".".toList := by
    rintro rfl
    cases hlast
  obtain ⟨before, rfl⟩ := List.getLast?_eq_some_iff.mp hlast
  cases before with
  | nil => rfl
  | cons c before =>
    have hempty : [] ∈ pieces (c :: before ++ ['/']) := by
      unfold pieces
      split
      · exact hsegments before
      · exact hsegments (c :: before)
    exact absurd rfl (h.named hdot [] hempty).1

end IsNormal

/-! What normalizing leaves. -/

theorem normalize_cases (h : path ≠ []) :
    (isAbsolute path = true ∧
      normalize path = '/' :: Text.join ['/'] (reduce true (components path))) ∨
    (isAbsolute path = false ∧ reduce false (components path) = [] ∧
      normalize path = ".".toList) ∨
    (isAbsolute path = false ∧ reduce false (components path) ≠ [] ∧
      normalize path = Text.join ['/'] (reduce false (components path))) := by
  rw [normalize, if_neg h]
  cases habsolute : isAbsolute path with
  | true => exact .inl ⟨rfl, rfl⟩
  | false =>
    by_cases hparts : reduce false (components path) = []
    · exact .inr (.inl ⟨rfl, hparts, if_pos hparts⟩)
    · exact .inr (.inr ⟨rfl, hparts, if_neg hparts⟩)

theorem isAbsolute_normalize (path : Text) : isAbsolute (normalize path) = isAbsolute path := by
  by_cases hne : path = []
  · rw [hne]
    rfl
  · obtain ⟨h, hnormal⟩ | ⟨h, -, hnormal⟩ | ⟨h, -, hnormal⟩ := normalize_cases hne
    · rw [hnormal, h]
      rfl
    · rw [hnormal, h]
      rfl
    · rw [hnormal, h]
      exact isAbsolute_join fun _ => isComponent_of_mem_reduce

theorem components_normalize (path : Text) :
    components (normalize path) = reduce (isAbsolute path) (components path) := by
  by_cases hne : path = []
  · rw [hne]
    rfl
  · obtain ⟨h, hnormal⟩ | ⟨h, hparts, hnormal⟩ | ⟨h, -, hnormal⟩ := normalize_cases hne
    · rw [hnormal, h, components_cons_slash]
      exact components_join fun _ => isComponent_of_mem_reduce
    · rw [hnormal, h, hparts]
      rfl
    · rw [hnormal, h]
      exact components_join fun _ => isComponent_of_mem_reduce

theorem pieces_normalize (hdot : normalize path ≠ ".".toList) :
    pieces (normalize path) = reduce (isAbsolute path) (components path) := by
  by_cases hne : path = []
  · rw [hne]
    rfl
  · obtain ⟨h, hnormal⟩ | ⟨-, -, hnormal⟩ | ⟨h, -, hnormal⟩ := normalize_cases hne
    · rw [hnormal, h, pieces_cons_slash]
      exact segments_join fun _ => isComponent_of_mem_reduce
    · exact absurd hnormal hdot
    · rw [pieces_of_relative ((isAbsolute_normalize path).trans h), hnormal, h]
      exact segments_join fun _ => isComponent_of_mem_reduce

theorem isNormal_normalize (path : Text) : IsNormal (normalize path) where
  named hdot piece hpiece := by
    rw [pieces_normalize hdot] at hpiece
    exact ⟨(isComponent_of_mem_reduce hpiece).ne_nil, (isComponent_of_mem_reduce hpiece).ne_dot⟩
  climbs := by
    by_cases hdot : normalize path = ".".toList
    · rw [hdot]
      exact ⟨0, [".".toList], rfl, by decide, fun _ => rfl⟩
    · rw [pieces_normalize hdot, isAbsolute_normalize]
      exact exists_climbs_reduce (isAbsolute path) (components path)

theorem IsNormal.normalize_eq (h : IsNormal path) : normalize path = path := by
  by_cases hdot : path = ".".toList
  · rw [hdot]
    rfl
  by_cases hne : path = []
  · rw [hne]
    rfl
  obtain ⟨count, names, hpieces, hnames, hcount⟩ := h.climbs
  have hreduce : reduce (isAbsolute path) (components path) = pieces path := by
    rw [h.components_eq hdot, hpieces, reduce_of_climbs hnames hcount]
  obtain ⟨habsolute, hnormal⟩ | ⟨hrelative, hparts, -⟩ | ⟨hrelative, -, hnormal⟩ :=
    normalize_cases hne
  · obtain ⟨rest, rfl⟩ := exists_eq_cons_slash habsolute
    rw [habsolute] at hreduce
    rw [hnormal, hreduce, pieces_cons_slash, join_segments]
  · rw [hrelative, hparts, pieces_of_relative hrelative] at hreduce
    have hjoin := join_segments path
    rw [← hreduce] at hjoin
    exact absurd hjoin.symm hne
  · rw [hrelative] at hreduce
    rw [hnormal, hreduce, pieces_of_relative hrelative, join_segments]

/-- The normal form of a path depends on whether the path is empty, on whether it is absolute, and
on where its components lead. -/
theorem normalize_congr {other : Text} (hempty : path = [] ↔ other = [])
    (habsolute : isAbsolute path = isAbsolute other)
    (hparts : reduce (isAbsolute other) (components path) =
      reduce (isAbsolute other) (components other)) : normalize path = normalize other := by
  simp only [normalize, hempty, habsolute, hparts]

theorem normalize_normalize_append (path rest : Text) :
    normalize (normalize path ++ '/' :: rest) = normalize (path ++ '/' :: rest) := by
  by_cases hne : path = []
  · rw [hne]
    rfl
  have habsolute {front : Text} (h : front ≠ []) :
      isAbsolute (front ++ '/' :: rest) = isAbsolute front := by
    rw [isAbsolute_append_slash, List.isEmpty_eq_false_iff.mpr h, Bool.false_or]
  apply normalize_congr
  · simp
  · rw [habsolute (normalize_ne_nil hne), habsolute hne, isAbsolute_normalize]
  · rw [habsolute hne, components_append_slash, components_append_slash, components_normalize,
      reduce_reduce_append]

theorem normalize_append_normalize (path : Text) (h : isAbsolute rest = false) :
    normalize (path ++ '/' :: normalize rest) = normalize (path ++ '/' :: rest) := by
  apply normalize_congr
  · simp
  · rw [isAbsolute_append_slash, isAbsolute_append_slash]
  · rw [components_append_slash, components_append_slash, components_normalize, h,
      reduce_append_reduce]

/-- Normalizing keeps whether a path is empty and whether it is absolute. What it leaves has one
slash in front if it is absolute and none at its end, no empty piece, no dot but the path that is
one, and climbs in front of a relative path only; exactly the paths of this form stay as they are.
Of two paths that are put together, either one may be normalized on its own, the second one if it is
relative. -/
theorem normalize_resolves_lexically (path : Text) :
    let normal := normalize path
    (normal = [] ↔ path = []) ∧ isAbsolute normal = isAbsolute path ∧
      ¬ "//".toList <+: normal ∧ (normal.getLast? = some '/' → normal = "/".toList) ∧
      IsNormal normal ∧ (IsNormal path ↔ normal = path) ∧ normalize normal = normal ∧
      ∀ rest, normalize (path ++ '/' :: rest) = normalize (normal ++ '/' :: rest) ∧
        (isAbsolute rest = false →
          normalize (path ++ '/' :: rest) = normalize (path ++ '/' :: normalize rest)) := by
  intro normal
  have hnormal : IsNormal normal := isNormal_normalize path
  refine ⟨normalize_eq_nil_iff, isAbsolute_normalize path, hnormal.not_double_slash,
    hnormal.eq_root_of_getLast?, hnormal, ?_, hnormal.normalize_eq, ?_⟩
  · exact ⟨IsNormal.normalize_eq, fun h => h ▸ hnormal⟩
  · intro rest
    exact ⟨(normalize_normalize_append path rest).symm,
      fun h => (normalize_append_normalize path h).symm⟩

theorem normalize_resolves_lexically_at_root :
    let path := "//x/..".toList
    let rest := "../a/./b".toList
    (normalize path).getLast? = some '/' ∧ normalize path = "/".toList ∧
      isAbsolute rest = false ∧ normalize rest = "../a/b".toList ∧
      normalize (path ++ '/' :: rest) = normalize (path ++ '/' :: normalize rest) ∧
      normalize (path ++ '/' :: normalize rest) = "/a/b".toList := by
  intro path rest
  have hlast : (normalize path).getLast? = some '/' := by decide
  have hrest : isAbsolute rest = false := rfl
  obtain ⟨-, -, -, hroot, -, -, -, happend⟩ := normalize_resolves_lexically path
  exact ⟨hlast, hroot hlast, hrest, by decide, (happend rest).2 hrest, by decide⟩

end BuildLog.Path
