import BuildLog.Proofs.Files.Shape
import Mathlib.Data.List.DropRight

/-! The place that a path names, which may hold a file or be free. A way goes on from directories
only, so what changes at a place that is no directory turns no path away. Where a file was removed
the same path makes a file again, and where a file was made the same path finds it. -/
namespace BuildLog.Files.Tree

theorem get?_erase (tree : Tree) (place location : Location) :
    (tree.erase place).get? location =
      if location = [] then some .directory
      else if place = location then none else tree.get? location := by
  unfold get? erase
  by_cases hroot : location = []
  · simp [hroot]
  · simp only [hroot, if_false]
    rw [List.find?_filter]
    by_cases h : place = location
    · rw [if_pos h, Option.map_eq_none_iff, List.find?_eq_none]
      intro entry _ hentry
      simp_all
    · rw [if_neg h]
      congr 2
      funext entry
      by_cases hentry : entry.1 = location <;> simp [hentry, Ne.symm h]

theorem get?_erase_self {tree : Tree} {place : Location} (h : tree.get? place ≠ some .directory) :
    (tree.erase place).get? place = none := by
  rw [get?_erase, if_neg (ne_nil_of_not_directory h), if_pos rfl]

/-- A component that can be the name of an entry in a directory. -/
structure IsName (component : Text) : Prop where
  ne_nil : component ≠ []
  ne_self : component ≠ ".".toList
  ne_parent : component ≠ "..".toList
  fits : ¬ maxName < (Utf8.encode component).length

/-- The ways on from a directory. -/
inductive Leads (tree : Tree) (location : Location) : Text → Location → Prop
  | stay {component : Text} (h : component = [] ∨ component = ".".toList) :
    Leads tree location component location
  | up : Leads tree location "..".toList location.dropLast
  | down {name : Text} (hname : IsName name) (h : (tree.get? (location ++ [name])).isSome = true) :
    Leads tree location name (location ++ [name])

variable {tree s t : Tree} {location directory place start workingDirectory : Location}
  {component name path : Text}

theorem step_eq_ok_iff {next : Location} : tree.step location component = .ok next ↔
    tree.get? location = some .directory ∧ tree.Leads location component next := by
  constructor
  · intro h
    unfold step at h
    split at h
    next => cases h
    next => cases h
    next hdirectory =>
      refine ⟨hdirectory, ?_⟩
      dsimp only at h
      split_ifs at h with hstay hup hlong hbelow
      · cases h
        exact .stay hstay
      · cases h
        rw [hup]
        exact .up
      · cases h
        rw [not_or] at hstay
        exact .down ⟨hstay.1, hstay.2, hup, hlong⟩ hbelow
  · rintro ⟨hdirectory, hleads⟩
    unfold step
    rw [hdirectory]
    cases hleads with
    | stay h => exact if_pos h
    | up => rfl
    | down hname h =>
      have hstay : ¬ (component = [] ∨ component = ".".toList) :=
        not_or.mpr ⟨hname.ne_nil, hname.ne_self⟩
      simp only [hstay, hname.ne_parent, hname.fits, h, if_false, if_true]

theorem step_eq_noEntry_iff (hdirectory : tree.get? location = some .directory) :
    tree.step location component = .error .noEntry ↔
      IsName component ∧ tree.get? (location ++ [component]) = none := by
  constructor
  · intro h
    unfold step at h
    simp only [hdirectory] at h
    split_ifs at h with hstay hup hlong hbelow
    · cases h
    · rw [not_or] at hstay
      exact ⟨⟨hstay.1, hstay.2, hup, hlong⟩, Option.not_isSome_iff_eq_none.mp hbelow⟩
  · rintro ⟨hname, hnone⟩
    have hstay : ¬ (component = [] ∨ component = ".".toList) :=
      not_or.mpr ⟨hname.ne_nil, hname.ne_self⟩
    unfold step
    simp only [hdirectory, hstay, hname.ne_parent, hname.fits, hnone, Option.isSome_none,
      Bool.false_eq_true, if_false]

inductive Points (directory : Location) : Text → Location → Prop
  | up : Points directory "..".toList directory.dropLast
  | down {name : Text} (hname : IsName name) : Points directory name (directory ++ [name])

theorem Points.ne_nil (h : Points directory name place) : name ≠ [] := by
  cases h with
  | up => decide
  | down hname => exact hname.ne_nil

theorem Leads.points (h : tree.Leads directory name place) (hne : place ≠ directory) :
    Points directory name place := by
  cases h with
  | stay => exact absurd rfl hne
  | up => exact .up
  | down hname => exact .down hname

theorem Points.step_of_isSome (h : Points directory name place)
    (hdirectory : tree.get? directory = some .directory)
    (hsome : (tree.get? place).isSome = true) : tree.step directory name = .ok place := by
  refine step_eq_ok_iff.mpr ⟨hdirectory, ?_⟩
  cases h with
  | up => exact .up
  | down hname => exact .down hname hsome

theorem Points.step_of_none (h : Points directory name place)
    (hdirectory : tree.get? directory = some .directory) (hnone : tree.get? place = none) :
    tree.step directory name = .ok place ∨
      tree.step directory name = .error .noEntry ∧ place = directory ++ [name] := by
  cases h with
  | up => exact .inl (step_eq_ok_iff.mpr ⟨hdirectory, .up⟩)
  | down hname => exact .inr ⟨(step_eq_noEntry_iff hdirectory).mpr ⟨hname, hnone⟩, rfl⟩

/-- A path names a place: all components but the last lead to a directory, seen from which the last
one points to the place. -/
structure Names (tree : Tree) (workingDirectory : Location) (path : Text) (directory : Location)
    (name : Text) (place : Location) : Prop where
  allowed : checkPath path = .ok ()
  way : ∃ parts, path.splitOn '/' = parts ++ [name] ∧
    parts.foldlM tree.step (origin workingDirectory path) = .ok directory
  is_directory : tree.get? directory = some .directory
  points : Points directory name place

namespace Names

variable (h : tree.Names workingDirectory path directory name place)

include h

theorem locate_eq : tree.locate workingDirectory path = tree.step directory name := by
  obtain ⟨parts, hsplit, hway⟩ := h.way
  unfold locate
  rw [h.allowed, hsplit, List.foldlM_append, hway]
  change ([name].foldlM tree.step directory) = _
  rw [List.foldlM_cons]
  cases tree.step directory name <;> rfl

theorem locateTarget_eq : tree.locateTarget workingDirectory path =
    match tree.step directory name with
    | .ok location =>
      if tree.get? location = some .directory then .error .isDirectory else .ok location
    | .error .noEntry => .ok (directory ++ [name])
    | .error cause => .error cause := by
  obtain ⟨parts, hsplit, hway⟩ := h.way
  have hnamed : ((parts ++ [name]).reverse.dropWhile (· = [])).reverse = parts ++ [name] := by
    rw [List.reverse_append, List.reverse_singleton, List.singleton_append,
      List.dropWhile_cons_of_neg (by simp [h.points.ne_nil]), List.reverse_cons,
      List.reverse_reverse]
  unfold locateTarget
  cases hstep : tree.step directory name with
  | ok location =>
    simp only [h.allowed, hsplit, hnamed, List.dropLast_concat, hway, List.getLast?_concat,
      Nat.lt_irrefl, if_false, bind, Except.bind, h.is_directory, hstep]
  | error cause =>
    cases cause <;>
      simp only [h.allowed, hsplit, hnamed, List.dropLast_concat, hway, List.getLast?_concat,
        Nat.lt_irrefl, if_false, bind, Except.bind, h.is_directory, hstep]

theorem locateFile_of_file {content : List UInt8} (hfile : tree.get? place = some (.file content)) :
    tree.locateFile workingDirectory path = .ok place := by
  have hsome : (tree.get? place).isSome = true := by rw [hfile]; rfl
  unfold locateFile
  simp only [h.locate_eq, h.points.step_of_isSome h.is_directory hsome, hfile, bind, Except.bind]

theorem locate_of_none (hnone : tree.get? place = none) :
    tree.locate workingDirectory path = .ok place ∨
      tree.locate workingDirectory path = .error .noEntry := by
  rw [h.locate_eq]
  exact (h.points.step_of_none h.is_directory hnone).imp_right And.left

theorem locateFile_of_none (hnone : tree.get? place = none) :
    tree.locateFile workingDirectory path = .error .noEntry := by
  unfold locateFile
  obtain hlocate | hlocate := h.locate_of_none hnone
  · simp only [hlocate, hnone, bind, Except.bind]
  · rw [hlocate]
    rfl

theorem locateTarget_eq_ok (hplace : tree.get? place ≠ some .directory) :
    tree.locateTarget workingDirectory path = .ok place := by
  rw [h.locateTarget_eq]
  cases hnode : tree.get? place with
  | some node =>
    have hstep := h.points.step_of_isSome h.is_directory (by rw [hnode]; rfl)
    simp only [hstep, hplace, if_false]
  | none =>
    obtain hstep | ⟨hstep, hbelow⟩ := h.points.step_of_none h.is_directory hnode
    · simp only [hstep, hplace, if_false]
    · simp only [hstep, hbelow]

end Names

theorem contains_iff : tree.contains workingDirectory path = true ↔
    ∃ location, tree.locate workingDirectory path = .ok location := by
  unfold contains
  cases tree.locate workingDirectory path <;> simp [Except.toOption]

theorem locateFile_eq_ok_iff : tree.locateFile workingDirectory path = .ok place ↔
    tree.locate workingDirectory path = .ok place ∧
      ∃ content, tree.get? place = some (.file content) := by
  unfold locateFile
  constructor
  · intro h
    obtain ⟨found, hlocate, h⟩ := exists_of_bind_eq_ok h
    split at h
    next content hfile =>
      cases h
      exact ⟨hlocate, content, hfile⟩
    next => cases h
    next => cases h
  · rintro ⟨hlocate, content, hfile⟩
    simp only [hlocate, hfile, bind, Except.bind]

theorem not_directory_of_locateFile (h : tree.locateFile workingDirectory path = .ok place) :
    tree.get? place ≠ some .directory := by
  obtain ⟨-, content, hfile⟩ := locateFile_eq_ok_iff.mp h
  rw [hfile]
  simp

theorem exists_names_of_locate (h : tree.locate workingDirectory path = .ok place)
    (hplace : tree.get? place ≠ some .directory) :
    ∃ directory name, tree.Names workingDirectory path directory name place := by
  unfold locate at h
  obtain ⟨⟨⟩, hallowed, hway⟩ := exists_of_bind_eq_ok h
  obtain ⟨parts, name, hsplit⟩ :=
    (List.eq_nil_or_concat' (path.splitOn '/')).resolve_left (List.splitOn_ne_nil '/' path)
  rw [hsplit, List.foldlM_append] at hway
  obtain ⟨directory, hway, hlast⟩ := exists_of_bind_eq_ok hway
  obtain ⟨last, hstep, hlast⟩ := exists_of_foldlM_cons hlast
  cases hlast
  obtain ⟨hdirectory, hleads⟩ := step_eq_ok_iff.mp hstep
  refine ⟨directory, name, hallowed, ⟨parts, hsplit, hway⟩, hdirectory, hleads.points ?_⟩
  rintro rfl
  exact hplace hdirectory

theorem exists_names_of_locateFile (h : tree.locateFile workingDirectory path = .ok place) :
    ∃ directory name, tree.Names workingDirectory path directory name place :=
  exists_names_of_locate (locateFile_eq_ok_iff.mp h).1 (not_directory_of_locateFile h)

theorem exists_names_of_locateTarget (h : tree.locateTarget workingDirectory path = .ok place) :
    tree.get? place ≠ some .directory ∧
      ∃ directory name, tree.Names workingDirectory path directory name place := by
  unfold locateTarget at h
  obtain ⟨⟨⟩, hallowed, h⟩ := exists_of_bind_eq_ok h
  obtain ⟨directory, hway, h⟩ := exists_of_bind_eq_ok h
  split at h
  next name hdirectory hlast =>
    split at h
    · cases h
    next hlength =>
      -- no component was dropped from the end of the path
      have hkept : (path.splitOn '/').rdropWhile (· = []) = path.splitOn '/' :=
        (List.rdropWhile_prefix _ _).eq_of_length_le (Nat.le_of_not_lt hlength)
      rw [← List.rdropWhile, hkept] at hlast hway
      obtain ⟨parts, hsplit⟩ := List.getLast?_eq_some_iff.mp hlast
      rw [hsplit, List.dropLast_concat] at hway
      split at h
      next location hstep =>
        split at h
        · cases h
        next hplace =>
          cases h
          refine ⟨hplace, directory, name, hallowed, ⟨parts, hsplit, hway⟩, hdirectory, ?_⟩
          refine (step_eq_ok_iff.mp hstep).2.points ?_
          rintro rfl
          exact hplace hdirectory
      next hstep =>
        cases h
        obtain ⟨hname, hnone⟩ := (step_eq_noEntry_iff hdirectory).mp hstep
        refine ⟨?_, directory, name, hallowed, ⟨parts, hsplit, hway⟩, hdirectory, .down hname⟩
        rw [hnone]
        simp
      next => cases h
  next => cases h
  next => cases h

/-- A second tree differs from a first one at most at a place where the first has no directory. -/
structure ChangesAt (place : Location) (s t : Tree) : Prop where
  elsewhere : ∀ location, location ≠ place → t.get? location = s.get? location
  not_directory : s.get? place ≠ some .directory

theorem changesAt_erase (h : tree.get? place ≠ some .directory) :
    ChangesAt place tree (tree.erase place) where
  elsewhere := by
    intro location hne
    rw [get?_erase, if_neg (Ne.symm hne)]
    split
    next hroot => rw [hroot]; rfl
    next => rfl
  not_directory := h

theorem ChangesAt.symm (h : ChangesAt place s t) (hplace : t.get? place ≠ some .directory) :
    ChangesAt place t s where
  elsewhere := fun location hne => (h.elsewhere location hne).symm
  not_directory := hplace

theorem changesAt_refl (h : tree.get? place ≠ some .directory) : ChangesAt place tree tree where
  elsewhere := fun _ _ => rfl
  not_directory := h

namespace ChangesAt

variable (h : ChangesAt place s t)

include h

theorem insert (node : Node) : ChangesAt place s (t.insert place node) where
  elsewhere := by
    intro location hne
    rw [get?_insert, if_neg (Ne.symm hne), h.elsewhere location hne]
    split
    next hroot => rw [hroot]; rfl
    next => rfl
  not_directory := h.not_directory

theorem get?_directory (hdirectory : s.get? location = some .directory) :
    t.get? location = some .directory := by
  have hne : location ≠ place := by
    rintro rfl
    exact h.not_directory hdirectory
  rw [h.elsewhere location hne, hdirectory]

theorem foldlM_step {parts : List Text} (hway : parts.foldlM s.step start = .ok location)
    (hne : location ≠ place) : parts.foldlM t.step start = .ok location := by
  induction parts generalizing start with
  | nil => exact hway
  | cons part parts ih =>
    obtain ⟨next, hstep, hrest⟩ := exists_of_foldlM_cons hway
    obtain ⟨hdirectory, hleads⟩ := step_eq_ok_iff.mp hstep
    have hnext : next ≠ place := by
      rintro rfl
      cases parts with
      | nil => exact hne (Except.ok.inj hrest).symm
      | cons part parts =>
        obtain ⟨_, hon, -⟩ := exists_of_foldlM_cons hrest
        exact h.not_directory (step_eq_ok_iff.mp hon).1
    have hstep' : t.step start part = .ok next := by
      refine step_eq_ok_iff.mpr ⟨h.get?_directory hdirectory, ?_⟩
      cases hleads with
      | stay h => exact .stay h
      | up => exact .up
      | down hname hsome => exact .down hname (h.elsewhere _ hnext ▸ hsome)
    rw [List.foldlM_cons, hstep']
    exact ih hrest

theorem names {named : Location} (hs : s.Names workingDirectory path directory name named) :
    t.Names workingDirectory path directory name named where
  allowed := hs.allowed
  way := by
    obtain ⟨parts, hsplit, hway⟩ := hs.way
    refine ⟨parts, hsplit, h.foldlM_step hway ?_⟩
    rintro rfl
    exact h.not_directory hs.is_directory
  is_directory := h.get?_directory hs.is_directory
  points := hs.points

theorem locate_of_ne (hlocate : s.locate workingDirectory path = .ok location)
    (hne : location ≠ place) : t.locate workingDirectory path = .ok location := by
  unfold locate at hlocate ⊢
  obtain ⟨⟨⟩, hallowed, hway⟩ := exists_of_bind_eq_ok hlocate
  rw [hallowed]
  exact h.foldlM_step hway hne

theorem contains_eq (hplace : t.get? place ≠ some .directory)
    (hpath : s.locateTarget workingDirectory path ≠ .ok place) :
    t.contains workingDirectory path = s.contains workingDirectory path := by
  have hback := h.symm hplace
  have hfound : (∃ location, t.locate workingDirectory path = .ok location) ↔
      ∃ location, s.locate workingDirectory path = .ok location := by
    constructor
    · rintro ⟨location, hlocate⟩
      refine ⟨location, hback.locate_of_ne hlocate ?_⟩
      rintro rfl
      obtain ⟨directory, name, hnames⟩ := exists_names_of_locate hlocate hplace
      exact hpath ((hback.names hnames).locateTarget_eq_ok h.not_directory)
    · rintro ⟨location, hlocate⟩
      refine ⟨location, h.locate_of_ne hlocate ?_⟩
      rintro rfl
      obtain ⟨directory, name, hnames⟩ := exists_names_of_locate hlocate h.not_directory
      exact hpath (hnames.locateTarget_eq_ok h.not_directory)
  rw [Bool.eq_iff_iff, contains_iff, contains_iff]
  exact hfound

theorem locateFile_of_ne (hfile : s.locateFile workingDirectory path = .ok location)
    (hne : location ≠ place) : t.locateFile workingDirectory path = .ok location := by
  obtain ⟨directory, name, hnames⟩ := exists_names_of_locateFile hfile
  obtain ⟨-, content, hcontent⟩ := locateFile_eq_ok_iff.mp hfile
  apply (h.names hnames).locateFile_of_file
  rw [h.elsewhere location hne, hcontent]

theorem locate_of_none (hfile : s.locateFile workingDirectory path = .ok place)
    (hnone : t.get? place = none) :
    t.locate workingDirectory path = .ok place ∨
      t.locate workingDirectory path = .error .noEntry := by
  obtain ⟨directory, name, hnames⟩ := exists_names_of_locateFile hfile
  exact (h.names hnames).locate_of_none hnone

theorem locateFile_of_none (hfile : s.locateFile workingDirectory path = .ok place)
    (hnone : t.get? place = none) : t.locateFile workingDirectory path = .error .noEntry := by
  obtain ⟨directory, name, hnames⟩ := exists_names_of_locateFile hfile
  exact (h.names hnames).locateFile_of_none hnone

theorem locateTarget_of_locateFile (hfile : s.locateFile workingDirectory path = .ok place)
    (hplace : t.get? place ≠ some .directory) :
    t.locateTarget workingDirectory path = .ok place := by
  obtain ⟨directory, name, hnames⟩ := exists_names_of_locateFile hfile
  exact (h.names hnames).locateTarget_eq_ok hplace

theorem locateFile_of_locateTarget (htarget : s.locateTarget workingDirectory path = .ok place)
    {content : List UInt8} (hfile : t.get? place = some (.file content)) :
    t.locateFile workingDirectory path = .ok place := by
  obtain ⟨-, directory, name, hnames⟩ := exists_names_of_locateTarget htarget
  exact (h.names hnames).locateFile_of_file hfile

end ChangesAt

theorem locateTarget_of_locateFile (h : tree.locateFile workingDirectory path = .ok place) :
    tree.locateTarget workingDirectory path = .ok place := by
  obtain ⟨directory, name, hnames⟩ := exists_names_of_locateFile h
  exact hnames.locateTarget_eq_ok (not_directory_of_locateFile h)

end BuildLog.Files.Tree
