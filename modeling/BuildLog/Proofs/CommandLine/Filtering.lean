import BuildLog.Proofs.CommandLine.Listing
import BuildLog.Proofs.Path.Below

/-! Listing the records of one directory only. The listing has the lines that it has without a
directory, less those of records whose file is not below it; what is below is told by components. -/
namespace BuildLog

def Record.path (record : Record) (workingPath : Text) : Text :=
  Path.absolute workingPath (Path.resolve record.directory record.file)

namespace Path

variable {workingPath : Text}

theorem isAbsolute_absolute (h : isAbsolute workingPath = true) (path : Text) :
    isAbsolute (absolute workingPath path) = true := by
  obtain ⟨rest, rfl⟩ := exists_eq_cons_slash h
  rw [absolute, isAbsolute_normalize, resolve]
  split
  next habsolute => exact habsolute
  next => split <;> rfl

theorem isUnder_absolute_iff (h : isAbsolute workingPath = true) (directory path : Text) :
    isUnder (absolute workingPath directory) (absolute workingPath path) = true ↔
      components (absolute workingPath directory) <+: components (absolute workingPath path) :=
  isUnder_iff (isNormal_normalize _) (isNormal_normalize _) (isAbsolute_absolute h directory)
    (isAbsolute_absolute h path)

theorem not_isUnder_of_longer_name {directory : Text} (h : IsNormal directory)
    (hroot : directory ≠ "/".toList) {c : Char} (hc : c ≠ '/') (more : Text) :
    isUnder directory (directory ++ c :: more) = false := by
  rw [Bool.eq_false_iff, ne_eq, isUnder_iff_of_ne_root h hroot, not_or]
  constructor
  · simp
  · intro hprefix
    have hslash := (List.prefix_append_right_inj directory).mp hprefix
    exact hc (List.cons_prefix_cons.mp hslash).1.symm

end Path

namespace CommandLine

/-- Whether the file of a record is below a directory: its components begin with those of the
directory. -/
def LiesUnder (workingPath target : Text) (record : Record) : Prop :=
  Path.components (Path.absolute workingPath target) <+: Path.components (record.path workingPath)

instance (workingPath target : Text) : DecidablePred (LiesUnder workingPath target) :=
  fun _ => inferInstanceAs (Decidable (_ <+: _))

variable {machine : Machine} {database target : Text} {location : Files.Location}
  {entries : List (List (WideText × Json))}

theorem isAbsolute_workingPath (machine : Machine) : Path.isAbsolute machine.workingPath = true :=
  rfl

theorem shows_ofOptions_of_nil (machine : Machine) (database : Text) (record : Record) :
    (Filter.ofOptions machine.workingPath ⟨database, []⟩).shows record = true := rfl

theorem liesUnder_iff (machine : Machine) (target : Text) (record : Record) :
    LiesUnder machine.workingPath target record ↔
      Path.isUnder (Path.absolute machine.workingPath target) (record.path machine.workingPath) =
        true :=
  (Path.isUnder_absolute_iff (isAbsolute_workingPath machine) target _).symm

theorem liesUnder_root (workingPath : Text) (record : Record) :
    LiesUnder workingPath "/".toList record :=
  List.nil_prefix

theorem shows_ofOptions (htarget : target ≠ []) (machine : Machine) (database : Text)
    (record : Record) :
    (Filter.ofOptions machine.workingPath ⟨database, target⟩).shows record =
      decide (LiesUnder machine.workingPath target record) := by
  rw [Bool.eq_iff_iff, decide_eq_true_iff, liesUnder_iff, Filter.shows, Filter.ofOptions]
  simp only [if_neg htarget]
  rfl

def NamesPaths (record : Record) : Prop :=
  '\x00' ∉ record.directory ∧ '\x00' ∉ record.file

instance : DecidablePred NamesPaths := fun _ => inferInstanceAs (Decidable (_ ∧ _))

theorem HoldsTexts.hasPath {members : List (WideText × Json)} (h : HoldsTexts members)
    (hnames : NamesPaths (recordOf members)) : HasPath members := by
  have hnameable (name : Database.Field) {point : CodePoint}
      (hnull : '\x00' ∉ (textOf members name.name).map CodePoint.inPath)
      (hpoint : point ∈ textOf members name.name) : point.isNameable = true := by
    obtain ⟨text, htext⟩ := h.exists_textOf_eq name
    rw [htext, Text.map_inPath_widen] at hnull
    rw [htext] at hpoint
    obtain ⟨c, hc, rfl⟩ := List.mem_map.mp hpoint
    exact decide_eq_true fun hnul => hnull (hnul ▸ hc)
  intro point hpoint
  unfold pathParts at hpoint
  split at hpoint
  · exact hnameable .file hnames.2 hpoint
  · obtain hpoint | hpoint := List.mem_append.mp hpoint
    · exact hnameable .directory hnames.1 hpoint
    · exact hnameable .file hnames.2 hpoint

section

variable [Console]

theorem runList_of_objects (options : ListOptions)
    (hfile : machine.openFile options.database = .ok location)
    (hread : readDatabase (machine.tree.contentAt location) =
      .ok (.array (entries.map .object)))
    (htexts : ∀ members ∈ entries, HoldsTexts members)
    (hnames : ∀ members ∈ entries, NamesPaths (recordOf members)) :
    let shown := (entries.map recordOf).filter (Filter.ofOptions machine.workingPath options).shows
    runList machine options =
      .unchanged machine 0 (shown.flatMap fun record => echo (listing record)) [] := by
  intro shown
  have hpaths : ∀ members ∈ entries, HasPath members :=
    fun members hmembers => (htexts members hmembers).hasPath (hnames members hmembers)
  unfold runList
  simp only [hfile, hread, elements, listElements_objects _ htexts fun _ => hpaths]
  rfl

/-- A database of objects whose fields are texts is listed without a fault, if it is read at all.
With a target directory the lines are those of the records whose files are below it, as many of them
and in the order that they have without one. What goes on behind the name of the target is not below
it; everything is below the root; and what is below a directory is below any directory above that.
-/
theorem runList_of_target (hfile : machine.openFile database = .ok location) :
    let place := machine.workingPath
    let content := machine.tree.contentAt location
    (∀ error, readDatabase content = .error error → ∀ target,
        (runList machine ⟨database, target⟩).status = 1 ∧
          (runList machine ⟨database, target⟩).output = []) ∧
      ∀ entries : List (List (WideText × Json)),
        readDatabase content = .ok (.array (entries.map .object)) →
        (∀ members ∈ entries, HoldsTexts members) →
        (∀ members ∈ entries, NamesPaths (recordOf members)) →
        let records := entries.map recordOf
        let line (record : Record) := echo (listing record)
        let lines (target : Text) := (records.filter (LiesUnder place target)).map line
        runList machine ⟨database, []⟩ = .unchanged machine 0 (records.map line).flatten [] ∧
          (∀ target, target ≠ [] →
            runList machine ⟨database, target⟩ = .unchanged machine 0 (lines target).flatten []) ∧
          (∀ (target : Text) (record : Record) (c : Char) (more : Text),
            Path.absolute place target ≠ "/".toList → c ≠ '/' →
            record.path place = Path.absolute place target ++ c :: more →
            ¬ LiesUnder place target record) ∧
          lines "/".toList = records.map line ∧
          ∀ outer inner : Text,
            Path.components (Path.absolute place outer) <+:
              Path.components (Path.absolute place inner) →
            (lines inner).Sublist (lines outer) := by
  intro place content
  refine ⟨fun error herror target => ?_, fun entries hread htexts hnames => ?_⟩
  · rw [runList_of_error hfile herror]
    exact ⟨rfl, rfl⟩
  intro records line lines
  refine ⟨?_, ?_, ?_, ?_, ?_⟩
  · have hall : records.filter (Filter.ofOptions place ⟨database, []⟩).shows = records :=
      List.filter_eq_self.mpr fun record _ => shows_ofOptions_of_nil machine database record
    have hlist := runList_of_objects ⟨database, []⟩ hfile hread htexts hnames
    rw [hall] at hlist
    exact hlist
  · intro target htarget
    have hshows : (Filter.ofOptions place ⟨database, target⟩).shows =
        fun record => decide (LiesUnder place target record) :=
      funext fun record => shows_ofOptions htarget machine database record
    have hlist := runList_of_objects ⟨database, target⟩ hfile hread htexts hnames
    rw [hshows] at hlist
    exact hlist
  · intro target record c more hroot hc hpath hunder
    have hnormal : Path.IsNormal (Path.absolute place target) := Path.isNormal_normalize _
    rw [liesUnder_iff, hpath] at hunder
    have hapart := Path.not_isUnder_of_longer_name hnormal hroot hc more
    exact Bool.false_ne_true (hapart.symm.trans hunder)
  · have hall : records.filter (LiesUnder place "/".toList) = records :=
      List.filter_eq_self.mpr fun record _ => decide_eq_true (liesUnder_root place record)
    exact congrArg (List.map line) hall
  · intro outer inner habove
    refine (List.monotone_filter_right records fun record hinner => ?_).map line
    exact decide_eq_true (habove.trans (of_decide_eq_true hinner))

end

/-- The first line cannot be printed, and nothing is printed behind it. With a directory in which
its record does not lie, it is not there to be printed. And a record that can be printed may have no
path, so that not even the root shows it. -/
theorem not_sublist_of_half :
    letI := Console.stripping
    let text := "[\x7b\"file\":\"b/x\",\"command\":\"\\ud800\"\x7d,".toList ++
      "\x7b\"file\":\"a/y\",\"command\":\"ok\"\x7d]".toList
    let nowhere := "[\x7b\"directory\":\"\\ud800\",\"file\":\"a\"\x7d]".toList
    let machine : Machine := .permissive ⟨[(["db".toList], .file (Utf8.encode text)),
      (["nowhere".toList], .file (Utf8.encode nowhere))]⟩ [] []
    let whole := runList machine ⟨"db".toList, []⟩
    let below := runList machine ⟨"db".toList, "a".toList⟩
    (whole.status = 1 ∧ whole.abort = some .encoding ∧ whole.output = [] ∧
        below.status = 0 ∧ below.output = "a/y\tok\n".toList ∧
        ¬ (Text.lines below.output).Sublist (Text.lines whole.output)) ∧
      (runList machine ⟨"nowhere".toList, []⟩).output = "a\t\n".toList ∧
      (runList machine ⟨"nowhere".toList, ['/']⟩).output = [] := by
  decide +kernel

theorem runList_of_target_beside_longer_name :
    letI := Console.stripping
    let text := "[\x7b\"file\":\"l/a\"\x7d,\x7b\"file\":\"lo/b\"\x7d,".toList ++
      "\x7b\"directory\":\"x\",\"file\":\"/w/./l/c\"\x7d]".toList
    let machine : Machine := .permissive ⟨[(["w".toList], .directory),
      (["w".toList, "db".toList], .file (Utf8.encode text))]⟩ ["w".toList] []
    let listed := runList machine ⟨"db".toList, "x/../l".toList⟩
    listed.status = 0 ∧ listed.output = "l/a\t\n/w/./l/c\t\n".toList ∧
      ¬ LiesUnder "/w".toList "x/../l".toList ⟨[], "lo/b".toList, []⟩ ∧
      ["l/a\t\n".toList, "/w/./l/c\t\n".toList].Sublist
        ["l/a\t\n".toList, "lo/b\t\n".toList, "/w/./l/c\t\n".toList] := by
  let _ : Console := Console.stripping
  intro text machine listed
  let fields : List (List (Text × Text)) :=
    [[("file".toList, "l/a".toList)], [("file".toList, "lo/b".toList)],
      [("directory".toList, "x".toList), ("file".toList, "/w/./l/c".toList)]]
  let entries := fields.map fun members =>
    members.map fun member => (Text.widen member.1, Json.text (Text.widen member.2))
  have hfile : machine.openFile "db".toList = .ok ["w".toList, "db".toList] := rfl
  have hread : readDatabase (machine.tree.contentAt ["w".toList, "db".toList]) =
      .ok (.array (entries.map .object)) := by rfl
  have htexts : ∀ members ∈ entries, HoldsTexts members := by
    intro members hmembers
    obtain ⟨texts, -, rfl⟩ := List.mem_map.mp hmembers
    refine holdsTexts_of_forall fun member hmember => ?_
    obtain ⟨⟨-, value⟩, -, rfl⟩ := List.mem_map.mp hmember
    exact ⟨value, rfl⟩
  have hnames : ∀ members ∈ entries, NamesPaths (recordOf members) := by decide
  have hshown : (entries.map recordOf).filter (LiesUnder machine.workingPath "x/../l".toList) =
      [⟨[], "l/a".toList, []⟩, ⟨"x".toList, "/w/./l/c".toList, []⟩] := by decide
  have hall : (entries.map recordOf).filter (LiesUnder machine.workingPath ".".toList) =
      [⟨[], "l/a".toList, []⟩, ⟨[], "lo/b".toList, []⟩,
        ⟨"x".toList, "/w/./l/c".toList, []⟩] := by decide
  obtain ⟨-, hlists⟩ := runList_of_target hfile
  obtain ⟨-, htarget, hlonger, -, hinner⟩ := hlists entries hread htexts hnames
  have hlist := htarget "x/../l".toList (by decide)
  have hlines := hinner ".".toList "x/../l".toList (by decide)
  dsimp only at hlist hlines
  rw [hshown] at hlist
  rw [hshown, hall] at hlines
  simp only [List.map_cons, List.map_nil, listing] at hlist hlines
  rw [echo_of_not_mem (by decide), echo_of_not_mem (by decide)] at hlist
  rw [echo_of_not_mem (by decide), echo_of_not_mem (by decide), echo_of_not_mem (by decide)]
    at hlines
  refine ⟨congrArg Outcome.status hlist, congrArg Outcome.output hlist, ?_, hlines⟩
  exact hlonger _ _ 'o' "/b".toList (by decide) (by decide) (by decide)

end CommandLine
end BuildLog
