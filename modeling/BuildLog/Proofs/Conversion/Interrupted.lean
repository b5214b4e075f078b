import BuildLog.Proofs.Conversion
import BuildLog.Proofs.Text.Beginnings
import BuildLog.Proofs.Transcript.Interruption

/-! A conversion that stops at a header that stands for nothing leaves what a conversion leaves of
the log that is cut before the line at which it stops. Cutting the log changes no more on the
machine than what one file holds, so every path leads where it led before. -/
namespace BuildLog

structure Machine.Alike (machine other : Machine) : Prop where
  workingDirectory : other.workingDirectory = machine.workingDirectory
  shape : other.tree.shape = machine.tree.shape
  refusal?_eq : other.refusal? = machine.refusal?

namespace Machine.Alike

variable {machine other : Machine} (h : machine.Alike other)

include h

theorem contains_eq : other.contains = machine.contains := by
  funext path
  unfold Machine.contains
  rw [h.workingDirectory, Files.Tree.contains_congr h.shape]

theorem openFile_eq (path : Text) : other.openFile path = machine.openFile path := by
  unfold Machine.openFile Machine.allow
  rw [h.workingDirectory, h.refusal?_eq, Files.Tree.locate_congr h.shape,
    Files.Tree.locateFile_congr h.shape]

theorem isSome_get? (location : Files.Location) :
    (other.tree.get? location).isSome = (machine.tree.get? location).isSome :=
  Files.Tree.isSome_get?_congr h.shape location

theorem createFile_iff {path : Text} {location : Files.Location} :
    other.createFile path = .ok (other.emptied location, location) ↔
      machine.createFile path = .ok (machine.emptied location, location) := by
  rw [Machine.createFile_eq_ok_iff, Machine.createFile_eq_ok_iff, Machine.writing, Machine.writing,
    h.isSome_get?, h.refusal?_eq, h.workingDirectory, Files.Tree.locateTarget_congr h.shape]
  simp only [and_true]

theorem emptied (location : Files.Location) :
    (machine.emptied location).Alike (other.emptied location) where
  workingDirectory := by simp [h.workingDirectory]
  shape := by
    rw [Machine.emptied_tree, Machine.emptied_tree]
    exact Files.Tree.shape_insert_congr h.shape location _
  refusal?_eq := by
    unfold Machine.emptied
    rw [h.isSome_get?]
    split
    · exact h.refusal?_eq
    · funext access place
      exact congrArg (fun refusal? : Files.Access → Files.Location → Option Files.Refusal =>
        if place = location then none else refusal? access place) h.refusal?_eq

end Machine.Alike

namespace Conversion

open Transcript (Scanner StopsAt)

variable {machine shorter : Machine} {source : Source} {n : Nat}

theorem Log.ofChunks_of_readChunks {chunks : List (List UInt8)} {text : Text}
    (h : Utf8.readChunks none chunks = (text, none)) :
    Log.ofChunks chunks = ⟨Text.lines text, none⟩ := by
  unfold Log.ofChunks
  rw [h]
  rfl

theorem Log.lines_ofChunks_prefix (chunks : List (List UInt8)) :
    (Log.ofChunks chunks).lines <+: Text.lines (Utf8.readChunks none chunks).1 := by
  unfold Log.ofChunks
  dsimp only
  split
  · exact Text.completeLines_prefix _
  · exact List.prefix_rfl

theorem Log.exists_lines_ofChunks_take (n : Nat) (chunks : List (List UInt8)) :
    ∃ beginning, beginning <+: (Utf8.readChunks none chunks).1 ∧
      Text.lines beginning = (Log.ofChunks chunks).lines.take n := by
  rw [List.prefix_iff_eq_take.mp (Log.lines_ofChunks_prefix chunks), List.take_take]
  exact Text.exists_lines_eq_take _ _

namespace Source

def lines (source : Source) (machine : Machine) : List Text := (source.read machine).lines

inductive Relogged (machine : Machine) (log : Log) : Source → Machine → Prop
  | input {chunks : List (List UInt8)} (hlog : Log.ofChunks chunks = log) :
    Relogged machine log .input { machine with input := chunks }
  | file {location : Files.Location} {content : List UInt8} (hlog : Log.ofContent content = log) :
    Relogged machine log (.file location) (machine.write location content)

/-- The machine on which nothing is left of a log but a beginning that holds its first lines. -/
inductive CutAt (machine : Machine) (n : Nat) : Source → Machine → Prop
  | input {chunks : List (List UInt8)} (hbeginning : chunks.flatten <+: machine.input.flatten)
    (hlog : Log.ofChunks chunks = ⟨(lines .input machine).take n, none⟩) :
    CutAt machine n .input { machine with input := chunks }
  | file {location : Files.Location} {content : List UInt8}
    (hbeginning : content <+: machine.tree.contentAt location)
    (hlog : Log.ofContent content = ⟨(lines (.file location) machine).take n, none⟩) :
    CutAt machine n (.file location) (machine.write location content)

theorem CutAt.relogged (h : source.CutAt machine n shorter) :
    source.Relogged machine ⟨(source.lines machine).take n, none⟩ shorter := by
  cases h with
  | input _ hlog => exact .input hlog
  | file _ hlog => exact .file hlog

theorem exists_cutAt (source : Source) (machine : Machine) (n : Nat) :
    ∃ shorter, source.CutAt machine n shorter := by
  cases source with
  | input =>
    obtain ⟨beginning, hbeginning, hlines⟩ := Log.exists_lines_ofChunks_take n machine.input
    obtain ⟨raw, hraw, hread⟩ := Utf8.exists_readChunks_of_prefix hbeginning
    have hlog : Log.ofChunks [raw] = ⟨(lines .input machine).take n, none⟩ := by
      rw [Log.ofChunks_of_readChunks hread, hlines]
      rfl
    exact ⟨_, .input (by rwa [List.flatten_singleton]) hlog⟩
  | file location =>
    obtain ⟨unified, hunified, hlines⟩ := Text.exists_lines_eq_take n
      (Text.unifyNewlines (Utf8.decodeReplacing (machine.tree.contentAt location)))
    obtain ⟨log, hlog, rfl⟩ := Text.exists_unifyNewlines_eq hunified
    obtain ⟨content, hcontent, rfl⟩ := Utf8.exists_decodeReplacing_eq hlog
    exact ⟨_, .file hcontent (congrArg (Log.mk · none) hlines)⟩

theorem ofPath_of_alike {machine other : Machine} (h : machine.Alike other) (path : Text) :
    ofPath other path = ofPath machine path := by
  unfold ofPath
  rw [h.openFile_eq]

theorem shape_of_ofPath {machine : Machine} {path : Text} {location : Files.Location}
    (h : ofPath machine path = .ok (.file location)) :
    machine.tree.shape location = some false := by
  unfold ofPath at h
  split at h
  · cases h
  · rw [mapError_eq_ok_iff] at h
    cases hopen : machine.openFile path with
    | error error =>
      rw [hopen] at h
      cases h
    | ok found =>
      rw [hopen] at h
      cases h
      exact Files.Tree.shape_of_locateFile (Machine.openFile_eq_ok_iff.mp hopen).1

theorem Relogged.alike {log : Log} {other : Machine} {path : Text}
    (h : source.Relogged machine log other) (hsource : ofPath machine path = .ok source) :
    machine.Alike other := by
  cases h with
  | input => exact ⟨rfl, rfl, rfl⟩
  | file => exact ⟨rfl, Files.Tree.shape_insert_file (shape_of_ofPath hsource) _, rfl⟩

end Source

namespace Target

/-- The machine once a target is open, which empties the file that it is. -/
def opened (machine : Machine) : Target → Machine
  | .output => machine
  | .file location => machine.emptied location

theorem ofPath_of_alike {machine other reached : Machine} {path : Text} {target : Target}
    (h : machine.Alike other) (htarget : ofPath machine path = .ok (reached, target)) :
    reached = target.opened machine ∧ ofPath other path = .ok (target.opened other, target) := by
  cases target with
  | output =>
    obtain ⟨hpath, rfl⟩ := eq_ok_output_iff.mp htarget
    exact ⟨rfl, eq_ok_output_iff.mpr ⟨hpath, rfl⟩⟩
  | file location =>
    obtain ⟨hpath, hfile⟩ := eq_ok_file_iff.mp htarget
    obtain ⟨-, -, rfl⟩ := Machine.createFile_eq_ok_iff.mp hfile
    exact ⟨rfl, eq_ok_file_iff.mpr ⟨hpath, h.createFile_iff.mpr hfile⟩⟩

theorem alike_opened {machine other : Machine} (h : machine.Alike other) (target : Target) :
    (target.opened machine).Alike (target.opened other) := by
  cases target with
  | output => exact h
  | file location => exact h.emptied location

def IsApart (target : Target) (source : Source) : Prop :=
  ∀ location, source = .file location → target ≠ .file location

theorem read_opened {target : Target} {source : Source} (h : target.IsApart source)
    (machine : Machine) : source.read (target.opened machine) = source.read machine := by
  cases target with
  | output => rfl
  | file location =>
    cases source with
    | input =>
      unfold Source.read opened
      rw [Machine.emptied_input]
    | file other =>
      have hne : location ≠ other := by
        rintro rfl
        exact h location rfl rfl
      unfold Source.read opened
      dsimp only
      rw [Machine.emptied_tree, Files.Tree.contentAt_insert_of_ne _ hne]

theorem read_of_ofPath {reached : Machine} {path : Text} {target : Target} {source : Source}
    (htarget : ofPath machine path = .ok (reached, target)) (h : target.IsApart source) :
    source.read reached = source.read machine := by
  obtain ⟨rfl, -⟩ := ofPath_of_alike ⟨rfl, rfl, rfl⟩ htarget
  exact read_opened h machine

end Target

namespace Source

theorem ne_nil_of_ofPath {path : Text} {location : Files.Location}
    (h : ofPath machine path = .ok (.file location)) : location ≠ [] := by
  rintro rfl
  cases shape_of_ofPath h

theorem Relogged.read_eq {log : Log} {other : Machine} {path : Text}
    (h : source.Relogged machine log other) (hsource : ofPath machine path = .ok source) :
    source.read other = log := by
  cases h with
  | input hlog => exact hlog
  | file hlog =>
    unfold read Machine.write
    dsimp only
    rw [Files.Tree.contentAt_insert _ (ne_nil_of_ofPath hsource)]
    exact hlog

end Source

/-- Two conversions have made the same records, and they leave one text at a target. -/
def LeavesSame (target : Target) (conversion other : Conversion) : Prop :=
  other.records = conversion.records ∧
    ∃ text, conversion.textAt target = .ok text ∧ other.textAt target = .ok text

section

variable {opened : Machine} {input output : Text} {target : Target}

/-- The conversion of another log is a pass over that one, in the setting of the first. -/
theorem convert_relogged {log : Log} {other : Machine}
    (hsource : Source.ofPath machine input = .ok source)
    (htarget : Target.ofPath machine output = .ok (opened, target))
    (h : source.Relogged machine log other) (keepDriver : Bool) :
    Target.ofPath other output = .ok (target.opened other, target) ∧
      convert other input output keepDriver =
        ofRun (target.opened other) target (source.read (target.opened other)).fault
          (scan opened keepDriver (source.read (target.opened other))) := by
  have halike := h.alike hsource
  obtain ⟨rfl, hreopened⟩ := Target.ofPath_of_alike halike htarget
  have hsame : Source.ofPath other input = .ok source := by
    rw [Source.ofPath_of_alike halike, hsource]
  refine ⟨hreopened, ?_⟩
  rw [convert_eq hsame hreopened]
  unfold scan
  rw [(Target.alike_opened halike target).contains_eq]

theorem convert_cut (hsource : Source.ofPath machine input = .ok source)
    (htarget : Target.ofPath machine output = .ok (opened, target))
    (hapart : target.IsApart source) (hcut : source.CutAt machine n shorter) (keepDriver : Bool) :
    Target.ofPath shorter output = .ok (target.opened shorter, target) ∧
      convert shorter input output keepDriver = ofRun (target.opened shorter) target none
        (scan opened keepDriver ⟨(source.lines machine).take n, none⟩) := by
  have hconvert := convert_relogged hsource htarget hcut.relogged keepDriver
  rwa [Target.read_opened hapart, hcut.relogged.read_eq hsource] at hconvert

theorem failure_scan (machine : Machine) (keepDriver : Bool) (log : Log) :
    (scan machine keepDriver log).failure = ((Scanner.start .empty).feedAll
      ⟨machine.contains, keepDriver⟩ (log.lines.map Text.trimLineEnd)).failure := by
  unfold scan
  split
  · exact Scanner.failure_scan _
  · rfl

theorem records_scan (machine : Machine) (keepDriver : Bool) (log : Log) :
    (scan machine keepDriver log).records = ((Scanner.start .empty).feedAll
      ⟨machine.contains, keepDriver⟩ (log.lines.map Text.trimLineEnd)).records := by
  unfold scan
  split
  · exact Scanner.records_scan _
  · rfl

theorem resultOf_of_none {run : Transcript.Run} (h : run.failure = none) :
    resultOf run none = .ok run.scanner.tally := by
  unfold resultOf
  rw [h]

theorem resultOf_eq_unresolved_iff {run : Transcript.Run} {fault : Option Utf8.DecodeError}
    {error : UnresolvedHeader} :
    resultOf run fault = .error (.unresolved error) ↔ run.failure = some error := by
  unfold resultOf
  cases run.failure with
  | some found => simp
  | none => cases fault <;> simp

theorem Source.ofPath_ne_unresolved (machine : Machine) (path : Text) (error : UnresolvedHeader) :
    ofPath machine path ≠ .error (.unresolved error) := by
  intro h
  unfold ofPath at h
  split at h
  · cases h
  · cases hfile : machine.openFile path <;> rw [hfile] at h <;> cases h

theorem Target.ofPath_ne_unresolved (machine : Machine) (path : Text) (error : UnresolvedHeader) :
    ofPath machine path ≠ .error (.unresolved error) := by
  intro h
  unfold ofPath at h
  split at h
  · cases h
  · cases hfile : machine.createFile path <;> rw [hfile] at h <;> cases h

theorem exists_of_unresolved {keepDriver : Bool} {error : UnresolvedHeader}
    (h : (convert machine input output keepDriver).result = .error (.unresolved error)) :
    ∃ source opened target, Source.ofPath machine input = .ok source ∧
      Target.ofPath machine output = .ok (opened, target) ∧
      (scan opened keepDriver (source.read opened)).failure = some error := by
  cases hsource : Source.ofPath machine input with
  | error cause =>
    unfold convert at h
    rw [hsource] at h
    cases h
    exact absurd hsource (Source.ofPath_ne_unresolved machine input error)
  | ok source =>
    cases htarget : Target.ofPath machine output with
    | error cause =>
      unfold convert at h
      simp only [hsource, htarget] at h
      cases h
      exact absurd htarget (Target.ofPath_ne_unresolved machine output error)
    | ok reached =>
      obtain ⟨opened, target⟩ := reached
      rw [convert_eq hsource htarget, result_ofRun] at h
      exact ⟨source, opened, target, rfl, rfl, resultOf_eq_unresolved_iff.mp h⟩

theorem read_opened_of_not_isApart (hsource : Source.ofPath machine input = .ok source)
    (h : ¬ target.IsApart source) (other : Machine) :
    source.read (target.opened other) = ⟨[], none⟩ := by
  simp only [Target.IsApart, ne_eq, not_forall, not_not] at h
  obtain ⟨location, rfl, rfl⟩ := h
  unfold Source.read Target.opened
  dsimp only
  rw [Machine.emptied_tree, Files.Tree.contentAt_insert _ (Source.ne_nil_of_ofPath hsource)]
  rfl

/-- What is emptied for the database has no lines that a conversion could stop at. -/
theorem isApart_of_failure (hsource : Source.ofPath machine input = .ok source)
    (htarget : Target.ofPath machine output = .ok (opened, target)) {keepDriver : Bool}
    {error : UnresolvedHeader}
    (h : (scan opened keepDriver (source.read opened)).failure = some error) :
    target.IsApart source := by
  by_contra hapart
  obtain ⟨rfl, -⟩ := Target.ofPath_of_alike ⟨rfl, rfl, rfl⟩ htarget
  rw [read_opened_of_not_isApart hsource hapart] at h
  cases h

theorem leavesSame_of_cut (hsource : Source.ofPath machine input = .ok source)
    (htarget : Target.ofPath machine output = .ok (opened, target))
    (hapart : target.IsApart source) (hcut : source.CutAt machine n shorter) {keepDriver : Bool}
    (hrecords :
      ((Scanner.start .empty).feedAll ⟨opened.contains, keepDriver⟩
          (((source.lines machine).map Text.trimLineEnd).take n)).records =
        ((Scanner.start .empty).feedAll ⟨opened.contains, keepDriver⟩
          ((source.lines machine).map Text.trimLineEnd)).records) :
    LeavesSame target (convert machine input output keepDriver)
      (convert shorter input output keepDriver) := by
  obtain ⟨hreopened, hcutRun⟩ := convert_cut hsource htarget hapart hcut keepDriver
  have hmade : (scan opened keepDriver ⟨(source.lines machine).take n, none⟩).records =
      (scan opened keepDriver (source.read opened)).records := by
    rw [records_scan, records_scan, Target.read_of_ofPath htarget hapart, List.map_take]
    exact hrecords
  rw [convert_eq hsource htarget, hcutRun]
  refine ⟨?_, Database.print (scan opened keepDriver (source.read opened)).records,
    textAt_ofRun htarget _ _, ?_⟩
  · rw [records_ofRun, records_ofRun, hmade]
  · rw [textAt_ofRun hreopened, hmade]

/-- A conversion that stops at a header that stands for nothing, with line `n` of the log the
failing one, leaves what the conversion of the log leaves that is cut before that line: the
records that were reported are the same and so is the text of the database. The conversion of the
shorter log succeeds, and tells that it ended inside of a block. Nothing comes from the failing
block either, for the log that is cut where line `begun` opens it leaves the same again. -/
theorem convert_interrupted (machine : Machine) (input output : Text) (keepDriver : Bool)
    (error : UnresolvedHeader)
    (h : (convert machine input output keepDriver).result = .error (.unresolved error)) :
    ∃ source opened target begun n,
      Source.ofPath machine input = .ok source ∧
      Target.ofPath machine output = .ok (opened, target) ∧
      StopsAt ⟨opened.contains, keepDriver⟩ (.start .empty)
        ((source.lines machine).map Text.trimLineEnd) begun n error ∧
      (∀ m, ∃ shorter, source.CutAt machine m shorter) ∧
      (∀ shorter, source.CutAt machine n shorter →
        (∃ reopened, Target.ofPath shorter output = .ok (reopened, target)) ∧
        LeavesSame target (convert machine input output keepDriver)
          (convert shorter input output keepDriver) ∧
        ∃ tally, (convert shorter input output keepDriver).result = .ok tally ∧
          tally.truncated = true) ∧
      ∀ shorter, source.CutAt machine begun shorter →
        (∃ reopened, Target.ofPath shorter output = .ok (reopened, target)) ∧
        LeavesSame target (convert machine input output keepDriver)
          (convert shorter input output keepDriver) := by
  obtain ⟨source, opened, target, hsource, htarget, hfailure⟩ := exists_of_unresolved h
  -- a log with a line that fails is not the file that was emptied for the database
  have hapart := isApart_of_failure hsource htarget hfailure
  rw [failure_scan, Target.read_of_ofPath htarget hapart] at hfailure
  obtain ⟨begun, n, hstops, hrecords, hbegun⟩ := Transcript.exists_stopsAt rfl hfailure
  refine ⟨source, opened, target, begun, n, hsource, htarget, hstops, source.exists_cutAt machine,
    ?_, ?_⟩
  · intro shorter hcut
    obtain ⟨hreopened, hconvert⟩ := convert_cut hsource htarget hapart hcut keepDriver
    refine ⟨⟨_, hreopened⟩, leavesSame_of_cut hsource htarget hapart hcut hrecords, ?_⟩
    obtain ⟨directory, hwaits⟩ := hstops.waits
    have hhandles := hstops.handles
    rw [← List.map_take] at hhandles hwaits
    have hpass : (scan opened keepDriver ⟨(source.lines machine).take n, none⟩).failure = none :=
      (failure_scan _ _ _).trans hhandles
    rw [hconvert, result_ofRun]
    exact ⟨_, resultOf_of_none hpass, Scanner.truncated_scan hhandles hwaits⟩
  · intro shorter hcut
    obtain ⟨hreopened, -⟩ := convert_cut hsource htarget hapart hcut keepDriver
    exact ⟨⟨_, hreopened⟩, leavesSame_of_cut hsource htarget hapart hcut hbegun⟩

theorem convert_interrupted_in_second_block :
    let log := "CompileC\n    cd /w\nclang -c a.m -o o\n".toList ++
      "CompileC\n    cd /w\nclang -include p.h -c b.m -o o\n".toList ++
      "CompileC\n    cd /w\nclang -c c.m -o o\n".toList
    let machine : Machine :=
      .permissive ⟨[(["log".toList], .file (Utf8.encode log))]⟩ [] []
    let conversion := convert machine "log".toList "db".toList false
    conversion.result = .error (.unresolved ⟨"p.h".toList⟩) ∧
      ∃ n shorter tally, Source.CutAt machine n (.file ["log".toList]) shorter ∧
        LeavesSame (.file ["db".toList]) conversion
          (convert shorter "log".toList "db".toList false) ∧
        (convert shorter "log".toList "db".toList false).records =
          [⟨"/w".toList, "a.m".toList, "-c a.m -o o".toList⟩] ∧
        (convert shorter "log".toList "db".toList false).result = .ok tally ∧
        tally.truncated = true := by
  intro log machine conversion
  have hresult : conversion.result = .error (.unresolved ⟨"p.h".toList⟩) := by decide +kernel
  have hrecords : conversion.records =
      [⟨"/w".toList, "a.m".toList, "-c a.m -o o".toList⟩] := by decide +kernel
  obtain ⟨source, opened, target, begun, n, hsource, htarget, -, hcuts, hwhole, -⟩ :=
    convert_interrupted machine "log".toList "db".toList false _ hresult
  have hlog : Source.ofPath machine "log".toList = .ok (.file ["log".toList]) := rfl
  have hdatabase : (Target.ofPath machine "db".toList).map Prod.snd =
      .ok (.file ["db".toList]) := rfl
  rw [hlog] at hsource
  rw [htarget] at hdatabase
  cases hsource
  cases hdatabase
  obtain ⟨shorter, hcut⟩ := hcuts n
  obtain ⟨-, hsame, tally, htally, htruncated⟩ := hwhole shorter hcut
  exact ⟨hresult, n, shorter, tally, hcut, hsame, hsame.1.trans hrecords, htally, htruncated⟩

end

end Conversion

end BuildLog
