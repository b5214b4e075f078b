import BuildLog.Proofs.CommandLine.RoundTrip
import BuildLog.Proofs.Transcript.Presence

/-! The database of a log, wherever it goes. A run that writes it to a file finds the machine
changed at the place of that file only, so a log that includes nothing from this place is read the
same as by a run that writes to a stream. -/
namespace BuildLog.CommandLine

open Conversion (Source Target)

variable {machine cleared opened : Machine} {options : ConvertOptions} {place : Files.Location}

/-- Where a database can be written: in place of a file that can be removed, or where nothing is. -/
inductive CanWrite (machine : Machine) (path : Text) (place : Files.Location) : Prop
  | there (h : machine.tree.locateFile machine.workingDirectory path = .ok place)
    (hremove : machine.refusal? .remove place = none)
    (hcreate : machine.refusal? .create place = none)
  | free (hmissing : machine.contains path = false)
    (h : machine.tree.locateTarget machine.workingDirectory path = .ok place)
    (hcreate : machine.refusal? .create place = none)

/-- What is there of a log can be read: the standard input is a text, and a file is not refused. -/
structure CanRead (machine : Machine) (path : Text) : Prop where
  input : path = standardStream → ∃ text, machine.input.flatten = Utf8.encode text
  file : ∀ location, path ≠ standardStream →
    machine.tree.locateFile machine.workingDirectory path = .ok location →
    machine.refusal? .read location = none

/-- The lines that a run of the command reads. -/
def linesOf (machine : Machine) (input : Text) : List Text :=
  match Source.ofPath machine input with
  | .error _ => []
  | .ok source => (source.lines machine).map Text.trimLineEnd

/-- Neither a log nor a header that it includes is at a place. -/
structure ReadsElsewhere (machine : Machine) (input : Text) (place : Files.Location) : Prop where
  log : input = standardStream ∨
    machine.tree.locateFile machine.workingDirectory input ≠ .ok place
  headers : ∀ line ∈ linesOf machine input, ∀ path ∈ Invocation.includedPaths line,
    machine.tree.locateTarget machine.workingDirectory path ≠ .ok place

section

variable [Console]

theorem runConvert_of_missing (hpath : options.input ≠ standardStream)
    (h : machine.isFile options.input = false) :
    runConvert machine options = .unchanged machine 1 []
      (echo ("Input file ".toList ++ options.input ++ " does not exist".toList)) := by
  unfold runConvert
  rw [if_pos ⟨hpath, by rw [h]; rfl⟩]

theorem runConvert_eq {source : Source} {target : Target}
    (hinput : options.input = standardStream ∨ machine.isFile options.input = true)
    (hclear : Clears machine options.output cleared)
    (hsource : Source.ofPath cleared options.input = .ok source)
    (htarget : Target.ofPath cleared options.output = .ok (opened, target)) :
    runConvert machine options = ofConversion options (Conversion.ofRun opened target
      (source.read opened).fault
      (Conversion.scan opened options.keepDriver (source.read opened))) := by
  have hfound : ¬ (options.input ≠ standardStream ∧ !machine.isFile options.input) := by
    rintro ⟨hpath, hmissing⟩
    rcases hinput with h | h
    · exact hpath h
    · rw [h] at hmissing
      cases hmissing
  unfold runConvert
  rw [if_neg hfound, clearOutput_eq_ok_iff.mpr hclear]
  dsimp only
  rw [Conversion.convert_eq hsource htarget]

end

namespace CanWrite

variable {path : Text} (h : CanWrite machine path place)

include h

theorem locateTarget_eq :
    machine.tree.locateTarget machine.workingDirectory path = .ok place := by
  cases h with
  | there h => exact Files.Tree.locateTarget_of_locateFile h
  | free _ h => exact h

theorem refusal?_create : machine.refusal? .create place = none := by
  cases h with
  | there _ _ hcreate => exact hcreate
  | free _ _ hcreate => exact hcreate

theorem exists_cleared (hpath : path ≠ standardStream) :
    ∃ cleared, Clears machine path cleared ∧
      cleared.tree.locateTarget cleared.workingDirectory path = .ok place ∧
      cleared.tree.get? place = none := by
  have hclear : ∃ cleared, Clears machine path cleared := by
    cases h with
    | there h hremove => exact ⟨_, .removed hpath h hremove⟩
    | free hmissing => exact ⟨machine, .missing hpath hmissing⟩
  obtain ⟨cleared, hclear⟩ := hclear
  have hlocate : cleared.tree.locateTarget cleared.workingDirectory path = .ok place := by
    rw [hclear.workingDirectory_eq, hclear.locateTarget_eq, h.locateTarget_eq]
  exact ⟨cleared, hclear, hlocate, hclear.get?_eq_none hpath hlocate⟩

theorem target_eq (hpath : path ≠ standardStream) (hclear : Clears machine path cleared)
    (hlocate : cleared.tree.locateTarget cleared.workingDirectory path = .ok place)
    (hnone : cleared.tree.get? place = none) :
    Target.ofPath cleared path = .ok (cleared.emptied place, .file place) := by
  have hcreate : cleared.refusal? (cleared.writing place) place = none := by
    unfold Machine.writing
    rw [hnone, hclear.refusal?_eq]
    exact h.refusal?_create
  exact Target.eq_ok_file_iff.mpr
    ⟨hpath, Machine.createFile_eq_ok_iff.mpr ⟨hlocate, hcreate, rfl⟩⟩

end CanWrite

namespace CanRead

variable {path : Text} (h : CanRead machine path)

include h

theorem exists_source (hfound : path = standardStream ∨ machine.isFile path = true) :
    ∃ source, Source.ofPath machine path = .ok source := by
  by_cases hpath : path = standardStream
  · exact ⟨.input, source_eq_ok_iff.mpr (.inl ⟨hpath, rfl⟩)⟩
  · obtain ⟨location, hfile⟩ := Machine.isFile_iff.mp (hfound.resolve_left hpath)
    have hopen := Machine.openFile_eq_ok_iff.mpr ⟨hfile, h.file location hpath hfile⟩
    exact ⟨.file location, source_eq_ok_iff.mpr (.inr ⟨hpath, location, hopen, rfl⟩)⟩

theorem fault_read {source : Source} (hsource : Source.ofPath machine path = .ok source) :
    (source.read machine).fault = none := by
  obtain ⟨hpath, rfl⟩ | ⟨-, location, -, rfl⟩ := source_eq_ok_iff.mp hsource
  · obtain ⟨text, htext⟩ := h.input hpath
    have hread := (Utf8.readChunks_eq_iff machine.input text).mpr
      (htext ▸ Utf8.decodeStrict_encode text)
    rw [Source.read, Conversion.Log.ofChunks_of_readChunks hread]
  · rfl

end CanRead

structure Differs (place : Files.Location) (machine other : Machine) : Prop where
  changes : Files.Tree.ChangesAt place machine.tree other.tree
  free : other.tree.get? place ≠ some .directory
  workingDirectory : other.workingDirectory = machine.workingDirectory
  input : other.input = machine.input

namespace Differs

variable {other : Machine} {source : Source} (h : Differs place machine other)

include h

theorem contains_eq {path : Text}
    (hpath : machine.tree.locateTarget machine.workingDirectory path ≠ .ok place) :
    other.contains path = machine.contains path := by
  unfold Machine.contains
  rw [h.workingDirectory, h.changes.contains_eq h.free hpath]

theorem read_eq (hsource : source ≠ .file place) : source.read other = source.read machine := by
  cases source with
  | input => exact congrArg Conversion.Log.ofChunks h.input
  | file location =>
    have hne : location ≠ place := fun heq => hsource (congrArg Source.file heq)
    unfold Source.read Files.Tree.contentAt
    dsimp only
    rw [h.changes.elsewhere location hne]

/-- A log that includes nothing from the place makes the same of itself on both machines. -/
theorem scan_eq (hsource : source ≠ .file place)
    (hheaders : ∀ line ∈ (source.lines machine).map Text.trimLineEnd,
      ∀ path ∈ Invocation.includedPaths line,
        machine.tree.locateTarget machine.workingDirectory path ≠ .ok place) (keepDriver : Bool) :
    Conversion.scan other keepDriver (source.read other) =
      Conversion.scan machine keepDriver (source.read machine) := by
  rw [h.read_eq hsource]
  have hagrees : ∀ line ∈ (source.lines machine).map Text.trimLineEnd,
      Invocation.Agrees ⟨machine.contains, keepDriver⟩ ⟨other.contains, keepDriver⟩ line :=
    fun line hline => ⟨rfl, fun path hpath => h.contains_eq (hheaders line hline path hpath)⟩
  unfold Conversion.scan
  split
  · exact Transcript.scan_of_agrees hagrees _
  · exact Transcript.feedAll_of_agrees hagrees _

end Differs

theorem Clears.differs (h : Clears machine options.output cleared)
    (hplace : machine.tree.locateTarget machine.workingDirectory options.output = .ok place) :
    Differs place machine (cleared.emptied place) := by
  obtain ⟨hfree, -⟩ := Files.Tree.exists_names_of_locateTarget hplace
  have hroot : place ≠ [] := Files.Tree.ne_nil_of_not_directory hfree
  have hchanges : Files.Tree.ChangesAt place machine.tree cleared.tree := by
    cases h with
    | stream | missing => exact Files.Tree.changesAt_refl hfree
    | @removed other hpath hfile =>
      have hother := Files.Tree.locateTarget_of_locateFile hfile
      rw [hplace] at hother
      cases hother
      exact Machine.changesAt_without hfile
  have hfile : (cleared.emptied place).tree.get? place = some (.file []) := by
    rw [Machine.emptied_tree, Files.Tree.get?_insert, if_neg hroot, if_pos rfl]
  refine ⟨?_, by rw [hfile]; simp, ?_, ?_⟩
  · rw [Machine.emptied_tree]
    exact hchanges.insert _
  · rw [Machine.emptied_workingDirectory, h.workingDirectory_eq]
  · rw [Machine.emptied_input]
    cases h <;> rfl

theorem Clears.source_eq {source : Source} (h : Clears machine options.output cleared)
    (hplace : machine.tree.locateTarget machine.workingDirectory options.output = .ok place)
    (hsource : Source.ofPath machine options.input = .ok source) (hne : source ≠ .file place) :
    Source.ofPath cleared options.input = .ok source := by
  rw [source_eq_ok_iff] at hsource ⊢
  refine hsource.imp_right ?_
  rintro ⟨hpath, location, hopen, rfl⟩
  obtain ⟨hfile, hread⟩ := Machine.openFile_eq_ok_iff.mp hopen
  have hother : machine.tree.locateFile machine.workingDirectory options.output ≠
      .ok location := by
    intro houtput
    rw [Files.Tree.locateTarget_of_locateFile houtput] at hplace
    cases hplace
    exact hne rfl
  exact ⟨hpath, location, Machine.openFile_eq_ok_iff.mpr
    ⟨h.locateFile_eq hfile (.inr hother), by rw [h.refusal?_eq, hread]⟩, rfl⟩

theorem ReadsElsewhere.source_ne {source : Source} {input : Text}
    (h : ReadsElsewhere machine input place) (hsource : Source.ofPath machine input = .ok source) :
    source ≠ .file place := by
  rintro rfl
  obtain ⟨-, hstream⟩ | ⟨hpath, location, hopen, hlocation⟩ := source_eq_ok_iff.mp hsource
  · cases hstream
  · cases hlocation
    exact h.log.elim hpath fun hne => hne (Machine.openFile_eq_ok_iff.mp hopen).1

section

variable [Console]

/-- A run to a file and a run to a stream make one pass over the log. -/
theorem exists_pass {source : Source} (hpath : options.output ≠ standardStream)
    (hplace : CanWrite machine options.output place)
    (hreads : ReadsElsewhere machine options.input place)
    (hfound : options.input = standardStream ∨ machine.isFile options.input = true)
    (hsource : Source.ofPath machine options.input = .ok source) :
    let log := source.read machine
    let run := Conversion.scan machine options.keepDriver log
    ∃ cleared : Machine, recordsMade machine options = run.records ∧
      cleared.tree.locateTarget cleared.workingDirectory options.output = .ok place ∧
      cleared.tree.get? place = none ∧
      runConvert machine { options with output := standardStream } =
        ofConversion { options with output := standardStream }
          (Conversion.ofRun machine .output log.fault run) ∧
      runConvert machine options =
        ofConversion options
          (Conversion.ofRun (cleared.emptied place) (.file place) log.fault run) := by
  intro log run
  have hne := hreads.source_ne hsource
  have hlines : linesOf machine options.input = (source.lines machine).map Text.trimLineEnd := by
    unfold linesOf
    rw [hsource]
  obtain ⟨cleared, hclear, hlocate, hnone⟩ := hplace.exists_cleared hpath
  have hcleared := hclear.source_eq hplace.locateTarget_eq hsource hne
  have htarget := hplace.target_eq hpath hclear hlocate hnone
  -- the log is read when the file is empty already, on a machine that differs at its place only
  have hdiffers := hclear.differs hplace.locateTarget_eq
  have hscan := hdiffers.scan_eq hne (hlines ▸ hreads.headers) options.keepDriver
  have hread := hdiffers.read_eq hne
  refine ⟨cleared, ?_, hlocate, hnone, runConvert_eq hfound (.stream rfl) hsource rfl, ?_⟩
  · unfold recordsMade
    rw [clearOutput_eq_ok_iff.mpr hclear]
    dsimp only
    rw [Conversion.convert_eq hcleared htarget, Conversion.records_ofRun, hscan]
  · rw [runConvert_eq hfound hclear hcleared htarget, hscan, hread]

theorem ends_alike {source : Source} (hpath : options.output ≠ standardStream)
    (hplace : CanWrite machine options.output place)
    (hreads : ReadsElsewhere machine options.input place)
    (hfound : options.input = standardStream ∨ machine.isFile options.input = true)
    (hsource : Source.ofPath machine options.input = .ok source) :
    let streamed := runConvert machine { options with output := standardStream }
    let filed := runConvert machine options
    let log := source.read machine
    let run := Conversion.scan machine options.keepDriver log
    (streamed.status = statusOf run log.fault ∧ filed.status = statusOf run log.fault) ∧
      (streamed.abort = abortOf run log.fault ∧ filed.abort = abortOf run log.fault) ∧
      streamed.output = Database.print (recordsMade machine options) ∧
      filed.machine.openFile options.output = .ok place ∧
      filed.machine.tree.contentAt place = Utf8.encode streamed.output := by
  intro streamed filed log run
  obtain ⟨cleared, hrecords, hlocate, hnone, hstreamed, hfiled⟩ :=
    exists_pass hpath hplace hreads hfound hsource
  obtain ⟨told, errors, hstream, hnothing⟩ :=
    exists_told { options with output := standardStream } machine .output log.fault run
  obtain ⟨toldApart, errorsApart, hfile, -⟩ :=
    exists_told options (cleared.emptied place) (.file place) log.fault run
  rw [hnothing rfl, List.append_nil] at hstream
  have hstreamed : streamed = _ := hstreamed.trans hstream
  have hfiled : filed = _ := hfiled.trans hfile
  rw [hstreamed, hfiled, hrecords]
  exact ⟨⟨rfl, rfl⟩, ⟨rfl, rfl⟩, rfl, openFile_write hlocate hnone _⟩

/-- A standard input that is no text ends both runs where it ceases to be one, unless the pass has
failed before, and the file holds what the stream has got. -/
theorem runConvert_destination_of_undecodable {error : Utf8.DecodeError}
    (hpath : options.output ≠ standardStream) (hplace : CanWrite machine options.output place)
    (hreads : ReadsElsewhere machine options.input place) (hinput : options.input = standardStream)
    (hfault : (Conversion.Log.ofChunks machine.input).fault = some error) :
    let streamed := runConvert machine { options with output := standardStream }
    let filed := runConvert machine options
    filed.status = streamed.status ∧ filed.abort = streamed.abort ∧
      (streamed.status = 3 ∧ streamed.abort = none ∨
        streamed.status = 1 ∧ streamed.abort = some (.decoding error)) ∧
      streamed.output = Database.print (recordsMade machine options) ∧
      filed.machine.tree.contentAt place = Utf8.encode streamed.output := by
  intro streamed filed
  have hsource : Source.ofPath machine options.input = .ok .input :=
    source_eq_ok_iff.mpr (.inl ⟨hinput, rfl⟩)
  obtain ⟨⟨hstreamed, hfiled⟩, ⟨hstream, hfile⟩, houtput, -, hcontent⟩ :=
    ends_alike hpath hplace hreads (.inl hinput) hsource
  refine ⟨hfiled.trans hstreamed.symm, hfile.trans hstream.symm, ?_, houtput, hcontent⟩
  rw [Source.read, hfault] at hstreamed hstream
  exact (statusOf_some _ error).imp
    (fun h => ⟨hstreamed.trans h.1, hstream.trans h.2⟩)
    (fun h => ⟨hstreamed.trans h.1, hstream.trans h.2⟩)

end

end BuildLog.CommandLine
