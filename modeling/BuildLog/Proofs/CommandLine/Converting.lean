import BuildLog.CommandLine.Convert
import BuildLog.Proofs.Conversion.Interrupted

/-! All the ways in which the command that writes a database can end, said once. What holds of every
run of the command is proved by the cases of `Ends`. -/
namespace BuildLog.CommandLine

open Conversion (Log Source Target)

variable {machine cleared : Machine} {options : ConvertOptions}

/-- What the machine is once the way is clear for a database. -/
inductive Clears (machine : Machine) (output : Text) : Machine → Prop
  | stream (hpath : output = standardStream) : Clears machine output machine
  | missing (hpath : output ≠ standardStream) (h : machine.contains output = false) :
    Clears machine output machine
  | removed {place : Files.Location} (hpath : output ≠ standardStream)
    (h : machine.tree.locateFile machine.workingDirectory output = .ok place)
    (hremove : machine.refusal? .remove place = none) :
    Clears machine output (machine.without place)

theorem clearOutput_eq_ok_iff {output : Text} :
    clearOutput machine output = .ok cleared ↔ Clears machine output cleared := by
  unfold clearOutput
  constructor
  · intro h
    split_ifs at h with hpath hcontains
    · cases h
      exact .stream hpath
    · obtain ⟨place, hfile, hremove, rfl⟩ := Machine.removeFile_eq_ok_iff.mp h
      exact .removed hpath hfile hremove
    · cases h
      exact .missing hpath (Bool.eq_false_iff.mpr hcontains)
  · intro h
    cases h with
    | stream hpath => rw [if_pos hpath]
    | missing hpath h => rw [if_neg hpath, h, if_neg Bool.false_ne_true]
    | @removed place hpath h hremove =>
      rw [if_neg hpath, Machine.contains_of_locateFile h, if_pos rfl]
      exact Machine.removeFile_eq_ok_iff.mpr ⟨place, h, hremove, rfl⟩

namespace Clears

variable {output : Text} (h : Clears machine output cleared)

include h

theorem workingDirectory_eq : cleared.workingDirectory = machine.workingDirectory := by
  cases h <;> rfl

theorem refusal?_eq : cleared.refusal? = machine.refusal? := by
  cases h <;> rfl

theorem locateTarget_eq :
    cleared.tree.locateTarget machine.workingDirectory output =
      machine.tree.locateTarget machine.workingDirectory output := by
  cases h with
  | stream | missing => rfl
  | @removed place hpath hfile =>
    have hfree : (machine.without place).tree.get? place ≠ some .directory := by
      rw [Machine.get?_without hfile]
      simp
    rw [Files.Tree.locateTarget_of_locateFile hfile]
    exact (Machine.changesAt_without hfile).locateTarget_of_locateFile hfile hfree

theorem get?_eq {location : Files.Location}
    (hne : output ≠ standardStream →
      machine.tree.locateTarget machine.workingDirectory output ≠ .ok location) :
    cleared.tree.get? location = machine.tree.get? location := by
  cases h with
  | stream | missing => rfl
  | @removed place hpath hfile =>
    apply (Machine.changesAt_without hfile).elsewhere
    rintro rfl
    exact hne hpath (Files.Tree.locateTarget_of_locateFile hfile)

theorem locateFile_eq {path : Text} {place : Files.Location}
    (hfile : machine.tree.locateFile machine.workingDirectory path = .ok place)
    (hne : output = standardStream ∨
      machine.tree.locateFile machine.workingDirectory output ≠ .ok place) :
    cleared.tree.locateFile cleared.workingDirectory path = .ok place := by
  cases h with
  | stream | missing => exact hfile
  | @removed other hpath hother =>
    have hplace : place ≠ other := by
      rintro rfl
      exact hne.elim hpath fun hne => hne hother
    exact (Machine.changesAt_without hother).locateFile_of_ne hfile hplace

end Clears

theorem source_eq_ok_iff {source : Source} {path : Text} :
    Source.ofPath machine path = .ok source ↔
      path = standardStream ∧ source = .input ∨
        path ≠ standardStream ∧
          ∃ location, machine.openFile path = .ok location ∧ source = .file location := by
  unfold Source.ofPath
  by_cases hpath : path = standardStream
  · simp [hpath, eq_comm]
  · rw [if_neg hpath, mapError_eq_ok_iff]
    cases machine.openFile path <;> simp [hpath, Except.map, eq_comm]

theorem exists_of_source_error {path : Text} {error : ConversionError}
    (h : Source.ofPath machine path = .error error) :
    path ≠ standardStream ∧ ∃ cause, error = .unreadable cause ∧
      machine.openFile path = .error cause := by
  unfold Source.ofPath at h
  split at h
  · cases h
  next hpath =>
    refine ⟨hpath, ?_⟩
    cases hfile : machine.openFile path with
    | error cause =>
      rw [hfile] at h
      cases h
      exact ⟨cause, rfl, rfl⟩
    | ok place =>
      rw [hfile] at h
      cases h

theorem exists_of_target_error {path : Text} {error : ConversionError}
    (h : Target.ofPath machine path = .error error) :
    path ≠ standardStream ∧ ∃ cause, error = .unwritable cause ∧
      machine.createFile path = .error cause := by
  unfold Target.ofPath at h
  split at h
  · cases h
  next hpath =>
    refine ⟨hpath, ?_⟩
    cases hfile : machine.createFile path with
    | error cause =>
      rw [hfile] at h
      cases h
      exact ⟨cause, rfl, rfl⟩
    | ok made =>
      rw [hfile] at h
      cases h

theorem cases_of_target {opened : Machine} {target : Target} {path : Text}
    (h : Target.ofPath machine path = .ok (opened, target)) :
    path = standardStream ∧ opened = machine ∧ target = .output ∨
      ∃ place, path ≠ standardStream ∧
        machine.tree.locateTarget machine.workingDirectory path = .ok place ∧
        machine.refusal? (machine.writing place) place = none ∧
        opened = machine.emptied place ∧ target = .file place := by
  cases target with
  | output =>
    obtain ⟨hpath, rfl⟩ := Target.eq_ok_output_iff.mp h
    exact .inl ⟨hpath, rfl, rfl⟩
  | file place =>
    obtain ⟨hpath, hfile⟩ := Target.eq_ok_file_iff.mp h
    obtain ⟨hplace, hwrite, rfl⟩ := Machine.createFile_eq_ok_iff.mp hfile
    exact .inr ⟨place, hpath, hplace, hwrite, rfl, rfl⟩

def statusOf (run : Transcript.Run) (fault : Option Utf8.DecodeError) : Nat :=
  if run.failure.isSome then 3 else if fault.isSome then 1 else 0

def abortOf (run : Transcript.Run) (fault : Option Utf8.DecodeError) : Option Abort :=
  if run.failure.isSome then none else fault.map .decoding

theorem statusOf_none (run : Transcript.Run) : statusOf run none = 0 ∨ statusOf run none = 3 := by
  unfold statusOf
  cases run.failure
  · exact .inl rfl
  · exact .inr rfl

theorem abortOf_none (run : Transcript.Run) : abortOf run none = none := by
  unfold abortOf
  split <;> rfl

theorem statusOf_some (run : Transcript.Run) (error : Utf8.DecodeError) :
    statusOf run (some error) = 3 ∧ abortOf run (some error) = none ∨
      statusOf run (some error) = 1 ∧ abortOf run (some error) = some (.decoding error) := by
  unfold statusOf abortOf
  cases run.failure
  · exact .inr ⟨rfl, rfl⟩
  · exact .inl ⟨rfl, rfl⟩

variable [Console]

inductive Ends (machine : Machine) (options : ConvertOptions) : Outcome → Prop
  | noInput (hpath : options.input ≠ standardStream) (h : machine.isFile options.input = false) :
    Ends machine options (.unchanged machine 1 []
      (echo ("Input file ".toList ++ options.input ++ " does not exist".toList)))
  | kept {error : Files.FileError} (h : clearOutput machine options.output = .error error) :
    Ends machine options
      { machine, status := 1, output := [], errors := [], abort := some (.file error) }
  | unreadable {cleared : Machine} {error : Files.FileError}
    (hpath : options.input ≠ standardStream) (hfound : machine.isFile options.input = true)
    (hclear : Clears machine options.output cleared)
    (h : cleared.openFile options.input = .error error) :
    Ends machine options (.unchanged cleared 1 [] (echo (ConversionError.unreadable error).message))
  | unwritable {cleared : Machine} {error : Files.FileError}
    (hpath : options.output ≠ standardStream)
    (hclear : Clears machine options.output cleared)
    (h : cleared.createFile options.output = .error error) :
    Ends machine options
      { machine := cleared, status := 1, output := [], errors := [], abort := some (.file error) }
  | converted {cleared opened : Machine} {source : Source} {target : Target} {log : Log}
    (hclear : Clears machine options.output cleared)
    (hsource : Source.ofPath cleared options.input = .ok source)
    (htarget : Target.ofPath cleared options.output = .ok (opened, target))
    (hlog : source.read opened = log) :
    Ends machine options (ofConversion options (Conversion.ofRun opened target log.fault
      (Conversion.scan opened options.keepDriver log)))

theorem ofConversion_of_ok {conversion : Conversion} {tally : Transcript.Tally}
    (h : conversion.result = .ok tally) :
    ofConversion options conversion = .unchanged conversion.machine 0
      (conversion.output ++ (report options tally).2)
      (progress options conversion.records ++ (report options tally).1) := by
  unfold ofConversion
  rw [h]

theorem ofConversion_of_unresolved {conversion : Conversion} {error : UnresolvedHeader}
    (h : conversion.result = .error (.unresolved error)) :
    ofConversion options conversion = .unchanged conversion.machine 3 conversion.output
      (progress options conversion.records ++ echo error.message) := by
  unfold ofConversion
  rw [h]

theorem ofConversion_of_undecodable {conversion : Conversion} {error : Utf8.DecodeError}
    (h : conversion.result = .error (.undecodable error)) :
    ofConversion options conversion =
      { machine := conversion.machine, status := 1, output := conversion.output,
        errors := progress options conversion.records, abort := some (.decoding error) } := by
  unfold ofConversion
  rw [h]

theorem exists_told (options : ConvertOptions) (opened : Machine) (target : Target)
    (fault : Option Utf8.DecodeError) (run : Transcript.Run) :
    let conversion := Conversion.ofRun opened target fault run
    ∃ told errors,
      ofConversion options conversion =
        { machine := conversion.machine, status := statusOf run fault,
          output := conversion.output ++ told, errors, abort := abortOf run fault } ∧
      (options.output = standardStream → told = []) := by
  intro conversion
  have hresult := Conversion.result_ofRun opened target fault run
  unfold Conversion.resultOf at hresult
  unfold statusOf abortOf
  cases hfailure : run.failure with
  | some error =>
    rw [hfailure] at hresult
    have hwords : ofConversion options conversion = _ := ofConversion_of_unresolved hresult
    exact ⟨[], _, by rw [List.append_nil]; exact hwords, fun _ => rfl⟩
  | none =>
    rw [hfailure] at hresult
    cases fault with
    | some error =>
      have hwords : ofConversion options conversion = _ := ofConversion_of_undecodable hresult
      exact ⟨[], _, by rw [List.append_nil]; exact hwords, fun _ => rfl⟩
    | none =>
      refine ⟨_, _, ofConversion_of_ok hresult, fun hpath => ?_⟩
      unfold report
      rw [if_pos hpath]

@[simp] theorem progress_nil (options : ConvertOptions) : progress options [] = [] := by
  unfold progress
  split <;> rfl

theorem ends_runConvert (machine : Machine) (options : ConvertOptions) :
    Ends machine options (runConvert machine options) := by
  unfold runConvert
  split
  next h =>
    rw [Bool.not_eq_true'] at h
    exact .noInput h.1 h.2
  next h =>
    split
    next error hclear => exact .kept hclear
    next cleared hclear =>
      rw [clearOutput_eq_ok_iff] at hclear
      unfold convert
      cases hsource : Source.ofPath cleared options.input with
      | error error =>
        obtain ⟨hpath, cause, rfl, hfile⟩ := exists_of_source_error hsource
        rw [not_and, Bool.not_eq_true', Bool.not_eq_false] at h
        have hend : Ends machine options _ := .unreadable hpath (h hpath) hclear hfile
        simpa [ofConversion, Conversion.failed] using hend
      | ok source =>
        cases htarget : Target.ofPath cleared options.output with
        | error error =>
          obtain ⟨hpath, cause, rfl, hfile⟩ := exists_of_target_error htarget
          have hend : Ends machine options _ := .unwritable hpath hclear hfile
          simpa [ofConversion, Conversion.failed] using hend
        | ok made => exact .converted hclear hsource htarget rfl

end BuildLog.CommandLine
