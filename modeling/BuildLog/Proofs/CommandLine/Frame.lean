import BuildLog.Proofs.CommandLine.Converting
import BuildLog.Proofs.Json.Printing
import BuildLog.Text.Quoted

/-! What the command that writes a database leaves alone. It changes the one place that its output
names, and a run that fails for a reason of the file system changes nothing, unless the log was
removed to make room for its own database. A log that may not be read is found out too late. -/
namespace BuildLog

namespace Text

/-- A quoted text shows as it is on any console. -/
theorem escape_not_mem_quoted (text : Text) : '\x1b' ∉ quoted text := by
  have hdigits (width n : Nat) : '\x1b' ∉ hexDigits width n := fun h =>
    absurd (Json.isHexDigit_of_mem h) (by decide)
  have hchar {mark : Char} (hmark : '\x1b' ≠ mark) (c : Char) : '\x1b' ∉ quotedChar mark c := by
    unfold quotedChar
    split_ifs with hself hn hr ht hprint hbyte hshort
    · rcases hself with rfl | rfl <;> simp [hmark]
    · decide
    · decide
    · decide
    · rw [List.mem_singleton]
      rintro rfl
      exact absurd hprint (by decide)
    all_goals simp [hdigits]
  have hmark : '\x1b' ≠ if '\'' ∈ text ∧ '"' ∉ text then '"' else '\'' := by
    split_ifs <;> decide
  unfold quoted
  simp only [List.cons_append, List.mem_cons, List.mem_append, List.mem_flatMap,
    List.not_mem_nil, or_false, not_or, not_exists, not_and]
  exact ⟨hmark, fun c _ => hchar hmark c, hmark⟩

end Text

theorem Files.message_noEntry (path : Text) : FileError.message ⟨.noEntry, path⟩ =
    "[Errno 2] No such file or directory: ".toList ++ Text.quoted path := by
  have hnumber : Text.decimal 2 = ['2'] := by decide
  unfold FileError.message
  dsimp only [Cause.number, Cause.message]
  rw [hnumber]
  rfl

namespace CommandLine

open Conversion (Source Target)

variable {machine : Machine} {options : ConvertOptions} {outcome : Outcome}

/-- The log and the database are one file, however their paths are spelled. -/
structure IsOneFile (machine : Machine) (options : ConvertOptions) (place : Files.Location) :
    Prop where
  input_ne : options.input ≠ standardStream
  output_ne : options.output ≠ standardStream
  input : machine.tree.locateFile machine.workingDirectory options.input = .ok place
  output : machine.tree.locateFile machine.workingDirectory options.output = .ok place

/-- The system lets the log be read, and lets the database be made in the place of an old one. -/
structure Grants (machine : Machine) (options : ConvertOptions) : Prop where
  input : ∀ place, options.input ≠ standardStream →
    machine.tree.locateFile machine.workingDirectory options.input = .ok place →
    machine.refusal? .read place = none
  output : ∀ place, options.output ≠ standardStream →
    machine.tree.locateTarget machine.workingDirectory options.output = .ok place →
    ∀ access, machine.refusal? access place = none

theorem IsOneFile.clears {place : Files.Location} (h : IsOneFile machine options place)
    (hremove : machine.refusal? .remove place = none) :
    Clears machine options.output (machine.without place) :=
  .removed h.output_ne h.output hremove

theorem Grants.remove {place : Files.Location} (h : Grants machine options)
    (hone : IsOneFile machine options place) : machine.refusal? .remove place = none :=
  h.output place hone.output_ne (Files.Tree.locateTarget_of_locateFile hone.output) _

theorem exists_abort_of_status {run : Transcript.Run} {fault : Option Utf8.DecodeError}
    (h : statusOf run fault = 1) : ∃ error, abortOf run fault = some (.decoding error) := by
  unfold statusOf abortOf at *
  cases hfailure : run.failure <;> cases fault <;> simp_all

section

variable [Console]

namespace Ends

variable (h : Ends machine options outcome)

include h

theorem get?_eq {location : Files.Location}
    (hne : options.output ≠ standardStream →
      machine.tree.locateTarget machine.workingDirectory options.output ≠ .ok location) :
    outcome.machine.tree.get? location = machine.tree.get? location := by
  cases h with
  | noInput | kept => rfl
  | unreadable _ _ hclear _ => exact hclear.get?_eq hne
  | unwritable _ hclear _ => exact hclear.get?_eq hne
  | @converted cleared opened source target log hclear hsource htarget =>
    obtain ⟨told, errors, htold, -⟩ := exists_told options opened target log.fault
      (Conversion.scan opened options.keepDriver log)
    rw [htold, ← hclear.get?_eq hne]
    obtain ⟨-, rfl, rfl⟩ | ⟨place, hpath, hplace, -, rfl, rfl⟩ := cases_of_target htarget
    · rfl
    · have hlocation : location ≠ place := by
        rintro rfl
        rw [hclear.workingDirectory_eq, hclear.locateTarget_eq] at hplace
        exact hne hpath hplace
      exact (Machine.get?_write hlocation _).trans (Machine.get?_emptied hlocation)

theorem machine_eq_of_stream (hpath : options.output = standardStream) :
    outcome.machine = machine := by
  have hcleared {cleared : Machine} (hclear : Clears machine options.output cleared) :
      cleared = machine := by
    cases hclear with
    | stream | missing => rfl
    | removed hne => exact absurd hpath hne
  cases h with
  | noInput | kept => rfl
  | unreadable _ _ hclear _ => exact hcleared hclear
  | unwritable _ hclear _ => exact hcleared hclear
  | @converted cleared opened source target log hclear hsource htarget =>
    obtain ⟨told, errors, htold, -⟩ := exists_told options opened target log.fault
      (Conversion.scan opened options.keepDriver log)
    rw [htold]
    obtain ⟨-, rfl, rfl⟩ | ⟨place, hne, -⟩ := cases_of_target htarget
    · exact hcleared hclear
    · exact absurd hpath hne

/-- A file that was removed can be made again, so only what is read of it can be missing. -/
theorem machine_eq_of_status (hgrants : Grants machine options) (hstatus : outcome.status = 1)
    (hdecoded : ∀ error, outcome.abort ≠ some (.decoding error))
    (hapart : ∀ place, ¬ IsOneFile machine options place) : outcome.machine = machine := by
  cases h with
  | noInput | kept => rfl
  | @unreadable cleared error hpath hfound hclear h =>
    obtain ⟨place, hinput⟩ := Machine.isFile_iff.mp hfound
    have houtput : options.output = standardStream ∨
        machine.tree.locateFile machine.workingDirectory options.output ≠ .ok place := by
      by_cases hstream : options.output = standardStream
      · exact .inl hstream
      · exact .inr fun houtput => hapart place ⟨hpath, hstream, hinput, houtput⟩
    have hread : cleared.refusal? .read place = none := by
      rw [hclear.refusal?_eq]
      exact hgrants.input place hpath hinput
    have hopen : cleared.openFile options.input = .ok place :=
      Machine.openFile_eq_ok_iff.mpr ⟨hclear.locateFile_eq hinput houtput, hread⟩
    rw [hopen] at h
    cases h
  | unwritable hpath hclear h =>
    cases hclear with
    | stream | missing => rfl
    | @removed place _ hfile hremove =>
      have hclear : Clears machine options.output (machine.without place) :=
        .removed hpath hfile hremove
      have hplace := Files.Tree.locateTarget_of_locateFile hfile
      have hmade : (machine.without place).createFile options.output = .ok (_, place) :=
        Machine.createFile_eq_ok_iff.mpr
          ⟨hclear.locateTarget_eq.trans hplace, hgrants.output place hpath hplace _, rfl⟩
      rw [hmade] at h
      cases h
  | @converted cleared opened source target log hclear hsource htarget =>
    obtain ⟨told, errors, htold, -⟩ := exists_told options opened target log.fault
      (Conversion.scan opened options.keepDriver log)
    rw [htold] at hstatus hdecoded
    obtain ⟨error, herror⟩ := exists_abort_of_status hstatus
    exact absurd herror (hdecoded error)

end Ends

theorem runConvert_of_unreadable {cleared : Machine} {error : Files.FileError}
    (hpath : options.input ≠ standardStream) (hfound : machine.isFile options.input = true)
    (hclear : Clears machine options.output cleared)
    (h : cleared.openFile options.input = .error error) :
    runConvert machine options = .unchanged cleared 1 []
      (echo (ConversionError.unreadable error).message) := by
  have hsource : Source.ofPath cleared options.input = .error (.unreadable error) := by
    unfold Source.ofPath
    rw [if_neg hpath, h]
    rfl
  unfold runConvert convert
  rw [if_neg (by simp [hfound]), clearOutput_eq_ok_iff.mpr hclear]
  simp only [hsource]
  simp [ofConversion, Conversion.failed]

theorem runConvert_of_isOneFile {place : Files.Location} (h : IsOneFile machine options place)
    (hgrants : Grants machine options) :
    runConvert machine options = .unchanged (machine.without place) 1 []
      (echo (ConversionError.unreadable ⟨.noEntry, options.input⟩).message) := by
  have hchanges := Machine.changesAt_without h.input
  have hnone := Machine.get?_without h.input
  refine runConvert_of_unreadable h.input_ne (Machine.isFile_iff.mpr ⟨place, h.input⟩)
    (h.clears (hgrants.remove h)) (Machine.openFile_of_locateFile_error
      (hchanges.locateFile_of_none h.input hnone) fun other hother => ?_)
  obtain hlocate | hlocate := hchanges.locate_of_none h.input hnone
  · cases hlocate.symm.trans hother
    exact hgrants.input _ h.input_ne h.input
  · cases hlocate.symm.trans hother

end

section

variable [Console]

/-- A log that may not be read is not missed before the way is clear. A database that was there is
gone then, and nothing takes its place. -/
theorem runConvert_of_refused_log {place old : Files.Location} {refusal : Files.Refusal}
    (hpath : options.input ≠ standardStream) (houtput : options.output ≠ standardStream)
    (hinput : machine.tree.locateFile machine.workingDirectory options.input = .ok place)
    (hread : machine.refusal? .read place = some refusal)
    (hold : machine.tree.locateFile machine.workingDirectory options.output = .ok old)
    (hremove : machine.refusal? .remove old = none) (hne : old ≠ place) :
    runConvert machine options = .unchanged (machine.without old) 1 []
      (echo (ConversionError.unreadable ⟨.refused refusal, options.input⟩).message) := by
  have hclear : Clears machine options.output (machine.without old) :=
    .removed houtput hold hremove
  have hother : machine.tree.locateFile machine.workingDirectory options.output ≠ .ok place := by
    intro heq
    exact hne (Except.ok.inj (hold.symm.trans heq))
  exact runConvert_of_unreadable hpath (Machine.isFile_iff.mpr ⟨place, hinput⟩) hclear
    (Machine.openFile_of_refusal (hclear.locateFile_eq hinput (.inr hother)) hread)

end

end CommandLine
end BuildLog
