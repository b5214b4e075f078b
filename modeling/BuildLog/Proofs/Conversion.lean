import BuildLog.Conversion
import BuildLog.Proofs.Database.Contents
import BuildLog.Proofs.Machine
import BuildLog.Proofs.Text.Chunks

/-! What a conversion leaves at its output, whether it ends well or stops half-way: the database of
the records it has made. It is a document unless one of their strings is cut. -/
namespace BuildLog

namespace Conversion

open Json Database

theorem Log.ofChunks_encode (text : Text) :
    Log.ofChunks [Utf8.encode text] = ⟨Text.lines text, none⟩ := by
  unfold Log.ofChunks
  rw [Utf8.readChunks_encode]
  rfl

theorem Target.eq_ok_file_iff {machine opened : Machine} {path : Text}
    {location : Files.Location} : Target.ofPath machine path = .ok (opened, .file location) ↔
      path ≠ standardStream ∧ machine.createFile path = .ok (opened, location) := by
  unfold Target.ofPath
  by_cases hpath : path = standardStream
  · simp [hpath]
  · rw [if_neg hpath, mapError_eq_ok_iff]
    cases machine.createFile path <;> simp [hpath, Except.map, Prod.ext_iff]

theorem Target.eq_ok_output_iff {machine opened : Machine} {path : Text} :
    Target.ofPath machine path = .ok (opened, .output) ↔
      path = standardStream ∧ opened = machine := by
  unfold Target.ofPath
  by_cases hpath : path = standardStream
  · simp [hpath, eq_comm]
  · rw [if_neg hpath, mapError_eq_ok_iff]
    cases machine.createFile path <;> simp [hpath, Except.map]

theorem Target.location_ne_nil {machine opened : Machine} {path : Text} {location : Files.Location}
    (h : Target.ofPath machine path = .ok (opened, .file location)) : location ≠ [] :=
  Files.Tree.locateTarget_ne_nil
    (Machine.createFile_eq_ok_iff.mp (Target.eq_ok_file_iff.mp h).2).1

/-- The text that is left where a database was to be written. -/
def textAt (conversion : Conversion) : Target → Except Utf8.DecodeError Text
  | .output => .ok conversion.output
  | .file location => Utf8.decodeStrict (conversion.machine.tree.contentAt location)

theorem textAt_ofRun {machine opened : Machine} {path : Text} {target : Target}
    (h : Target.ofPath machine path = .ok (opened, target)) (fault : Option Utf8.DecodeError)
    (run : Transcript.Run) :
    (ofRun opened target fault run).textAt target = .ok (print run.records) := by
  cases target with
  | output => rfl
  | file location =>
    have hne := Target.location_ne_nil h
    change Utf8.decodeStrict ((opened.tree.insert location
      (.file (Utf8.encode (print run.records)))).contentAt location) = _
    rw [Files.Tree.contentAt_insert _ hne, Utf8.decodeStrict_encode]

section

variable (machine : Machine) (target : Target) (fault : Option Utf8.DecodeError)
  (run : Transcript.Run)

theorem records_ofRun : (ofRun machine target fault run).records = run.records := by
  cases target <;> rfl

theorem result_ofRun : (ofRun machine target fault run).result = resultOf run fault := by
  cases target <;> rfl

end

theorem convert_eq {machine opened : Machine} {input output : Text} {source : Source}
    {target : Target} (hsource : Source.ofPath machine input = .ok source)
    (htarget : Target.ofPath machine output = .ok (opened, target)) (keepDriver : Bool) :
    convert machine input output keepDriver =
      ofRun opened target (source.read opened).fault
        (scan opened keepDriver (source.read opened)) := by
  unfold convert
  simp only [hsource, htarget]

/-- Once both its files are open a conversion leaves a text of the records that it has made, also
if it stops at a header that stands for nothing or at a fault of its input. The text is a document
exactly if no string of a record is cut, and then it holds those records and nothing else. -/
theorem convert_leaves_database {machine opened : Machine} {input output : Text} {source : Source}
    {target : Target} (hsource : Source.ofPath machine input = .ok source)
    (htarget : Target.ofPath machine output = .ok (opened, target)) (keepDriver : Bool) :
    let log := source.read opened
    let run := scan opened keepDriver log
    let conversion := convert machine input output keepDriver
    conversion.records = run.records ∧
      (conversion.result = match run.failure, log.fault with
        | some error, _ => .error (.unresolved error)
        | none, some error => .error (.undecodable error)
        | none, none => .ok run.scanner.tally) ∧
      ∃ text, conversion.textAt target = .ok text ∧
        (IsDocument text ↔ ∀ record ∈ conversion.records, record.isUncut = true) ∧
        ((∀ record ∈ conversion.records, record.isUncut = true) →
          Json.read text = .ok (.array (conversion.records.map Record.toJson))) := by
  intro log run conversion
  have hconversion : conversion = ofRun opened target log.fault run :=
    convert_eq hsource htarget keepDriver
  rw [hconversion, records_ofRun, result_ofRun]
  refine ⟨rfl, rfl, print run.records, textAt_ofRun htarget log.fault run, ?_, ?_⟩
  · rw [isDocument_print_iff, List.all_eq_true]
  · intro huncut
    exact read_print (List.all_eq_true.mpr huncut)

theorem convert_leaves_database_half_way :
    let log := "CompileC\n    cd /w\nclang -c é.m -DQ=\"\\ \" -o o\n".toList ++
      "CompileC\n    cd /w\nclang -include p.h -c b.m -o o\n".toList
    let record : Record := ⟨"/w".toList, "é.m".toList, "-c é.m \"-DQ=\\\" \\\"\" -o o".toList⟩
    let machine : Machine := .permissive ⟨[]⟩ [] [Utf8.encode log]
    let opened := machine.emptied ["db".toList]
    let conversion := convert machine standardStream "db".toList false
    Source.ofPath machine standardStream = .ok .input ∧
      Target.ofPath machine "db".toList = .ok (opened, .file ["db".toList]) ∧
      conversion.result = .error (.unresolved ⟨"p.h".toList⟩) ∧
      ∃ text, conversion.textAt (.file ["db".toList]) = .ok text ∧ IsDocument text ∧
        Json.read text = .ok (.array [record.toJson]) := by
  intro log record machine opened conversion
  have hsource : Source.ofPath machine standardStream = .ok .input := rfl
  have htarget : Target.ofPath machine "db".toList = .ok (opened, .file ["db".toList]) := rfl
  have hlog : Source.read opened .input = ⟨Text.lines log, none⟩ := Log.ofChunks_encode log
  have hrecords : (scan opened false ⟨Text.lines log, none⟩).records = [record] := by decide
  have hfailure : (scan opened false ⟨Text.lines log, none⟩).failure = some ⟨"p.h".toList⟩ := by
    decide
  have huncut : ∀ other ∈ [record], other.isUncut = true := by decide
  obtain ⟨hmade, hresult, text, htext, hdocument, hread⟩ :=
    convert_leaves_database hsource htarget false
  rw [hlog, hrecords] at hmade
  rw [hmade] at hdocument hread
  rw [hlog, hfailure] at hresult
  exact ⟨hsource, htarget, hresult, text, htext, hdocument.mpr huncut, hread huncut⟩

/-- A line separator in the name of a source file is cut where the database is laid out, and what
is left is no document. -/
theorem convert_leaves_no_document :
    let log := "CompileC\n    cd /w\nclang -c a\u2028b.m -o o\n".toList
    let machine : Machine := .permissive ⟨[]⟩ [] [Utf8.encode log]
    let conversion := convert machine standardStream standardStream false
    conversion.result = .ok ⟨1, 0, 0, 0, false⟩ ∧
      conversion.records =
        [⟨"/w".toList, "a\u2028b.m".toList, "-c a\u2028b.m -o o".toList⟩] ∧
      ¬ IsDocument conversion.output := by
  intro log machine conversion
  let run := scan machine false ⟨Text.lines log, none⟩
  have hlog : Source.read machine .input = ⟨Text.lines log, none⟩ := Log.ofChunks_encode log
  have hconversion : conversion = ofRun machine .output (Source.read machine .input).fault
      (scan machine false (Source.read machine .input)) := convert_eq rfl rfl false
  have hrecords : run.records =
      [⟨"/w".toList, "a\u2028b.m".toList, "-c a\u2028b.m -o o".toList⟩] := by decide
  have hresult : resultOf run none = .ok ⟨1, 0, 0, 0, false⟩ := by decide
  have houtput : (ofRun machine .output none run).output = print run.records := rfl
  rw [hconversion, hlog]
  refine ⟨hresult, hrecords, ?_⟩
  rw [houtput, hrecords, isDocument_print_iff]
  decide

end Conversion

end BuildLog
