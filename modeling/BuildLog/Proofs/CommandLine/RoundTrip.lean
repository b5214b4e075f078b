import BuildLog.Proofs.CommandLine.Converting
import BuildLog.Proofs.CommandLine.Listing
import BuildLog.Proofs.Transcript.Accounting
import BuildLog.Proofs.Transcript.OneLine

/-! A database that one command has written and the other one prints. The two meet at the file: it
holds the text of the records that the first command has made, and the second one finds them in
it. -/
namespace BuildLog

theorem Transcript.tally_scan (setting : Setting) (registry : Header.Registry) (lines : List Text) :
    let run := (Scanner.start registry).scan setting lines
    run.scanner.tally.records = run.records.length := by
  intro run
  have hbalanced : Session.Balanced _ ((Session.start registry).take setting (.scan lines)) _ :=
    (Session.Balanced.start registry).take (.scan lines)
  have hrecords := hbalanced.records
  unfold Session.take at hrecords
  rw [Session.receive_eq] at hrecords
  exact hrecords

namespace Conversion

variable {machine : Machine} {keepDriver : Bool} {log : Log}

theorem Source.not_mem_of_mem_read {source : Source} {line : Text}
    (h : line ∈ (source.read machine).lines) : '\n' ∉ line := by
  cases source with
  | input =>
    unfold Source.read Log.ofChunks at h
    dsimp only at h
    split at h
    · exact Text.not_mem_of_mem_lines ((Text.completeLines_prefix _).subset h)
    · exact Text.not_mem_of_mem_lines h
  | file location => exact Text.not_mem_of_mem_lines h

theorem isOneLine_of_mem_scan (hlog : ∀ line ∈ log.lines, '\n' ∉ line) {record : Record}
    (h : record ∈ (scan machine keepDriver log).records) : record.IsOneLine := by
  rw [records_scan] at h
  refine Transcript.isOneLine_of_mem_records ?_ Header.Registry.isOneLine_empty h
  intro line hline hc
  obtain ⟨raw, hraw, rfl⟩ := List.mem_map.mp hline
  have htrim : Text.trimLineEnd raw <+: raw := List.rdropWhile_prefix _ _
  exact hlog raw hraw (htrim.subset hc)

end Conversion

namespace CommandLine

open Conversion (Source Target)

variable {machine cleared : Machine} {options : ConvertOptions}

def recordsMade (machine : Machine) (options : ConvertOptions) : List Record :=
  match clearOutput machine options.output with
  | .error _ => []
  | .ok cleared =>
    (convert cleared options.input options.output options.keepDriver).records

theorem statusOf_eq_zero_iff {run : Transcript.Run} {fault : Option Utf8.DecodeError} :
    statusOf run fault = 0 ↔ run.failure = none ∧ fault = none := by
  unfold statusOf
  cases run.failure <;> cases fault <;> simp

theorem Clears.get?_eq_none {output : Text} {place : Files.Location}
    (h : Clears machine output cleared) (hpath : output ≠ standardStream)
    (hplace : cleared.tree.locateTarget cleared.workingDirectory output = .ok place) :
    cleared.tree.get? place = none := by
  cases h with
  | stream h => exact absurd h hpath
  | missing _ hmissing =>
    obtain ⟨hfree, directory, name, hnames⟩ := Files.Tree.exists_names_of_locateTarget hplace
    cases hnode : machine.tree.get? place with
    | none => rfl
    | some node =>
      cases node with
      | directory => exact absurd hnode hfree
      | file content =>
        have hfound := Machine.contains_of_locateFile (hnames.locateFile_of_file hnode)
        rw [hmissing] at hfound
        cases hfound
  | @removed old _ hold hremove =>
    have hclear : Clears machine output (machine.without old) := .removed hpath hold hremove
    rw [hclear.workingDirectory_eq, hclear.locateTarget_eq,
      Files.Tree.locateTarget_of_locateFile hold] at hplace
    cases hplace
    exact Machine.get?_without hold

theorem openFile_write {path : Text} {place : Files.Location}
    (h : cleared.tree.locateTarget cleared.workingDirectory path = .ok place)
    (hnone : cleared.tree.get? place = none) (content : List UInt8) :
    let written := (cleared.emptied place).write place content
    written.openFile path = .ok place ∧ written.tree.contentAt place = content := by
  intro written
  have hfree : cleared.tree.get? place ≠ some .directory := by simp [hnone]
  have hroot : place ≠ [] := Files.Tree.ne_nil_of_not_directory hfree
  have htree : written.tree = (cleared.tree.insert place _).insert place (.file content) :=
    congrArg (Files.Tree.insert · place _) (cleared.emptied_tree place)
  have hdirectory : written.workingDirectory = cleared.workingDirectory :=
    cleared.emptied_workingDirectory place
  have hchanges : Files.Tree.ChangesAt place cleared.tree written.tree := by
    rw [htree]
    exact ((Files.Tree.changesAt_refl hfree).insert _).insert _
  have hfile : written.tree.get? place = some (.file content) := by
    rw [htree, Files.Tree.get?_insert, if_neg hroot, if_pos rfl]
  have hfound := hchanges.locateFile_of_locateTarget h hfile
  rw [← hdirectory] at hfound
  refine ⟨Machine.openFile_eq_ok_iff.mpr ⟨hfound, Machine.refusal?_emptied hnone .read⟩, ?_⟩
  unfold Files.Tree.contentAt
  rw [hfile]

section

variable [Console]

structure Writes (machine : Machine) (options : ConvertOptions) (outcome : Outcome) : Prop where
  file : ∃ place, outcome.machine.openFile options.output = .ok place ∧
    outcome.machine.tree.contentAt place =
      Utf8.encode (Database.print (recordsMade machine options))
  output : outcome.output = echo ("Wrote ".toList ++
    Text.decimal (recordsMade machine options).length ++ " records to ".toList ++ options.output)
  isOneLine : ∀ record ∈ recordsMade machine options, record.IsOneLine

theorem writes_runConvert (hpath : options.output ≠ standardStream)
    (hstatus : (runConvert machine options).status = 0) :
    Writes machine options (runConvert machine options) := by
  have hends := ends_runConvert machine options
  generalize runConvert machine options = outcome at hends hstatus
  cases hends with
  | noInput | kept | unreadable | unwritable => cases hstatus
  | @converted cleared opened source target log hclear hsource htarget hlog =>
    subst hlog
    have hrecords : recordsMade machine options =
        (Conversion.scan opened options.keepDriver (source.read opened)).records := by
      unfold recordsMade
      rw [clearOutput_eq_ok_iff.mpr hclear]
      dsimp only
      rw [Conversion.convert_eq hsource htarget, Conversion.records_ofRun]
    obtain ⟨told, errors, htold, -⟩ := exists_told options opened target
      (source.read opened).fault (Conversion.scan opened options.keepDriver (source.read opened))
    rw [htold] at hstatus
    obtain ⟨hfailure, hfault⟩ := statusOf_eq_zero_iff.mp hstatus
    have hlines : ∀ record ∈ recordsMade machine options, record.IsOneLine := by
      rw [hrecords]
      exact fun _ => Conversion.isOneLine_of_mem_scan fun _ => Source.not_mem_of_mem_read
    have hcount : (Conversion.scan opened options.keepDriver
        (source.read opened)).scanner.tally.records = (recordsMade machine options).length := by
      rw [hrecords]
      unfold Conversion.scan
      rw [if_pos (by rw [hfault]; rfl)]
      exact Transcript.tally_scan _ _ _
    obtain ⟨hstream, -⟩ | ⟨place, -, hplace, -, rfl, rfl⟩ := cases_of_target htarget
    · exact absurd hstream hpath
    have hresult := Conversion.result_ofRun (cleared.emptied place) (.file place)
      (source.read (cleared.emptied place)).fault (Conversion.scan (cleared.emptied place)
        options.keepDriver (source.read (cleared.emptied place)))
    rw [hfault, Conversion.resultOf_of_none hfailure] at hresult
    rw [hfault, ofConversion_of_ok hresult]
    refine ⟨⟨place, ?_⟩, ?_, hlines⟩
    · rw [hrecords]
      exact openFile_write hplace (hclear.get?_eq_none hpath hplace) _
    · change [] ++ (report options _).2 = _
      unfold report
      rw [if_neg hpath, List.nil_append, hcount]

theorem not_mem_listing {record : Record} (h : record.IsOneLine) :
    '\n' ∉ Console.shown (listing record) := by
  intro hc
  rcases List.mem_append.mp (Console.mem_of_mem_shown hc) with hc | hc
  · exact h.file hc
  rcases List.mem_cons.mp hc with hc | hc
  · cases hc
  · exact h.command hc

/-- A database that was written to a file is listed without a fault, one line for each record: its
file, a tab and its command, without what the console leaves out. The lines are as many as the
writer has told. -/
theorem runList_of_runConvert (machine : Machine) (options : ConvertOptions)
    (hpath : options.output ≠ standardStream) (hstatus : (runConvert machine options).status = 0)
    (huncut : (recordsMade machine options).all Record.isUncut = true) :
    let outcome := runConvert machine options
    let listed := runList outcome.machine ⟨options.output, []⟩
    let records := recordsMade machine options
    listed = .unchanged outcome.machine 0
        (records.flatMap fun record =>
          Console.shown (record.file ++ '\t' :: record.command) ++ ['\n']) [] ∧
      Text.lines listed.output =
        records.map (fun record => Console.shown (record.file ++ '\t' :: record.command)) ∧
      listed.output.count '\n' = records.length ∧
      outcome.output = "Wrote ".toList ++ Nat.toDigits 10 (listed.output.count '\n') ++
        " records to ".toList ++ Console.shown options.output ++ ['\n'] := by
  intro outcome listed records
  obtain ⟨⟨place, hfile, hcontent⟩, houtput, hlines⟩ := writes_runConvert hpath hstatus
  have hdatabase :
      outcome.machine.openFile (ListOptions.mk options.output []).database = .ok place := hfile
  have hlisted : listed = _ := runList_of_print huncut rfl hdatabase hcontent
  have hshown : ∀ record ∈ records, '\n' ∉ Console.shown (listing record) :=
    fun record hrecord => not_mem_listing (hlines record hrecord)
  have hcount : listed.output.count '\n' = records.length := by
    rw [hlisted]
    exact Text.count_flatMap hshown
  refine ⟨hlisted, ?_, hcount, ?_⟩
  · rw [hlisted]
    exact Text.lines_flatMap hshown
  · have hdigits : '\x1b' ∉ Text.decimal records.length := fun h =>
      absurd (Text.isDigit_of_mem_decimal h) (by decide)
    have hfront : '\x1b' ∉
        "Wrote ".toList ++ Text.decimal records.length ++ " records to ".toList := by
      simpa [List.mem_append] using hdigits
    rw [hcount]
    exact houtput.trans ((echo_append hfront _).trans (List.append_assoc _ _ _).symm)

end

/-- A log on the standard input becomes a database of two records, and a colour in the name of a
file is not shown. -/
theorem runList_of_runConvert_two_records :
    letI := Console.stripping
    let log := "CompileC\n    cd /w\nclang -c é\x1b[31m.m -o o\n".toList ++
      "CompileC\n    cd /w\ngcc -c b.c -o p\n".toList
    let machine : Machine := .permissive ⟨[]⟩ [] [Utf8.encode log]
    let outcome := runConvert machine ⟨standardStream, "db".toList, true, true⟩
    let listed := runList outcome.machine ⟨"db".toList, []⟩
    outcome.status = 0 ∧ outcome.output = "Wrote 2 records to db\n".toList ∧
      listed.status = 0 ∧
      listed.output = "é.m\tclang -c é.m -o o\nb.c\tgcc -c b.c -o p\n".toList := by
  let _ : Console := Console.stripping
  intro log machine outcome listed
  have hmade : recordsMade machine ⟨standardStream, "db".toList, true, true⟩ =
      [⟨"/w".toList, "é\x1b[31m.m".toList, "clang -c é\x1b[31m.m -o o".toList⟩,
        ⟨"/w".toList, "b.c".toList, "gcc -c b.c -o p".toList⟩] := by decide +kernel
  have hstatus : outcome.status = 0 := by decide +kernel
  have huncut : (recordsMade machine ⟨standardStream, "db".toList, true, true⟩).all
      Record.isUncut = true := by
    rw [hmade]
    decide
  have hcolour : Text.IsCommonSequence "\x1b[31m".toList :=
    Text.IsCommonSequence.intro (by simp : ∀ c ∈ "31".toList, _) (by decide : 'm'.isAlpha = true)
  have hshown : Console.shown ("é".toList ++ ("\x1b[31m".toList ++ (".m\tclang -c é".toList ++
      ("\x1b[31m".toList ++ ".m -o o".toList)))) = "é.m\tclang -c é.m -o o".toList := by
    rw [Console.shown_append _ (by decide +kernel), Console.shown_sequence _ hcolour,
      Console.shown_append _ (by decide +kernel), Console.shown_sequence _ hcolour,
      Console.shown_of_not_mem (by decide +kernel)]
    rfl
  have hplain : Console.shown "b.c\tgcc -c b.c -o p".toList = "b.c\tgcc -c b.c -o p".toList :=
    Console.shown_of_not_mem (by decide)
  obtain ⟨hlisted, -, hcount, houtput⟩ := runList_of_runConvert machine
    ⟨standardStream, "db".toList, true, true⟩ (by decide) hstatus huncut
  rw [hmade] at hlisted hcount
  rw [hcount, Console.shown_of_not_mem (by decide)] at houtput
  refine ⟨hstatus, houtput.trans (by decide), congrArg Outcome.status hlisted,
    (congrArg Outcome.output hlisted).trans ?_⟩
  exact congrArg₂ (fun first second => (first ++ ['\n']) ++ ((second ++ ['\n']) ++ []))
    hshown hplain

end CommandLine
end BuildLog
