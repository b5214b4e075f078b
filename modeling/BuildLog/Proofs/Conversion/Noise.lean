import BuildLog.Proofs.Conversion.Interrupted
import BuildLog.Proofs.Transcript.Noise

/-! The lines of a log that belong to no block. They can be put into the log, and all that were
skipped can be taken out of it: every conversion makes the same records and leaves the same
database, and only the count of skipped lines is another one. -/
namespace BuildLog

namespace Conversion

open Transcript (Call FailsBehind Run Scanner Session exists_failsBehind_scan)

variable {machine opened : Machine} {input output : Text} {source : Source} {target : Target}

/-- Lines of a log can be written into a log of their own, which ends in the same fault if the log
ends in one. -/
theorem Source.exists_relogged (source : Source) (machine : Machine) {log : Log}
    (hfault : log.fault = (source.read machine).fault)
    (hfeeds : ∀ line ∈ log.lines, '\n' ∉ line)
    (hreturns : source ≠ .input → ∀ line ∈ log.lines, '\r' ∉ line) :
    ∃ other, source.Relogged machine log other := by
  obtain ⟨lines, fault⟩ := log
  have hlines : Text.lines (lines.flatMap fun line => line ++ ['\n']) = lines :=
    (Text.lines_flatMap hfeeds).trans (List.map_id lines)
  cases source with
  | input =>
    obtain ⟨chunks, hread⟩ :=
      Utf8.exists_readChunks_eq machine.input (lines.flatMap fun line => line ++ ['\n'])
    have hlog : Log.ofChunks chunks = ⟨lines, fault⟩ := by
      unfold Log.ofChunks
      rw [hread]
      cases hfault
      dsimp only [Source.read, Log.ofChunks]
      rw [hlines, Text.completeLines_flatMap hfeeds, ite_self]
    exact ⟨_, .input hlog⟩
  | file location =>
    have hlog : Log.ofContent (Utf8.encode (lines.flatMap fun line => line ++ ['\n'])) =
        ⟨lines, fault⟩ := by
      cases hfault
      unfold Log.ofContent
      rw [Utf8.decodeReplacing_encode, Text.unifyNewlines_of_not_mem, hlines]
      rw [List.mem_flatMap]
      rintro ⟨line, hline, hmem⟩
      simp [hreturns nofun line hline] at hmem
    exact ⟨_, .file hlog⟩

theorem Source.feed_not_mem_of_mem_lines {line : Text} (h : line ∈ source.lines machine) :
    '\n' ∉ line := by
  cases source with
  | input => exact Text.not_mem_of_mem_lines ((Log.lines_ofChunks_prefix machine.input).subset h)
  | file location => exact Text.not_mem_of_mem_lines h

theorem Source.return_not_mem_of_mem_lines {line : Text} (h : line ∈ source.lines machine)
    (hne : source ≠ .input) : '\r' ∉ line := by
  intro hreturn
  cases source with
  | input => exact hne rfl
  | file location => exact Text.return_not_mem_unifyNewlines _ (Text.mem_of_mem_lines hreturn h)

theorem fault_opened (source : Source) (target : Target) (machine : Machine) :
    (source.read (target.opened machine)).fault = (source.read machine).fault := by
  cases source with
  | file location => rfl
  | input =>
    cases target with
    | output => rfl
    | file location =>
      unfold Source.read Target.opened
      rw [Machine.emptied_input]

theorem resultOf_skip {run : Run} (h : run.scanner.tally.skipped = 0) (count : Nat)
    (fault : Option Utf8.DecodeError) :
    resultOf run fault = (resultOf (run.skip count) fault).map fun tally =>
      { tally with skipped := 0 } := by
  obtain ⟨⟨phase, registry, ⟨records, headers, skipped, abandoned, truncated⟩⟩, made, failure⟩ :=
    run
  cases h
  cases failure with
  | some error => rfl
  | none => cases fault <;> rfl

theorem exists_scan_unskipped (machine : Machine) (keepDriver : Bool) (log : Log) :
    let kept := (Scanner.start .empty).unskipped ⟨machine.contains, keepDriver⟩ log.lines
    let quiet := scan machine keepDriver { log with lines := kept }
    ∃ count, scan machine keepDriver log = quiet.skip count ∧
      quiet.scanner.tally.skipped = 0 := by
  unfold scan
  dsimp only
  split
  · obtain ⟨count, -, hscan⟩ := Scanner.exists_scan_unskipped ⟨machine.contains, keepDriver⟩
      (.start .empty) log.lines
    exact ⟨count, hscan⟩
  · obtain ⟨count, -, hfeed⟩ := Scanner.exists_feedAll_unskipped ⟨machine.contains, keepDriver⟩
      (.start .empty) log.lines
    exact ⟨count, hfeed⟩

theorem convert_unskipped {keepDriver : Bool} {quiet : Machine}
    (hsource : Source.ofPath machine input = .ok source)
    (htarget : Target.ofPath machine output = .ok (opened, target))
    (h : source.Relogged machine { source.read opened with
      lines := (Scanner.start .empty).unskipped ⟨opened.contains, keepDriver⟩
        (source.lines opened) } quiet) :
    (∃ reopened, Target.ofPath quiet output = .ok (reopened, target)) ∧
      LeavesSame target (convert machine input output keepDriver)
        (convert quiet input output keepDriver) ∧
      (convert quiet input output keepDriver).result =
        (convert machine input output keepDriver).result.map fun tally =>
          { tally with skipped := 0 } := by
  obtain ⟨hreopened, hquiet⟩ := convert_relogged hsource htarget h keepDriver
  obtain ⟨count, hrun, hskipped⟩ := exists_scan_unskipped opened keepDriver (source.read opened)
  -- a log that is emptied for the database has no lines, and none are left of it
  have hread : source.read (target.opened quiet) = { source.read opened with
      lines := (Scanner.start .empty).unskipped ⟨opened.contains, keepDriver⟩
        (source.lines opened) } := by
    by_cases hapart : target.IsApart source
    · rw [Target.read_opened hapart, h.read_eq hsource]
    · obtain ⟨rfl, -⟩ := Target.ofPath_of_alike ⟨rfl, rfl, rfl⟩ htarget
      unfold Source.lines
      rw [read_opened_of_not_isApart hsource hapart, read_opened_of_not_isApart hsource hapart]
      rfl
  rw [hread] at hquiet
  rw [convert_eq hsource htarget, hquiet, hrun]
  refine ⟨⟨_, hreopened⟩, ⟨?_, _, textAt_ofRun htarget _ _, textAt_ofRun hreopened _ _⟩, ?_⟩
  · rw [records_ofRun, records_ofRun]
    rfl
  · rw [result_ofRun, result_ofRun]
    exact resultOf_skip hskipped count _

/-- A line of no block, put into a log where a run comes to it and not behind the first line of a
block, is counted as skipped and changes nothing else: not the records and their reports, not the
registry, not the phase or another count, and not the error or the line that it is raised at. All
the lines that are skipped can be taken out of a log. Then none is counted, and the conversion of
such a log leaves the same database. -/
theorem noise_is_only_counted (setting : Setting) (session : Session) :
    (∀ before after : List Text, ∀ noise : Text,
      let reached := session.scanner.feedAll setting (before.map Text.trimLineEnd)
      reached.failure = none → reached.scanner.phase.IsNoise noise →
      let plain := Call.scan (before ++ after)
      let noisy := Call.scan (before ++ noise :: after)
      session.take setting noisy = (session.take setting plain).skip 1 ∧
      (noisy.run setting session.scanner).failure = (plain.run setting session.scanner).failure ∧
      ∀ error, (plain.run setting session.scanner).failure = some error →
        ∃ passed line rest, after = passed ++ line :: rest ∧
          FailsBehind setting session.scanner ((before ++ passed).map Text.trimLineEnd)
            (Text.trimLineEnd line) error ∧
          FailsBehind setting session.scanner ((before ++ noise :: passed).map Text.trimLineEnd)
            (Text.trimLineEnd line) error) ∧
    (∀ lines : List Text,
      let kept := session.scanner.unskipped setting lines
      let quiet := session.take setting (.scan kept)
      kept.Sublist lines ∧
      ((Call.scan kept).run setting session.scanner).failure =
        ((Call.scan lines).run setting session.scanner).failure ∧
      quiet.scanner.tally.skipped = session.scanner.tally.skipped ∧
      ∃ count, kept.length + count = lines.length ∧
        session.take setting (.scan lines) = quiet.skip count) ∧
    ∀ (machine : Machine) (input output : Text) (keepDriver : Bool) (source : Source)
      (opened : Machine) (target : Target),
      Source.ofPath machine input = .ok source →
      Target.ofPath machine output = .ok (opened, target) →
      let kept := (Scanner.start .empty).unskipped ⟨opened.contains, keepDriver⟩
        (source.lines opened)
      let unskipped : Log := { source.read opened with lines := kept }
      (∃ quiet, source.Relogged machine unskipped quiet) ∧
      ∀ quiet, source.Relogged machine unskipped quiet →
        (∃ reopened, Target.ofPath quiet output = .ok (reopened, target)) ∧
        LeavesSame target (convert machine input output keepDriver)
          (convert quiet input output keepDriver) ∧
        (convert quiet input output keepDriver).result =
          (convert machine input output keepDriver).result.map fun tally =>
            { tally with skipped := 0 } := by
  refine ⟨?_, ?_, ?_⟩
  · intro before after noise reached hbefore hnoise plain noisy
    have hscan : noisy.run setting session.scanner =
        (plain.run setting session.scanner).skip 1 :=
      Scanner.scan_insert_noise hbefore hnoise after
    have hfailure (run : Run) : (run.skip 1).failure = run.failure := rfl
    refine ⟨Session.take_skip hscan, by rw [hscan, hfailure], ?_⟩
    intro error herror
    exact exists_failsBehind_scan hbefore hnoise herror
  · intro lines kept quiet
    obtain ⟨count, hlength, hrun, hskipped⟩ :=
      session.scanner.exists_scan_unskipped setting lines
    have hlines : (Call.scan lines).run setting session.scanner =
        ((Call.scan kept).run setting session.scanner).skip count := hrun
    refine ⟨session.scanner.unskipped_sublist setting lines,
      (congrArg Run.failure hlines).symm, ?_, count, hlength, Session.take_skip hlines⟩
    unfold quiet Session.take
    rw [Session.receive_eq]
    exact hskipped
  · intro machine input output keepDriver source opened target hsource htarget kept unskipped
    have hkept {line : Text} (hline : line ∈ unskipped.lines) : line ∈ source.lines opened :=
      (Scanner.unskipped_sublist _ _ _).subset hline
    have hfault : unskipped.fault = (source.read machine).fault := by
      obtain ⟨rfl, -⟩ := Target.ofPath_of_alike ⟨rfl, rfl, rfl⟩ htarget
      exact fault_opened source target machine
    refine ⟨source.exists_relogged machine hfault ?_ ?_, fun quiet h =>
      convert_unskipped hsource htarget h⟩
    · exact fun line hline => Source.feed_not_mem_of_mem_lines (hkept hline)
    · exact fun hne line hline => Source.return_not_mem_of_mem_lines (hkept hline) hne

/-- A warning in a block of a pass that fails in the next one, and a log whose conversion skips a
line in front of a block and one inside of it. -/
theorem noise_is_only_counted_in_block :
    let setting : Setting := ⟨fun _ => false, false⟩
    let session := Session.start .empty
    let before := ["CompileC a".toList, "    cd /w\r".toList]
    let noise := "warning: -c and -o\r".toList
    let after := ["clang -c a.m -o o".toList, "CompileC b".toList, "    cd /w".toList,
      "clang -include p.h -c b.m -o o".toList]
    let log := "CompileSwift\nCompileC\n    cd /w\nwarning\nclang -c a.m -o o\n".toList
    let machine : Machine := .permissive ⟨[(["log".toList], .file (Utf8.encode log))]⟩ [] []
    session.take setting (.scan (before ++ noise :: after)) =
      (session.take setting (.scan (before ++ after))).skip 1 ∧
    (∃ passed line rest, after = passed ++ line :: rest ∧
      FailsBehind setting session.scanner ((before ++ noise :: passed).map Text.trimLineEnd)
        (Text.trimLineEnd line) ⟨"p.h".toList⟩) ∧
    (convert machine "log".toList "db".toList false).result = .ok ⟨1, 0, 2, 0, false⟩ ∧
    ∃ quiet, LeavesSame (.file ["db".toList]) (convert machine "log".toList "db".toList false)
        (convert quiet "log".toList "db".toList false) ∧
      (convert quiet "log".toList "db".toList false).result = .ok ⟨1, 0, 0, 0, false⟩ := by
  intro setting session before noise after log machine
  obtain ⟨hinserted, -, hconverted⟩ := noise_is_only_counted setting session
  have hbefore :
      (session.scanner.feedAll setting (before.map Text.trimLineEnd)).failure = none := by
    decide
  have hphase : (session.scanner.feedAll setting (before.map Text.trimLineEnd)).scanner.phase =
      .awaitInvocation ⟨.compile, "/w".toList⟩ := by decide
  have hnoise : (session.scanner.feedAll setting
      (before.map Text.trimLineEnd)).scanner.phase.IsNoise noise := by
    rw [hphase]
    exact ⟨nofun, by decide, .inr (by decide)⟩
  have hfails : ((Call.scan (before ++ after)).run setting session.scanner).failure =
      some ⟨"p.h".toList⟩ := by decide
  obtain ⟨hsession, -, hline⟩ := hinserted before after noise hbefore hnoise
  obtain ⟨passed, line, rest, hsplit, -, hbehind⟩ := hline _ hfails
  have hresult : (convert machine "log".toList "db".toList false).result =
      .ok ⟨1, 0, 2, 0, false⟩ := by decide +kernel
  have hsource : Source.ofPath machine "log".toList = .ok (.file ["log".toList]) := rfl
  have htarget : Target.ofPath machine "db".toList =
      .ok (machine.emptied ["db".toList], .file ["db".toList]) := rfl
  obtain ⟨⟨quiet, hrelogged⟩, hquiet⟩ := hconverted _ _ _ false _ _ _ hsource htarget
  obtain ⟨-, hsame, hquietResult⟩ := hquiet quiet hrelogged
  rw [hresult] at hquietResult
  exact ⟨hsession, ⟨passed, line, rest, hsplit, hbehind⟩, hresult, quiet, hsame, hquietResult⟩

end Conversion

end BuildLog
