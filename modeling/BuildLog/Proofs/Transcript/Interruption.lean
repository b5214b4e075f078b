import BuildLog.Proofs.Transcript.Steps
import Mathlib.Data.List.Induction

/-! Where a run stops that fails: at the invocation of a block that compiles, behind lines that
were all handled, and with nothing made since the first line of the block. -/
namespace BuildLog.Transcript

variable {setting : Setting} {scanner : Scanner} {lines : List Text}

theorem exists_of_failure {error : UnresolvedHeader}
    (h : (scanner.feedAll setting lines).failure = some error) :
    ∃ before line after, lines = before ++ line :: after ∧
      (scanner.feedAll setting before).failure = none ∧
      Step setting (scanner.feedAll setting before).scanner line
        (scanner.feedAll setting before).scanner (.unresolved error) ∧
      scanner.feedAll setting lines =
        { scanner.feedAll setting before with failure := some error } := by
  induction lines generalizing scanner with
  | nil => cases h
  | cons line rest ih =>
    obtain ⟨next, event, hstep, hok⟩ | ⟨error', hstep⟩ := handles_or_fails setting scanner line
    · rw [hstep.feedAll_cons hok] at h
      obtain ⟨before, failing, after, rfl, hbefore, hfailing, hrun⟩ := ih h
      refine ⟨line :: before, failing, after, rfl, ?_⟩
      rw [hstep.feedAll_cons hok, hstep.feedAll_cons hok, hrun]
      exact ⟨hbefore, hfailing, rfl⟩
    · rw [hstep.feedAll_cons_unresolved] at h ⊢
      cases h
      exact ⟨[], line, rest, rfl, rfl, hstep, rfl⟩

/-- How the lines of a run have opened the block that its phase is about. Nothing has been made
since the block's first line. -/
def Opened (setting : Setting) (scanner : Scanner) (lines : List Text) : Phase → Prop
  | .idle _ => True
  | .awaitDirectory _ =>
    ∃ before first, lines = before ++ [first] ∧
      (scanner.feedAll setting before).records = (scanner.feedAll setting lines).records
  | .awaitInvocation block =>
    ∃ before first directory passed, lines = before ++ first :: directory :: passed ∧
      (scanner.feedAll setting (before ++ [first])).scanner.phase = .awaitDirectory block.kind ∧
      (∀ line ∈ passed, goesPast line = true) ∧
      (scanner.feedAll setting before).records = (scanner.feedAll setting lines).records

theorem feedAll_concat {line : Text} {next : Scanner} {event : Event}
    (h : (scanner.feedAll setting lines).failure = none)
    (hstep : Step setting (scanner.feedAll setting lines).scanner line next event)
    (hok : event.error? = none) :
    scanner.feedAll setting (lines ++ [line]) =
      ⟨next, (scanner.feedAll setting lines).records ++ event.record?.toList, none⟩ := by
  rw [Scanner.feedAll_append, Run.feedAll_of_none h, hstep.feedAll_cons hok, Scanner.feedAll_nil,
    List.append_nil]

/-- One more line that is handled. A line that makes nothing is added to the open block, opens one
or is passed; a record ends its block. -/
theorem Opened.concat {line : Text} {next : Scanner} {event : Event}
    (h : (scanner.feedAll setting lines).failure = none)
    (hopened : Opened setting scanner lines (scanner.feedAll setting lines).scanner.phase)
    (hstep : Step setting (scanner.feedAll setting lines).scanner line next event)
    (hok : event.error? = none) : Opened setting scanner (lines ++ [line]) next.phase := by
  have hrun := feedAll_concat h hstep hok
  generalize hreached : (scanner.feedAll setting lines).scanner = reached at hopened hstep
  cases hstep with
  | stray | registered | rejected | compiled => trivial
  | failed => cases hok
  | begins | abandoned =>
    refine ⟨lines, line, rfl, ?_⟩
    rw [hrun]
    exact (List.append_nil _).symm
  | directory =>
    obtain ⟨before, first, rfl, hrecords⟩ := hopened
    refine ⟨before, first, line, [], by simp, by rw [hreached], by simp, ?_⟩
    rw [hrun, hrecords]
    exact (List.append_nil _).symm
  | passed hpast =>
    obtain ⟨before, first, directory, passed, rfl, hphase, hpassed, hrecords⟩ := hopened
    refine ⟨before, first, directory, passed ++ [line], by simp, hphase, ?_, ?_⟩
    · intro other hother
      obtain hmem | hmem := List.mem_append.mp hother
      · exact hpassed other hmem
      · rw [List.mem_singleton.mp hmem]
        exact hpast
    · rw [hrun, hrecords]
      exact (List.append_nil _).symm

/-- The induction takes the last line off, for it is the latest lines that tell of the open
block. -/
theorem opened {last : Option Block} (hidle : scanner.phase = .idle last)
    (h : (scanner.feedAll setting lines).failure = none) :
    Opened setting scanner lines (scanner.feedAll setting lines).scanner.phase := by
  induction lines using List.reverseRecOn with
  | nil =>
    rw [Scanner.feedAll_nil, hidle]
    trivial
  | append_singleton lines line ih =>
    have hlines : (scanner.feedAll setting lines).failure = none := by
      rw [Scanner.feedAll_append] at h
      exact Run.failure_of_feedAll h
    obtain ⟨next, event, hstep, hok⟩ | ⟨error, hstep⟩ :=
      handles_or_fails setting (scanner.feedAll setting lines).scanner line
    · rw [feedAll_concat hlines hstep hok]
      exact (ih hlines).concat hlines hstep hok
    · rw [Scanner.feedAll_append, Run.feedAll_of_none hlines, hstep.feedAll_cons_unresolved] at h
      cases h

/-- A run over some lines fails at line `n`, counted from zero, with all lines before it handled.
The line is the invocation of a block that compiles and that line `begun` has opened. -/
structure StopsAt (setting : Setting) (scanner : Scanner) (lines : List Text) (begun n : Nat)
    (error : UnresolvedHeader) : Prop where
  opens : (scanner.feedAll setting (lines.take (begun + 1))).scanner.phase =
    .awaitDirectory .compile
  before : begun + 2 ≤ n
  passes : ∀ line ∈ (lines.take n).drop (begun + 2), goesPast line = true
  handles : (scanner.feedAll setting (lines.take n)).failure = none
  waits : ∃ directory, (scanner.feedAll setting (lines.take n)).scanner.phase =
    .awaitInvocation ⟨.compile, directory⟩
  fails : ∃ line, lines[n]? = some line ∧
    (scanner.feedAll setting (lines.take n)).scanner.feed setting line =
      ((scanner.feedAll setting (lines.take n)).scanner, .unresolved error)

theorem exists_stopsAt {last : Option Block} {error : UnresolvedHeader}
    (hidle : scanner.phase = .idle last)
    (h : (scanner.feedAll setting lines).failure = some error) :
    ∃ begun n, StopsAt setting scanner lines begun n error ∧
      (scanner.feedAll setting (lines.take n)).records =
        (scanner.feedAll setting lines).records ∧
      (scanner.feedAll setting (lines.take begun)).records =
        (scanner.feedAll setting lines).records := by
  obtain ⟨handled, line, after, rfl, hhandled, hstep, hrun⟩ := exists_of_failure h
  obtain ⟨-, directory, hwaits⟩ := hstep.of_unresolved
  have hopened := opened hidle hhandled
  rw [hwaits] at hopened
  obtain ⟨before, first, changes, passed, hlines, hphase, hpassed, hrecords⟩ := hopened
  have hhandle : (handled ++ line :: after).take handled.length = handled := List.take_left
  have hopen : (handled ++ line :: after).take (before.length + 1) = before ++ [first] := by
    simp [hlines, List.take_append, List.take_of_length_le]
  have hbefore : (handled ++ line :: after).take before.length = before := by
    simp [hlines]
  have hpass : handled.drop (before.length + 2) = passed := by
    simp [hlines, List.drop_append]
  refine ⟨before.length, handled.length, ⟨?_, ?_, ?_, ?_, ⟨directory, ?_⟩, ⟨line, ?_, ?_⟩⟩, ?_, ?_⟩
  · rw [hopen]
    exact hphase
  · rw [hlines, List.length_append, List.length_cons, List.length_cons]
    omega
  · rw [hhandle, hpass]
    exact hpassed
  · rw [hhandle]
    exact hhandled
  · rw [hhandle]
    exact hwaits
  · simp
  · rw [hhandle]
    exact hstep.feed_eq
  · rw [hhandle, hrun]
  · rw [hbefore, hrun]
    exact hrecords

namespace Scanner

theorem failure_scan (lines : List Text) : (scanner.scan setting lines).failure =
    (scanner.feedAll setting (lines.map Text.trimLineEnd)).failure := by
  unfold scan
  cases h : (scanner.feedAll setting (lines.map Text.trimLineEnd)).failure <;> simp [h]

theorem records_scan (lines : List Text) : (scanner.scan setting lines).records =
    (scanner.feedAll setting (lines.map Text.trimLineEnd)).records := by
  unfold scan
  cases h : (scanner.feedAll setting (lines.map Text.trimLineEnd)).failure <;> simp [h]

theorem truncated_scan {block : Block}
    (h : (scanner.feedAll setting (lines.map Text.trimLineEnd)).failure = none)
    (hphase : (scanner.feedAll setting (lines.map Text.trimLineEnd)).scanner.phase =
      .awaitInvocation block) : (scanner.scan setting lines).scanner.tally.truncated = true := by
  unfold scan finish
  simp only [h, hphase]

end Scanner

end BuildLog.Transcript
