import BuildLog.Proofs.Command.Pattern
import BuildLog.Proofs.Transcript.Failure

/-! Lines that belong to no block. A scanner counts such a line and is otherwise as it was before,
and no count is ever looked at, so the lines can be put anywhere into a log or be taken out of it.
The one place where no line is without effect is the one behind a block's first line. -/
namespace BuildLog

namespace Text

theorem trimLineEnd_isPrefix (line : Text) : trimLineEnd line <+: line :=
  List.rdropWhile_prefix _ _

end Text

theorem Command.isInvocation_of_isPrefix {line longer : Text} (h : isInvocation line = true)
    (hlonger : line <+: longer) : isInvocation longer = true := by
  obtain ⟨before, name, hname, between, operands, after, rfl, hflags⟩ := isInvocation_iff.mp h
  obtain ⟨rest, rfl⟩ := hlonger
  refine isInvocation_iff.mpr
    ⟨before, name, hname, between, operands, after ++ rest, ?_, hflags⟩
  simp only [List.append_assoc, List.cons_append]

namespace Transcript

theorem BlockKind.ofLine?_eq_none_iff {line : Text} :
    ofLine? line = none ↔
      Text.has compile.marker line = false ∧ Text.has precompile.marker line = false := by
  unfold ofLine?
  cases Text.has compile.marker line <;> cases Text.has precompile.marker line <;> simp

theorem BlockKind.ofLine?_of_isPrefix {line longer : Text} (h : ofLine? longer = none)
    (hlonger : line <+: longer) : ofLine? line = none := by
  have hlacks {marker : Text} (h : Text.has marker longer = false) :
      Text.has marker line = false := by
    refine Bool.eq_false_iff.mpr fun hline => Bool.eq_false_iff.mp h ?_
    exact Text.has_iff.mpr ((Text.has_iff.mp hline).trans hlonger.isInfix)
  rw [ofLine?_eq_none_iff] at h ⊢
  exact h.imp hlacks hlacks

variable {setting : Setting} {scanner next : Scanner} {line noise : Text} {event : Event}
  {before after : List Text} {count : Nat}

/-- A line that is of no block for a scanner in some phase. -/
structure Phase.IsNoise (phase : Phase) (line : Text) : Prop where
  not_directory : ∀ kind, phase ≠ .awaitDirectory kind
  not_marker : BlockKind.ofLine? line = none
  not_invocation : (∃ last, phase = .idle last) ∨ Command.isInvocation line = false

theorem Phase.IsNoise.trimLineEnd {phase : Phase} (h : phase.IsNoise line) :
    phase.IsNoise (Text.trimLineEnd line) where
  not_directory := h.not_directory
  not_marker := BlockKind.ofLine?_of_isPrefix h.not_marker (Text.trimLineEnd_isPrefix line)
  not_invocation := by
    refine h.not_invocation.imp_right fun hi => Bool.eq_false_iff.mpr fun htrimmed => ?_
    rw [Command.isInvocation_of_isPrefix htrimmed (Text.trimLineEnd_isPrefix line)] at hi
    cases hi

def Scanner.skip (scanner : Scanner) (count : Nat) : Scanner :=
  { scanner with tally := scanner.tally.skip count }

def Run.skip (run : Run) (count : Nat) : Run := { run with scanner := run.scanner.skip count }

namespace Step

theorem of_isNoise (h : scanner.phase.IsNoise line) :
    Step setting scanner line (scanner.skip 1) .nothing := by
  obtain ⟨phase, registry, tally⟩ := scanner
  obtain ⟨hdirectory, hk, hi⟩ := h
  cases phase with
  | idle last => exact .stray hk
  | awaitDirectory kind => exact absurd rfl (hdirectory kind)
  | awaitInvocation block =>
    have hi : Command.isInvocation line = false := by simpa using hi
    exact .passed (goesPast_iff.mpr ⟨hi, hk⟩)

theorem skip (h : Step setting scanner line next event) (count : Nat) :
    Step setting (scanner.skip count) line (next.skip count) event := by
  have hcomm (tally : Tally) : (tally.skip 1).skip count = (tally.skip count).skip 1 := by
    simp only [Tally.skip, Nat.add_right_comm]
  cases h with
  | stray h =>
    unfold Scanner.skip
    rw [hcomm]
    exact .stray h
  | passed h =>
    unfold Scanner.skip
    rw [hcomm]
    exact .passed h
  | begins h => exact .begins h
  | directory => exact .directory
  | abandoned hi hk => exact .abandoned hi hk
  | registered hi hr => exact .registered hi hr
  | rejected hi hr => exact .rejected hi hr
  | compiled hi hr => exact .compiled hi hr
  | failed hi hr => exact .failed hi hr

end Step

namespace Scanner

theorem feedAll_skip (setting : Setting) (scanner : Scanner) (count : Nat) (lines : List Text) :
    (scanner.skip count).feedAll setting lines = (scanner.feedAll setting lines).skip count := by
  induction lines generalizing scanner with
  | nil => rfl
  | cons line rest ih =>
    obtain ⟨next, event, hstep, hok⟩ | ⟨error, hstep⟩ := handles_or_fails setting scanner line
    · rw [hstep.feedAll_cons hok, (hstep.skip count).feedAll_cons hok, ih]
      rfl
    · rw [hstep.feedAll_cons_unresolved, (hstep.skip count).feedAll_cons_unresolved]
      rfl

theorem finish_skip (scanner : Scanner) (count : Nat) :
    (scanner.skip count).finish = scanner.finish.skip count := by
  obtain ⟨phase, registry, tally⟩ := scanner
  cases phase <;> rfl

theorem scan_of_feedAll_skip {lines others : List Text}
    (h : scanner.feedAll setting (lines.map Text.trimLineEnd) =
      (scanner.feedAll setting (others.map Text.trimLineEnd)).skip count) :
    scanner.scan setting lines = (scanner.scan setting others).skip count := by
  unfold scan
  rw [h]
  unfold Run.skip
  dsimp only
  split
  · rw [finish_skip]
  · rfl

/-- A line of no block that is put into a run is counted and changes nothing else. -/
theorem feedAll_insert_noise (hbefore : (scanner.feedAll setting before).failure = none)
    (hnoise : (scanner.feedAll setting before).scanner.phase.IsNoise noise) (after : List Text) :
    scanner.feedAll setting (before ++ noise :: after) =
      (scanner.feedAll setting (before ++ after)).skip 1 := by
  rw [feedAll_append, feedAll_append, Run.feedAll_of_none hbefore, Run.feedAll_of_none hbefore,
    feedAll_cons_nothing setting (Step.of_isNoise hnoise).feed_eq, feedAll_skip]
  rfl

theorem scan_insert_noise
    (hbefore : (scanner.feedAll setting (before.map Text.trimLineEnd)).failure = none)
    (hnoise : (scanner.feedAll setting (before.map Text.trimLineEnd)).scanner.phase.IsNoise noise)
    (after : List Text) :
    scanner.scan setting (before ++ noise :: after) =
      (scanner.scan setting (before ++ after)).skip 1 := by
  refine scan_of_feedAll_skip ?_
  rw [List.map_append, List.map_append, List.map_cons]
  exact feedAll_insert_noise hbefore hnoise.trimLineEnd _

end Scanner

/-- A run handles some lines and fails at the next one. -/
structure FailsBehind (setting : Setting) (scanner : Scanner) (handled : List Text) (line : Text)
    (error : UnresolvedHeader) : Prop where
  handles : (scanner.feedAll setting handled).failure = none
  fails : ((scanner.feedAll setting handled).scanner.feed setting line).2 = .unresolved error

theorem exists_failsBehind (hbefore : (scanner.feedAll setting before).failure = none)
    (hnoise : (scanner.feedAll setting before).scanner.phase.IsNoise noise)
    {error : UnresolvedHeader}
    (h : (scanner.feedAll setting (before ++ after)).failure = some error) :
    ∃ passed line rest, after = passed ++ line :: rest ∧
      FailsBehind setting scanner (before ++ passed) line error ∧
      FailsBehind setting scanner (before ++ noise :: passed) line error := by
  have hafter : ((scanner.feedAll setting before).scanner.feedAll setting after).failure =
      some error := by
    rw [Scanner.feedAll_append, Run.feedAll_of_none hbefore] at h
    exact h
  obtain ⟨passed, line, rest, rfl, hpassed, hstep, -⟩ := exists_of_failure hafter
  have hplain : scanner.feedAll setting (before ++ passed) = _ :=
    (Scanner.feedAll_append setting scanner before passed).trans (Run.feedAll_of_none hbefore _)
  have hnoisy := Scanner.feedAll_insert_noise hbefore hnoise passed
  refine ⟨passed, line, rest, rfl, ⟨?_, ?_⟩, ⟨?_, ?_⟩⟩
  · rw [hplain]
    exact hpassed
  · rw [hplain, hstep.feed_eq]
  · rw [hnoisy, hplain]
    exact hpassed
  · rw [hnoisy, hplain]
    exact congrArg Prod.snd (hstep.skip 1).feed_eq

theorem exists_failsBehind_scan
    (hbefore : (scanner.feedAll setting (before.map Text.trimLineEnd)).failure = none)
    (hnoise : (scanner.feedAll setting (before.map Text.trimLineEnd)).scanner.phase.IsNoise noise)
    {error : UnresolvedHeader}
    (h : (scanner.scan setting (before ++ after)).failure = some error) :
    ∃ passed line rest, after = passed ++ line :: rest ∧
      FailsBehind setting scanner ((before ++ passed).map Text.trimLineEnd)
        (Text.trimLineEnd line) error ∧
      FailsBehind setting scanner ((before ++ noise :: passed).map Text.trimLineEnd)
        (Text.trimLineEnd line) error := by
  rw [Scanner.failure_scan, List.map_append] at h
  obtain ⟨passed, line, rest, hsplit, hplain, hnoisy⟩ :=
    exists_failsBehind hbefore hnoise.trimLineEnd h
  obtain ⟨passed, others, rfl, rfl, hothers⟩ := List.map_eq_append_iff.mp hsplit
  obtain ⟨line, rest, rfl, rfl, -⟩ := List.map_eq_cons_iff.mp hothers
  refine ⟨passed, line, rest, rfl, ?_, ?_⟩
  · rw [List.map_append]
    exact hplain
  · rw [List.map_append, List.map_cons]
    exact hnoisy

/-- The lines of a pass that its run does not count as skipped. A line behind one that fails is not
looked at, and so not skipped. -/
def Scanner.unskipped (setting : Setting) (scanner : Scanner) : List Text → List Text
  | [] => []
  | line :: rest =>
    match scanner.feed setting (Text.trimLineEnd line) with
    | (_, .unresolved _) => line :: rest
    | (next, _) =>
      if next.tally.skipped = scanner.tally.skipped then line :: next.unskipped setting rest
      else next.unskipped setting rest

theorem Session.take_skip {session : Session} {call other : Call}
    (h : call.run setting session.scanner = (other.run setting session.scanner).skip count) :
    session.take setting call = (session.take setting other).skip count := by
  unfold take
  rw [h, receive_eq, receive_eq]
  rfl

namespace Step

/-- A line that is skipped does nothing else. -/
theorem cases_skipped (h : Step setting scanner line next event) :
    (next = scanner.skip 1 ∧ event = .nothing) ∨ next.tally.skipped = scanner.tally.skipped := by
  cases h with
  | stray | passed => exact .inl ⟨rfl, rfl⟩
  | begins | directory | abandoned | registered | rejected | compiled | failed => exact .inr rfl

theorem unskipped_cons (h : Step setting scanner (Text.trimLineEnd line) next event)
    (hok : event.error? = none) (rest : List Text) :
    scanner.unskipped setting (line :: rest) =
      if next.tally.skipped = scanner.tally.skipped then line :: next.unskipped setting rest
      else next.unskipped setting rest := by
  rw [Scanner.unskipped, h.feed_eq]
  cases event with
  | nothing | record made => rfl
  | unresolved error => cases hok

theorem unskipped_cons_unresolved {error : UnresolvedHeader}
    (h : Step setting scanner (Text.trimLineEnd line) next (.unresolved error))
    (rest : List Text) : scanner.unskipped setting (line :: rest) = line :: rest := by
  rw [Scanner.unskipped, h.feed_eq]

end Step

namespace Scanner

theorem unskipped_skip (setting : Setting) (scanner : Scanner) (count : Nat) (lines : List Text) :
    (scanner.skip count).unskipped setting lines = scanner.unskipped setting lines := by
  induction lines generalizing scanner with
  | nil => rfl
  | cons line rest ih =>
    obtain ⟨next, event, hstep, hok⟩ | ⟨error, hstep⟩ :=
      handles_or_fails setting scanner (Text.trimLineEnd line)
    · have hcount : (next.skip count).tally.skipped = (scanner.skip count).tally.skipped ↔
          next.tally.skipped = scanner.tally.skipped := Nat.add_right_cancel_iff
      simp only [hstep.unskipped_cons hok, (hstep.skip count).unskipped_cons hok, ih, hcount]
    · rw [hstep.unskipped_cons_unresolved, (hstep.skip count).unskipped_cons_unresolved]

theorem unskipped_sublist (setting : Setting) (scanner : Scanner) (lines : List Text) :
    (scanner.unskipped setting lines).Sublist lines := by
  induction lines generalizing scanner with
  | nil => exact List.Sublist.refl _
  | cons line rest ih =>
    obtain ⟨next, event, hstep, hok⟩ | ⟨error, hstep⟩ :=
      handles_or_fails setting scanner (Text.trimLineEnd line)
    · rw [hstep.unskipped_cons hok]
      split
      · exact (ih next).cons_cons line
      · exact (ih next).cons line
    · rw [hstep.unskipped_cons_unresolved]

theorem exists_feedAll_unskipped (setting : Setting) (scanner : Scanner) (lines : List Text) :
    let kept := scanner.unskipped setting lines
    let quiet := scanner.feedAll setting (kept.map Text.trimLineEnd)
    ∃ count, kept.length + count = lines.length ∧
      scanner.feedAll setting (lines.map Text.trimLineEnd) = quiet.skip count ∧
      quiet.scanner.tally.skipped = scanner.tally.skipped := by
  induction lines generalizing scanner with
  | nil => exact ⟨0, rfl, rfl, rfl⟩
  | cons line rest ih =>
    dsimp only
    obtain ⟨next, event, hstep, hok⟩ | ⟨error, hstep⟩ :=
      handles_or_fails setting scanner (Text.trimLineEnd line)
    · rw [List.map_cons, hstep.unskipped_cons hok]
      obtain ⟨rfl, rfl⟩ | hkept := hstep.cases_skipped
      · -- a skipped line leaves the scanner as it was, but for the count
        obtain ⟨count, hlength, hrun, hskipped⟩ := ih scanner
        have hcount : (scanner.skip 1).tally.skipped ≠ scanner.tally.skipped :=
          Nat.succ_ne_self _
        rw [if_neg hcount, unskipped_skip]
        refine ⟨count + 1, by rw [← Nat.add_assoc, hlength, List.length_cons], ?_, hskipped⟩
        rw [feedAll_cons_nothing setting hstep.feed_eq, feedAll_skip, hrun]
        rfl
      · obtain ⟨count, hlength, hrun, hskipped⟩ := ih next
        rw [if_pos hkept, List.map_cons, hstep.feedAll_cons hok, hstep.feedAll_cons hok]
        refine ⟨count, ?_, ?_, hskipped.trans hkept⟩
        · rw [List.length_cons, List.length_cons, Nat.add_right_comm, hlength]
        · rw [hrun]
          rfl
    · rw [hstep.unskipped_cons_unresolved, List.map_cons, hstep.feedAll_cons_unresolved]
      exact ⟨0, rfl, rfl, rfl⟩

theorem skipped_scan (setting : Setting) (scanner : Scanner) (lines : List Text) :
    (scanner.scan setting lines).scanner.tally.skipped =
      (scanner.feedAll setting (lines.map Text.trimLineEnd)).scanner.tally.skipped := by
  unfold scan
  dsimp only
  split
  · rw [finish_eq]
  · rfl

theorem exists_scan_unskipped (setting : Setting) (scanner : Scanner) (lines : List Text) :
    let kept := scanner.unskipped setting lines
    let quiet := scanner.scan setting kept
    ∃ count, kept.length + count = lines.length ∧
      scanner.scan setting lines = quiet.skip count ∧
      quiet.scanner.tally.skipped = scanner.tally.skipped := by
  obtain ⟨count, hlength, hrun, hskipped⟩ := exists_feedAll_unskipped setting scanner lines
  exact ⟨count, hlength, scan_of_feedAll_skip hrun, (skipped_scan _ _ _).trans hskipped⟩

end Scanner

end Transcript
end BuildLog
