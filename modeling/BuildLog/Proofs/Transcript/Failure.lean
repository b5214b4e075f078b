import BuildLog.Proofs.Invocation.Record
import BuildLog.Proofs.Transcript.Accounting
import BuildLog.Proofs.Transcript.Interruption

/-! What a call leaves behind that fails. A line that is fed and fails leaves nothing, so its block
waits on and can still be completed; a pass that fails leaves what the lines before it have left. -/
namespace BuildLog.Transcript

variable {setting : Setting} {scanner next : Scanner} {session : Session} {line : Text}
  {event : Event} {error : UnresolvedHeader}

namespace Step

variable {directory : Text}

theorem exists_of_unresolved (h : Step setting scanner line next (.unresolved error)) :
    ∃ directory, scanner.phase = .awaitInvocation ⟨.compile, directory⟩ ∧
      Command.isInvocation line = true ∧
      Invocation.record setting scanner.registry directory line = .error error := by
  cases h with
  | failed hi hr => exact ⟨_, rfl, hi, hr⟩

theorem of_error (hphase : scanner.phase = .awaitInvocation ⟨.compile, directory⟩)
    (hi : Command.isInvocation line = true)
    (hr : Invocation.record setting scanner.registry directory line = .error error) :
    Step setting scanner line scanner (.unresolved error) := by
  obtain ⟨phase, registry, tally⟩ := scanner
  cases hphase
  exact .failed hi hr

theorem of_ok (hphase : scanner.phase = .awaitInvocation ⟨.compile, directory⟩)
    (hi : Command.isInvocation line = true) {record : Record}
    (hr : Invocation.record setting scanner.registry directory line = .ok record) :
    Step setting scanner line
      ⟨.idle (some ⟨.compile, directory⟩), scanner.registry,
        { scanner.tally with records := scanner.tally.records + 1 }⟩ (.record record) := by
  obtain ⟨phase, registry, tally⟩ := scanner
  cases hphase
  exact .compiled hi hr

end Step

theorem Step.run_feed (h : Step setting scanner line next event) :
    (Call.feed line).run setting scanner = ⟨next, event.record?.toList, event.error?⟩ :=
  h.feedAll_singleton

theorem failure_feed_iff :
    ((Call.feed line).run setting scanner).failure = some error ↔
      Step setting scanner line scanner (.unresolved error) := by
  constructor
  · intro h
    obtain ⟨next, event, hstep, hok⟩ | ⟨error', hstep⟩ := handles_or_fails setting scanner line
    · rw [hstep.run_feed, hok] at h
      cases h
    · rw [hstep.run_feed] at h
      cases h
      exact hstep
  · intro h
    rw [h.run_feed]
    rfl

theorem Scanner.scan_of_failure {lines : List Text}
    (h : (scanner.feedAll setting (lines.map Text.trimLineEnd)).failure = some error) :
    scanner.scan setting lines = scanner.feedAll setting (lines.map Text.trimLineEnd) := by
  unfold Scanner.scan
  simp only [h]

/-- A line that a compiling block outlasts: it goes past, or it is an invocation with a header that
stands for nothing. -/
def LeavesOpen (setting : Setting) (registry : Header.Registry) (directory line : Text) : Prop :=
  goesPast line = true ∨ Command.isInvocation line = true ∧
    ∃ error, Invocation.record setting registry directory line = .error error

namespace Session

theorem take_feed (h : Step setting session.scanner line next event) :
    session.take setting (.feed line) =
      ⟨next, session.sink ++ event.record?.toList, session.reported ++ event.record?.toList⟩ := by
  unfold take
  rw [h.run_feed, receive_eq]

theorem take_feed_of_failure
    (h : ((Call.feed line).run setting session.scanner).failure = some error) :
    session.take setting (.feed line) = session := by
  have hnothing : (Event.unresolved error).record?.toList = [] := rfl
  rw [take_feed (failure_feed_iff.mp h), hnothing, List.append_nil, List.append_nil]

def skip (session : Session) (count : Nat) : Session :=
  { session with
    scanner := { session.scanner with tally := session.scanner.tally.skip count } }

theorem skip_skip (session : Session) (m n : Nat) :
    (session.skip m).skip n = session.skip (m + n) := by
  simp [skip, Tally.skip, Nat.add_assoc]

theorem take_feed_of_leavesOpen {directory : Text}
    (hphase : session.scanner.phase = .awaitInvocation ⟨.compile, directory⟩)
    (h : LeavesOpen setting session.scanner.registry directory line) :
    session.take setting (.feed line) = session.skip (goesPast line).toNat := by
  rcases h with hpast | ⟨hi, error, hr⟩
  · obtain ⟨⟨phase, registry, tally⟩, sink, reported⟩ := session
    cases hphase
    rw [take_feed (.passed hpast), hpast]
    simp [skip, Event.record?]
  · have hpast : goesPast line = false := by
      rw [goesPast, hi, Bool.not_true, Bool.false_and]
    rw [take_feed_of_failure (failure_feed_iff.mpr (.of_error hphase hi hr)), hpast]
    rfl

theorem foldl_take_of_leavesOpen {directory : Text} {lines : List Text}
    (hphase : session.scanner.phase = .awaitInvocation ⟨.compile, directory⟩)
    (h : ∀ line ∈ lines, LeavesOpen setting session.scanner.registry directory line) :
    (lines.map Call.feed).foldl (take setting) session = session.skip (lines.countP goesPast) := by
  induction lines generalizing session with
  | nil => rfl
  | cons line lines ih =>
    obtain ⟨hline, hlines⟩ := List.forall_mem_cons.mp h
    have hrest : (lines.map Call.feed).foldl (take setting)
        (session.skip (goesPast line).toNat) = _ := ih hphase hlines
    rw [List.map_cons, List.foldl_cons, take_feed_of_leavesOpen hphase hline, hrest, skip_skip,
      List.countP_cons, Nat.add_comm]
    cases goesPast line <;> rfl

theorem foldl_take_feed {lines : List Text}
    (h : (session.scanner.feedAll setting lines).failure = none) :
    (lines.map Call.feed).foldl (take setting) session =
      session.receive (session.scanner.feedAll setting lines) := by
  induction lines generalizing session with
  | nil => simp [receive_eq]
  | cons line lines ih =>
    obtain ⟨next, event, hstep, hok⟩ | ⟨error, hstep⟩ :=
      handles_or_fails setting session.scanner line
    · rw [hstep.feedAll_cons hok] at h ⊢
      rw [List.map_cons, List.foldl_cons, take_feed hstep, ih h, receive_eq, receive_eq]
      simp
    · rw [hstep.feedAll_cons_unresolved] at h
      cases h

/-- A line that fails leaves the session as it was, in a compiling block that waits. The block waits
on behind any lines that leave it open. Then the line still fails of the same error, and a line
whose headers are all known becomes a record of the block's directory. A pass that fails at some
line leaves what those before it leave when they are fed one by one, and tells of no truncation. -/
theorem take_of_failure (setting : Setting) (session : Session) :
    (∀ line error, ((Call.feed line).run setting session.scanner).failure = some error →
      session.take setting (.feed line) = session ∧
      ∃ directory, session.scanner.phase = .awaitInvocation ⟨.compile, directory⟩ ∧
        ∀ between : List Text, (∀ other ∈ between,
            LeavesOpen setting session.scanner.registry directory other) →
          let later := (between.map Call.feed).foldl (take setting) session
          later = session.skip (between.countP goesPast) ∧
          ((Call.feed line).run setting later.scanner).failure = some error ∧
          ∀ invocation record, Command.isInvocation invocation = true →
            Invocation.record setting session.scanner.registry directory invocation = .ok record →
            record.directory = directory ∧
            later.take setting (.feed invocation) =
              ⟨⟨.idle (some ⟨.compile, directory⟩), session.scanner.registry,
                { later.scanner.tally with records := later.scanner.tally.records + 1 }⟩,
                session.sink ++ [record], session.reported ++ [record]⟩) ∧
    ∀ lines error, ((Call.scan lines).run setting session.scanner).failure = some error →
      ∃ handled line rest, lines = handled ++ line :: rest ∧
        let fed := handled.map Text.trimLineEnd
        let before := (fed.map Call.feed).foldl (take setting) session
        (session.scanner.feedAll setting fed).failure = none ∧
        session.take setting (.scan lines) = before ∧
        ((Call.feed (Text.trimLineEnd line)).run setting before.scanner).failure = some error ∧
        before.scanner.tally.truncated = session.scanner.tally.truncated := by
  refine ⟨?_, ?_⟩
  · intro line error h
    obtain ⟨directory, hphase, hi, hr⟩ := (failure_feed_iff.mp h).exists_of_unresolved
    refine ⟨take_feed_of_failure h, directory, hphase, ?_⟩
    intro between hbetween later
    -- the block still waits behind the lines between, with the registry that the line failed with
    have hlater : later = session.skip (between.countP goesPast) :=
      foldl_take_of_leavesOpen hphase hbetween
    have hwaits : later.scanner.phase = .awaitInvocation ⟨.compile, directory⟩ :=
      hlater ▸ hphase
    have hregistry : session.scanner.registry = later.scanner.registry := hlater ▸ rfl
    have hsink : session.sink = later.sink := hlater ▸ rfl
    have hreported : session.reported = later.reported := hlater ▸ rfl
    rw [hregistry] at hr
    refine ⟨hlater, failure_feed_iff.mpr (.of_error hwaits hi hr), ?_⟩
    intro invocation record hinvocation hrecord
    refine ⟨Invocation.directory_of_record _ _ hrecord, ?_⟩
    rw [hregistry] at hrecord
    rw [take_feed (.of_ok hwaits hinvocation hrecord), hregistry, hsink, hreported]
    rfl
  · intro lines error h
    have hpass : (session.scanner.scan setting lines).failure = some error := h
    rw [Scanner.failure_scan] at hpass
    obtain ⟨handled, line, after, hsplit, hhandled, hstep, hrun⟩ := exists_of_failure hpass
    obtain ⟨handled, others, rfl, rfl, hothers⟩ := List.map_eq_append_iff.mp hsplit
    obtain ⟨line, rest, rfl, rfl, rfl⟩ := List.map_eq_cons_iff.mp hothers
    refine ⟨handled, line, rest, rfl, ?_⟩
    intro fed before
    have hbefore : before = session.receive (session.scanner.feedAll setting fed) :=
      foldl_take_feed hhandled
    -- a pass that fails stops there, so it has no end that could tell of a truncation
    have hscan : session.scanner.scan setting (handled ++ line :: rest) =
        { session.scanner.feedAll setting fed with failure := some error } := by
      rw [Scanner.scan_of_failure hpass, hrun]
    refine ⟨hhandled, ?_, ?_, ?_⟩
    · have htake : session.take setting (.scan (handled ++ line :: rest)) =
          session.receive (session.scanner.scan setting (handled ++ line :: rest)) := rfl
      rw [htake, hbefore, hscan, receive_eq, receive_eq]
    · rw [hbefore, receive_eq]
      exact failure_feed_iff.mpr hstep
    · rw [hbefore, receive_eq]
      exact Scanner.truncated_feedAll setting session.scanner fed

theorem take_of_failure_then_record :
    let setting : Setting := ⟨fun _ => false, false⟩
    let failing := "clang -include p.pch -c a.m -o a.o".toList
    let lines := ["CompileC a".toList, "    cd /w\r".toList, failing, "CompileC b".toList]
    let session := (start .empty).take setting (.scan lines)
    let between := [failing, "warning".toList]
    let later := (between.map Call.feed).foldl (take setting) session
    session.scanner.tally.truncated = false ∧
      session.take setting (.feed failing) = session ∧
      ((Call.feed failing).run setting later.scanner).failure = some ⟨"p.pch".toList⟩ ∧
      (later.take setting (.feed "gcc -c b.m -o b.o".toList)).sink =
        [⟨"/w".toList, "b.m".toList, "-c b.m -o b.o".toList⟩] := by
  intro setting failing lines session between later
  have hpass : ((Call.scan lines).run setting (start .empty).scanner).failure =
      some ⟨"p.pch".toList⟩ := by decide
  obtain ⟨handled, line, rest, -, -, hbefore, -, htruncated⟩ :=
    (take_of_failure setting (start .empty)).2 lines _ hpass
  have hfails : ((Call.feed failing).run setting session.scanner).failure =
      some ⟨"p.pch".toList⟩ := by decide
  obtain ⟨hsame, directory, hphase, hlater⟩ := (take_of_failure setting session).1 failing _ hfails
  have hwaits : session.scanner.phase = .awaitInvocation ⟨.compile, "/w".toList⟩ := by decide
  cases hphase.symm.trans hwaits
  have hregistry : session.scanner.registry = .empty := Header.Registry.ext (by decide)
  have hsink : session.sink = [] := by decide
  have htold : session.scanner.tally.truncated = false :=
    (congrArg (·.scanner.tally.truncated) hbefore).trans htruncated
  rw [hregistry, hsink] at hlater
  have hbetween : ∀ other ∈ between, LeavesOpen setting .empty "/w".toList other := by
    rintro other hother
    rcases List.mem_cons.mp hother with rfl | hother
    · exact .inr ⟨by decide, ⟨"p.pch".toList⟩, by decide⟩
    · rw [List.mem_singleton.mp hother]
      exact .inl (by decide)
  have hmade : Invocation.record setting .empty "/w".toList "gcc -c b.m -o b.o".toList =
      .ok ⟨"/w".toList, "b.m".toList, "-c b.m -o b.o".toList⟩ := by decide
  obtain ⟨-, hagain, hrecord⟩ := hlater between hbetween
  obtain ⟨-, hdone⟩ := hrecord _ _ (by decide) hmade
  exact ⟨htold, hsame, hagain, congrArg Session.sink hdone⟩

end Session
end BuildLog.Transcript
