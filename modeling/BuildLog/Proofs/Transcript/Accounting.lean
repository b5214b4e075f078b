import BuildLog.Proofs.Header.Registry
import BuildLog.Proofs.Transcript.Steps
import BuildLog.Transcript.Session
import Mathlib.Algebra.BigOperators.Group.List.Basic
import Mathlib.Algebra.GroupWithZero.Nat

/-! The law of the counts. Every line that was handled is in one of them, in the block that is open,
in a block that was dropped at the end of a pass, or in one whose build told of no header. -/
namespace BuildLog.Transcript

/-- How many lines of a block are read that no count tells of yet. -/
def Phase.pending : Phase → Nat
  | .idle _ => 0
  | .awaitDirectory _ => 1
  | .awaitInvocation _ => 2

/-- What befalls a scanner: a line that it handles, or the end of a pass. -/
inductive Moment
  | handled (before : Scanner) (line : Text)
  | ended (before : Scanner)

/-- Whether a line ends a precompiling block and registers nothing. -/
def Scanner.rejects (scanner : Scanner) (line : Text) : Bool :=
  match scanner.phase with
  | .awaitInvocation ⟨.precompile, _⟩ =>
    Command.isInvocation line && (scanner.registry.register? (Command.arguments line)).isNone
  | _ => false

namespace Moment

def isLine : Moment → Bool
  | .handled _ _ => true
  | .ended _ => false

def isRejected : Moment → Bool
  | .handled before line => before.rejects line
  | .ended _ => false

def dropped : Moment → Nat
  | .handled _ _ => 0
  | .ended before => before.phase.pending

theorem countP_isRejected_handled (before : Scanner) (line : Text) :
    [handled before line].countP isRejected = (before.rejects line).toNat := by
  have hmoment : (handled before line).isRejected = before.rejects line := rfl
  rw [List.countP_singleton, hmoment]
  cases before.rejects line <;> rfl

end Moment

def Scanner.moments (setting : Setting) (scanner : Scanner) : List Text → List Moment
  | [] => []
  | line :: rest =>
    match scanner.feed setting line with
    | (_, .unresolved _) => []
    | (next, _) => .handled scanner line :: next.moments setting rest

def Call.moments (setting : Setting) (scanner : Scanner) : Call → List Moment
  | .feed line => scanner.moments setting [line]
  | .scan lines =>
    let lines := lines.map Text.trimLineEnd
    let run := scanner.feedAll setting lines
    scanner.moments setting lines ++ if run.failure.isNone then [.ended run.scanner] else []

def Session.moments (setting : Setting) (session : Session) : List Call → List Moment
  | [] => []
  | call :: rest =>
    call.moments setting session.scanner ++ (session.take setting call).moments setting rest

def Tally.lines (tally : Tally) : Nat :=
  tally.skipped + 2 * tally.abandoned + 3 * (tally.records + tally.headers)

variable {setting : Setting} {scanner next : Scanner} {line : Text} {event : Event}

theorem Scanner.rejects_of_not_isInvocation (hi : Command.isInvocation line = false) :
    scanner.rejects line = false := by
  unfold Scanner.rejects
  split
  · rw [hi, Bool.false_and]
  · rfl

/-- The end of a pass leaves the scanner idle, and remarks what it drops. -/
theorem Scanner.finish_eq (scanner : Scanner) :
    scanner.finish =
      { scanner with
        phase := .idle scanner.phase.block?
        tally :=
          { scanner.tally with
            truncated := scanner.tally.truncated || decide (0 < scanner.phase.pending) } } := by
  obtain ⟨phase, registry, tally⟩ := scanner
  cases phase <;> simp [finish, Phase.pending, Phase.block?]

namespace Step

theorem moments_cons (h : Step setting scanner line next event) (hok : event.error? = none)
    (rest : List Text) :
    scanner.moments setting (line :: rest) =
      .handled scanner line :: next.moments setting rest := by
  rw [Scanner.moments, h.feed_eq]
  cases event with
  | nothing | record made => rfl
  | unresolved error => cases hok

theorem moments_cons_unresolved {error : UnresolvedHeader}
    (h : Step setting scanner line next (.unresolved error)) (rest : List Text) :
    scanner.moments setting (line :: rest) = [] := by
  rw [Scanner.moments, h.feed_eq]

theorem lines (h : Step setting scanner line next event) (hok : event.error? = none) :
    next.tally.lines + 3 * (scanner.rejects line).toNat + next.phase.pending =
      scanner.tally.lines + scanner.phase.pending + 1 := by
  cases h with
  | stray h =>
    simp only [Tally.lines, Tally.skip, Phase.pending, Scanner.rejects, Bool.toNat_false]
    omega
  | begins h | directory => rfl
  | passed h =>
    rw [Scanner.rejects_of_not_isInvocation (goesPast_iff.mp h).1]
    simp only [Tally.lines, Tally.skip, Phase.pending, Bool.toNat_false]
    omega
  | abandoned hi hk =>
    rw [Scanner.rejects_of_not_isInvocation hi]
    simp only [Tally.lines, Phase.pending, Bool.toNat_false]
    omega
  | registered hi hr =>
    simp only [Tally.lines, Phase.pending, Scanner.rejects, hi, hr, Option.isNone_some,
      Bool.and_false, Bool.toNat_false]
    omega
  | rejected hi hr =>
    simp only [Phase.pending, Scanner.rejects, hi, hr, Option.isNone_none, Bool.and_true,
      Bool.toNat_true]
  | compiled hi hr =>
    simp only [Tally.lines, Phase.pending, Scanner.rejects, Bool.toNat_false]
    omega
  | failed hi hr => cases hok

theorem truncated (h : Step setting scanner line next event) :
    next.tally.truncated = scanner.tally.truncated := by
  cases h <;> rfl

theorem records (h : Step setting scanner line next event) :
    next.tally.records = scanner.tally.records + event.record?.toList.length := by
  cases h <;> rfl

/-- The registry gains an entry at most when a header is counted. -/
theorem size_le (h : Step setting scanner line next event) :
    next.registry.size + scanner.tally.headers ≤ scanner.registry.size + next.tally.headers := by
  cases h with
  | registered hi hr =>
    obtain ⟨build, -, rfl⟩ := Header.Registry.exists_build_of_register? hr
    exact Nat.add_right_comm _ 1 _ ▸
      Nat.add_le_add_right (Header.Registry.size_insert_le _ build) _
  | _ => exact Nat.le_refl _

end Step

namespace Session

theorem receive_eq (session : Session) (run : Run) :
    session.receive run =
      ⟨run.scanner, session.sink ++ run.records, session.reported ++ run.records⟩ := by
  have hdeliver (records : List Record) (session : Session) :
      records.foldl deliver session =
        ⟨session.scanner, session.sink ++ records, session.reported ++ records⟩ := by
    induction records generalizing session with
    | nil => simp
    | cons record records ih => rw [List.foldl_cons, ih]; simp [deliver]
  exact hdeliver run.records _

theorem kept_run {Kept : Scanner → Prop}
    (hstep : ∀ before line after event,
      Step setting before line after event → Kept before → Kept after)
    (hfinish : ∀ scanner : Scanner, Kept scanner → Kept scanner.finish)
    {registry : Header.Registry} (h : Kept (.start registry)) (calls : List Call) :
    Kept (run setting registry calls).scanner := by
  have hlines (scanner : Scanner) (h : Kept scanner) (lines : List Text) :
      Kept (scanner.feedAll setting lines).scanner :=
    kept_feedAll (fun line _ before => hstep before line) h
  have htake (session : Session) (h : Kept session.scanner) (call : Call) :
      Kept (session.take setting call).scanner := by
    rw [take, receive_eq]
    cases call with
    | feed line => exact hlines session.scanner h [line]
    | scan lines =>
      have hpass := hlines session.scanner h (lines.map Text.trimLineEnd)
      unfold Call.run Scanner.scan
      dsimp only
      split
      · exact hfinish _ hpass
      · exact hpass
  have hfold (session : Session) (h : Kept session.scanner) :
      Kept (calls.foldl (take setting) session).scanner := by
    induction calls generalizing session with
    | nil => exact h
    | cons call calls ih => exact ih _ (htake session h call)
  exact hfold (.start registry) h

/-- The law of the counts, for a session that began with some entries in its registry and has come
through some moments. -/
structure Balanced (entries : Nat) (session : Session) (moments : List Moment) : Prop where
  lines : moments.countP Moment.isLine =
    session.scanner.tally.lines + 3 * moments.countP Moment.isRejected +
      session.scanner.phase.pending + (moments.map Moment.dropped).sum
  truncated : session.scanner.tally.truncated = true ↔ 0 < (moments.map Moment.dropped).sum
  records : session.scanner.tally.records = session.sink.length
  reported : session.reported = session.sink
  entries : session.scanner.registry.size ≤ entries + session.scanner.tally.headers

namespace Balanced

variable {entries : Nat} {session : Session} {moments : List Moment}

theorem start (registry : Header.Registry) : Balanced registry.size (.start registry) [] where
  lines := rfl
  truncated := by simp [Session.start, Scanner.start, Tally.zero]
  records := rfl
  reported := rfl
  entries := Nat.le_refl _

theorem step (h : Balanced entries session moments)
    (hstep : Step setting session.scanner line next event) (hok : event.error? = none) :
    Balanced entries (session.receive ⟨next, event.record?.toList, none⟩)
      (moments ++ [.handled session.scanner line]) := by
  have hlines := h.lines
  have hcount := hstep.lines hok
  rw [receive_eq]
  constructor
  · rw [List.countP_append, List.countP_append, Moment.countP_isRejected_handled]
    simp only [List.countP_singleton, List.map_append, List.map_singleton, List.sum_append,
      List.sum_singleton, Moment.isLine, Moment.dropped, if_true]
    omega
  · simp only [List.map_append, List.map_singleton, List.sum_append, List.sum_singleton,
      Moment.dropped, Nat.add_zero]
    exact hstep.truncated ▸ h.truncated
  · rw [List.length_append, ← h.records]
    exact hstep.records
  · rw [h.reported]
  · have hentries := h.entries
    have hsize := hstep.size_le
    dsimp only
    omega

theorem feedAll (h : Balanced entries session moments) (lines : List Text) :
    Balanced entries (session.receive (session.scanner.feedAll setting lines))
      (moments ++ session.scanner.moments setting lines) := by
  induction lines generalizing session moments with
  | nil =>
    rw [Scanner.feedAll_nil, receive_eq, List.append_nil, List.append_nil, Scanner.moments,
      List.append_nil]
    exact h
  | cons line rest ih =>
    obtain ⟨next, event, hstep, hok⟩ | ⟨error, hstep⟩ :=
      handles_or_fails setting session.scanner line
    · have hrest := ih (h.step hstep hok)
      simp only [receive_eq, List.append_assoc, List.singleton_append] at hrest ⊢
      rw [hstep.feedAll_cons hok, hstep.moments_cons hok]
      exact hrest
    · rw [hstep.feedAll_cons_unresolved, hstep.moments_cons_unresolved, receive_eq,
        List.append_nil, List.append_nil, List.append_nil]
      exact h

theorem finish (h : Balanced entries session moments) :
    Balanced entries { session with scanner := session.scanner.finish }
      (moments ++ [.ended session.scanner]) := by
  have hlines := h.lines
  rw [Scanner.finish_eq]
  constructor
  · simp only [List.countP_append, List.countP_singleton, List.map_append, List.map_singleton,
      List.sum_append, List.sum_singleton, Moment.isLine, Moment.isRejected, Moment.dropped,
      Bool.false_eq_true, if_false, Tally.lines, Phase.pending] at hlines ⊢
    omega
  · simp only [List.map_append, List.map_singleton, List.sum_append, List.sum_singleton,
      Moment.dropped, Bool.or_eq_true, h.truncated, decide_eq_true_iff]
    omega
  · exact h.records
  · exact h.reported
  · exact h.entries

theorem take (h : Balanced entries session moments) (call : Call) :
    Balanced entries (session.take setting call)
      (moments ++ call.moments setting session.scanner) := by
  cases call with
  | feed line => exact h.feedAll [line]
  | scan lines =>
    have hpass : Balanced entries
        (session.receive (session.scanner.feedAll setting (lines.map Text.trimLineEnd))) _ :=
      h.feedAll _
    unfold Session.take Call.run Call.moments Scanner.scan
    cases hf : (session.scanner.feedAll setting (lines.map Text.trimLineEnd)).failure with
    | some error => simpa [hf] using hpass
    | none =>
      have hend := hpass.finish
      simp only [receive_eq] at hend ⊢
      simpa [hf] using hend

theorem foldl_take (h : Balanced entries session moments) (calls : List Call) :
    Balanced entries (calls.foldl (Session.take setting) session)
      (moments ++ session.moments setting calls) := by
  induction calls generalizing session moments with
  | nil => simpa [Session.moments] using h
  | cons call calls ih =>
    rw [List.foldl_cons, Session.moments, ← List.append_assoc]
    exact ih (h.take call)

end Balanced

/-- At every point of a session, whatever it was called for and whichever lines have failed: each
line that was handled is counted or accounted for, truncation tells exactly of dropped lines, the
counted records are those in the sink, which were reported in their order, and no entry of the
registry is there without a count. The point is behind some calls and some lines of a pass. -/
theorem run_accounts (setting : Setting) (registry : Header.Registry) (calls : List Call)
    (begun : List Text) :
    let before := run setting registry calls
    let session := before.receive (before.scanner.feedAll setting begun)
    let moments := (start registry).moments setting calls ++ before.scanner.moments setting begun
    let tally := session.scanner.tally
    let rejected := moments.countP Moment.isRejected
    let dropped := (moments.map Moment.dropped).sum
    moments.countP Moment.isLine =
        tally.skipped + 2 * tally.abandoned + 3 * (tally.records + tally.headers + rejected) +
          session.scanner.phase.pending + dropped ∧
      (tally.truncated = true ↔ 0 < dropped) ∧
      tally.records = session.sink.length ∧ tally.records = session.reported.length ∧
      session.reported = session.sink ∧
      session.scanner.registry.size ≤ registry.size + tally.headers := by
  intro before session moments tally rejected dropped
  have hbefore : Balanced registry.size before _ := (Balanced.start registry).foldl_take calls
  have h : Balanced registry.size session moments := hbefore.feedAll begun
  have hlines := h.lines
  refine ⟨?_, h.truncated, h.records, ?_, h.reported, h.entries⟩
  · simp only [Tally.lines] at hlines
    simp only [tally, rejected, dropped]
    omega
  · rw [h.reported]
    exact h.records

end Session
end BuildLog.Transcript
