import BuildLog.Proofs.Transcript.Feeding

/-! All that one line can do to a scanner, said once. What holds of every scanner is proved by the
cases of `Step`, and carried over the lines of a run by the laws of `feedAll` below. -/
namespace BuildLog.Transcript

namespace Event

def record? : Event → Option Record
  | .record made => some made
  | _ => none

def error? : Event → Option UnresolvedHeader
  | .unresolved error => some error
  | _ => none

end Event

variable {setting : Setting} {scanner next : Scanner} {line : Text} {event : Event}

inductive Step (setting : Setting) : Scanner → Text → Scanner → Event → Prop
  | stray {last : Option Block} {registry : Header.Registry} {tally : Tally} {line : Text}
    (h : BlockKind.ofLine? line = none) :
    Step setting ⟨.idle last, registry, tally⟩ line ⟨.idle last, registry, tally.skip 1⟩ .nothing
  | begins {last : Option Block} {registry : Header.Registry} {tally : Tally} {line : Text}
    {kind : BlockKind} (h : BlockKind.ofLine? line = some kind) :
    Step setting ⟨.idle last, registry, tally⟩ line ⟨.awaitDirectory kind, registry, tally⟩
      .nothing
  | directory {kind : BlockKind} {registry : Header.Registry} {tally : Tally} {line : Text} :
    Step setting ⟨.awaitDirectory kind, registry, tally⟩ line
      ⟨.awaitInvocation ⟨kind, changedDirectory line⟩, registry, tally⟩ .nothing
  | passed {block : Block} {registry : Header.Registry} {tally : Tally} {line : Text}
    (h : goesPast line = true) :
    Step setting ⟨.awaitInvocation block, registry, tally⟩ line
      ⟨.awaitInvocation block, registry, tally.skip 1⟩ .nothing
  | abandoned {block : Block} {registry : Header.Registry} {tally : Tally} {line : Text}
    {kind : BlockKind} (hi : Command.isInvocation line = false)
    (hk : BlockKind.ofLine? line = some kind) :
    Step setting ⟨.awaitInvocation block, registry, tally⟩ line
      ⟨.awaitDirectory kind, registry, { tally with abandoned := tally.abandoned + 1 }⟩ .nothing
  | registered {directory : Text} {registry larger : Header.Registry} {tally : Tally}
    {line : Text} (hi : Command.isInvocation line = true)
    (hr : registry.register? (Command.arguments line) = some larger) :
    Step setting ⟨.awaitInvocation ⟨.precompile, directory⟩, registry, tally⟩ line
      ⟨.idle (some ⟨.precompile, directory⟩), larger,
        { tally with headers := tally.headers + 1 }⟩ .nothing
  | rejected {directory : Text} {registry : Header.Registry} {tally : Tally} {line : Text}
    (hi : Command.isInvocation line = true)
    (hr : registry.register? (Command.arguments line) = none) :
    Step setting ⟨.awaitInvocation ⟨.precompile, directory⟩, registry, tally⟩ line
      ⟨.idle (some ⟨.precompile, directory⟩), registry, tally⟩ .nothing
  | compiled {directory : Text} {registry : Header.Registry} {tally : Tally} {line : Text}
    {record : Record} (hi : Command.isInvocation line = true)
    (hr : Invocation.record setting registry directory line = .ok record) :
    Step setting ⟨.awaitInvocation ⟨.compile, directory⟩, registry, tally⟩ line
      ⟨.idle (some ⟨.compile, directory⟩), registry, { tally with records := tally.records + 1 }⟩
      (.record record)
  | failed {directory : Text} {registry : Header.Registry} {tally : Tally} {line : Text}
    {error : UnresolvedHeader} (hi : Command.isInvocation line = true)
    (hr : Invocation.record setting registry directory line = .error error) :
    Step setting ⟨.awaitInvocation ⟨.compile, directory⟩, registry, tally⟩ line
      ⟨.awaitInvocation ⟨.compile, directory⟩, registry, tally⟩ (.unresolved error)

namespace Step

theorem feed_eq (h : Step setting scanner line next event) :
    scanner.feed setting line = (next, event) := by
  cases h with
  | stray h => exact Scanner.feed_idle_of_none setting _ _ h _
  | begins h => exact Scanner.feed_idle_of_some setting _ _ h _
  | directory => exact Scanner.feed_awaitDirectory setting _ _ _ line
  | passed h => exact Scanner.feed_awaitInvocation_of_goesPast setting _ _ h _
  | abandoned hi hk => exact Scanner.feed_awaitInvocation_of_some setting _ _ hi hk _
  | registered hi hr => exact Scanner.feed_precompile_of_some setting _ _ hi hr _
  | rejected hi hr => exact Scanner.feed_precompile_of_none setting _ _ hi hr _
  | compiled hi hr => exact Scanner.feed_compile_of_ok setting _ _ hi hr
  | failed hi hr => exact Scanner.feed_compile_of_error setting _ _ hi hr

end Step

/-- Every line takes a step; by `Step.feed_eq` it takes no other. -/
theorem exists_step (setting : Setting) (scanner : Scanner) (line : Text) :
    ∃ next event, Step setting scanner line next event := by
  obtain ⟨phase, registry, tally⟩ := scanner
  cases phase with
  | idle last =>
    cases hk : BlockKind.ofLine? line with
    | none => exact ⟨_, _, .stray hk⟩
    | some kind => exact ⟨_, _, .begins hk⟩
  | awaitDirectory kind => exact ⟨_, _, .directory⟩
  | awaitInvocation block =>
    cases hi : Command.isInvocation line with
    | false =>
      cases hk : BlockKind.ofLine? line with
      | none => exact ⟨_, _, .passed (goesPast_iff.mpr ⟨hi, hk⟩)⟩
      | some kind => exact ⟨_, _, .abandoned hi hk⟩
    | true =>
      obtain ⟨_ | _, directory⟩ := block
      · cases hr : Invocation.record setting registry directory line with
        | ok record => exact ⟨_, _, .compiled hi hr⟩
        | error error => exact ⟨_, _, .failed hi hr⟩
      · cases hr : registry.register? (Command.arguments line) with
        | some larger => exact ⟨_, _, .registered hi hr⟩
        | none => exact ⟨_, _, .rejected hi hr⟩

/-- A line that fails leaves the scanner where it was, in a compiling block that waits. -/
theorem Step.of_unresolved {error : UnresolvedHeader}
    (h : Step setting scanner line next (.unresolved error)) :
    next = scanner ∧ ∃ directory, scanner.phase = .awaitInvocation ⟨.compile, directory⟩ := by
  cases h with
  | failed hi hr => exact ⟨rfl, _, rfl⟩

/-- The two ways a line can go, which is what the runs below split on. -/
theorem handles_or_fails (setting : Setting) (scanner : Scanner) (line : Text) :
    (∃ next event, Step setting scanner line next event ∧ event.error? = none) ∨
      ∃ error, Step setting scanner line scanner (.unresolved error) := by
  obtain ⟨next, event, hstep⟩ := exists_step setting scanner line
  cases event with
  | nothing | record made => exact .inl ⟨next, _, hstep, rfl⟩
  | unresolved error =>
    obtain ⟨rfl, -⟩ := hstep.of_unresolved
    exact .inr ⟨error, hstep⟩

/-! Runs of lines, step by step. -/

theorem Step.feedAll_cons (h : Step setting scanner line next event) (hok : event.error? = none)
    (rest : List Text) :
    scanner.feedAll setting (line :: rest) =
      { next.feedAll setting rest with
        records := event.record?.toList ++ (next.feedAll setting rest).records } := by
  cases event with
  | nothing => rw [Scanner.feedAll_cons_nothing setting h.feed_eq rest]; rfl
  | record made => exact Scanner.feedAll_cons_record setting h.feed_eq rest
  | unresolved error => cases hok

theorem Step.feedAll_cons_unresolved {error : UnresolvedHeader}
    (h : Step setting scanner line next (.unresolved error)) (rest : List Text) :
    scanner.feedAll setting (line :: rest) = ⟨scanner, [], some error⟩ := by
  rw [Scanner.feedAll_cons_unresolved setting h.feed_eq rest, h.of_unresolved.1]

theorem Step.feedAll_singleton (h : Step setting scanner line next event) :
    scanner.feedAll setting [line] = ⟨next, event.record?.toList, event.error?⟩ := by
  cases event with
  | nothing | record made => rw [h.feedAll_cons rfl]; rfl
  | unresolved error =>
    rw [h.feedAll_cons_unresolved, h.of_unresolved.1]
    rfl

theorem kept_feedAll {Kept : Scanner → Prop} {lines : List Text}
    (hkept : ∀ line ∈ lines, ∀ before after event,
      Step setting before line after event → Kept before → Kept after)
    (hscanner : Kept scanner) : Kept (scanner.feedAll setting lines).scanner := by
  induction lines generalizing scanner with
  | nil => exact hscanner
  | cons line lines ih =>
    obtain ⟨hline, hlines⟩ := List.forall_mem_cons.mp hkept
    obtain ⟨next, event, hstep, hok⟩ | ⟨error, hstep⟩ := handles_or_fails setting scanner line
    · rw [hstep.feedAll_cons hok]
      exact ih hlines (hline _ _ _ hstep hscanner)
    · rw [hstep.feedAll_cons_unresolved]
      exact hscanner

/-- A record of a run was made at one of its lines, by a scanner of which holds what holds at first
and is kept by every line. -/
theorem exists_step_of_mem_records {Kept : Scanner → Prop} {lines : List Text} {record : Record}
    (hkept : ∀ line ∈ lines, ∀ before after event,
      Step setting before line after event → Kept before → Kept after)
    (hscanner : Kept scanner) (h : record ∈ (scanner.feedAll setting lines).records) :
    ∃ line ∈ lines, ∃ before after,
      Step setting before line after (.record record) ∧ Kept before := by
  induction lines generalizing scanner with
  | nil => cases h
  | cons line lines ih =>
    obtain ⟨hline, hlines⟩ := List.forall_mem_cons.mp hkept
    obtain ⟨next, event, hstep, hok⟩ | ⟨error, hstep⟩ := handles_or_fails setting scanner line
    · rw [hstep.feedAll_cons hok] at h
      rcases List.mem_append.mp h with h | h
      · cases event with
        | record made =>
          rw [List.mem_singleton.mp h]
          exact ⟨line, List.mem_cons_self, scanner, next, hstep, hscanner⟩
        | nothing | unresolved => cases h
      · obtain ⟨later, hlater, hmade⟩ := ih hlines (hline _ _ _ hstep hscanner) h
        exact ⟨later, List.mem_cons_of_mem _ hlater, hmade⟩
    · rw [hstep.feedAll_cons_unresolved] at h
      cases h

def Run.feedAll (setting : Setting) (run : Run) (lines : List Text) : Run :=
  match run.failure with
  | some _ => run
  | none =>
    let later := run.scanner.feedAll setting lines
    { later with records := run.records ++ later.records }

theorem Run.feedAll_of_none {run : Run} (h : run.failure = none) (lines : List Text) :
    run.feedAll setting lines =
      { run.scanner.feedAll setting lines with
        records := run.records ++ (run.scanner.feedAll setting lines).records } := by
  rw [Run.feedAll, h]

theorem Run.failure_of_feedAll {run : Run} {lines : List Text}
    (h : (run.feedAll setting lines).failure = none) : run.failure = none := by
  cases hf : run.failure with
  | none => rfl
  | some error =>
    rw [Run.feedAll, hf] at h
    rw [← hf]
    exact h

namespace Scanner

theorem feedAll_append (setting : Setting) (scanner : Scanner) (before after : List Text) :
    scanner.feedAll setting (before ++ after) =
      (scanner.feedAll setting before).feedAll setting after := by
  induction before generalizing scanner with
  | nil => rfl
  | cons line before ih =>
    rw [List.cons_append]
    obtain ⟨next, event, hstep, hok⟩ | ⟨error, hstep⟩ := handles_or_fails setting scanner line
    · rw [hstep.feedAll_cons hok, hstep.feedAll_cons hok, ih]
      cases hf : (next.feedAll setting before).failure <;> simp [Run.feedAll, hf]
    · rw [hstep.feedAll_cons_unresolved, hstep.feedAll_cons_unresolved]
      rfl

end Scanner

end BuildLog.Transcript
