import BuildLog.Header.Session
import BuildLog.Proofs.Transcript.Steps

/-! A scanner finds its way back. The first lines of a block put everything in place that its
invocation depends on, and so nothing of an earlier block, one that was abandoned or has failed,
tells in what the next one comes to. -/
namespace BuildLog.Transcript

/-- What some lines come to, apart from where they leave the scanner and from what is counted. -/
structure Outcome where
  records : List Record
  failure : Option UnresolvedHeader
  registry : Header.Registry

def Run.outcome (run : Run) : Outcome := ⟨run.records, run.failure, run.scanner.registry⟩

def Block.outcome (setting : Setting) (registry : Header.Registry) (block : Block)
    (invocation : Text) : Outcome :=
  match block.kind with
  | .precompile => ⟨[], none, registry.register (Command.arguments invocation)⟩
  | .compile =>
    match Invocation.record setting registry block.directory invocation with
    | .ok record => ⟨[record], none, registry⟩
    | .error error => ⟨[], some error, registry⟩

/-- Whether a block waits for its invocation. -/
def Phase.isWaiting : Phase → Bool
  | .awaitInvocation _ => true
  | _ => false

variable {marker changes invocation : Text} {kind : BlockKind}

structure Block.EndsIn (setting : Setting) (registry : Header.Registry) (tally : Tally)
    (block : Block) (invocation : Text) (run : Run) : Prop where
  outcome : run.outcome = block.outcome setting registry invocation
  stands : run.scanner.phase.block? = some block
  idle : run.failure = none → run.scanner.phase = .idle (some block)
  abandoned : run.scanner.tally.abandoned = tally.abandoned

theorem Block.endsIn_feedAll (setting : Setting) (registry : Header.Registry) (tally : Tally)
    (block : Block) (hi : Command.isInvocation invocation = true) :
    block.EndsIn setting registry tally invocation
      ((⟨.awaitInvocation block, registry, tally⟩ : Scanner).feedAll setting [invocation]) := by
  obtain ⟨next, event, hstep⟩ :=
    exists_step setting ⟨.awaitInvocation block, registry, tally⟩ invocation
  rw [hstep.feedAll_singleton]
  cases hstep with
  | passed hpast => simp [(goesPast_iff.mp hpast).1] at hi
  | abandoned hi' => simp [hi'] at hi
  | registered _ hr | rejected _ hr =>
    refine ⟨?_, rfl, fun _ => rfl, rfl⟩
    simp [Run.outcome, Block.outcome, Header.Registry.register, hr, Event.record?, Event.error?]
  | compiled _ hr =>
    refine ⟨?_, rfl, fun _ => rfl, rfl⟩
    simp [Run.outcome, Block.outcome, hr, Event.record?, Event.error?]
  | failed _ hr =>
    refine ⟨?_, rfl, fun hok => ?_, rfl⟩
    · simp [Run.outcome, Block.outcome, hr, Event.record?, Event.error?]
    · cases hok

/-- The counts behind a line that starts a block: one that waits for its invocation is abandoned. -/
def Scanner.tallyBehind (scanner : Scanner) : Tally :=
  { scanner.tally with
    abandoned := scanner.tally.abandoned + scanner.phase.isWaiting.toNat }

/-- From every phase but the one before a directory line, the first lines of a block lead to the
same place. -/
theorem feedAll_first_lines (setting : Setting) (scanner : Scanner)
    (hphase : ∀ awaited, scanner.phase ≠ .awaitDirectory awaited)
    (hk : BlockKind.ofLine? marker = some kind) (hm : Command.isInvocation marker = false)
    (changes : Text) (rest : List Text) :
    scanner.feedAll setting (marker :: changes :: rest) =
      (⟨.awaitInvocation ⟨kind, changedDirectory changes⟩, scanner.registry,
        scanner.tallyBehind⟩ : Scanner).feedAll setting rest := by
  obtain ⟨phase, registry, tally⟩ := scanner
  cases phase with
  | idle last =>
    rw [Scanner.feedAll_cons_nothing setting (Step.begins hk).feed_eq,
      Scanner.feedAll_cons_nothing setting Step.directory.feed_eq]
    rfl
  | awaitDirectory awaited => exact absurd rfl (hphase awaited)
  | awaitInvocation block =>
    rw [Scanner.feedAll_cons_nothing setting (Step.abandoned hm hk).feed_eq,
      Scanner.feedAll_cons_nothing setting Step.directory.feed_eq]
    rfl

/-- Three lines that start a block, change to its directory and are its invocation leave every
scanner idle, unless the invocation fails. Unless the first of them was read as the directory of
another block, they come to what their block comes to, and the run is that of an idle scanner with
the same registry, whatever block the scanner had in hand before. Of that one it is only counted
that it was abandoned. -/
theorem feedAll_resynchronizes (setting : Setting) (scanner : Scanner)
    (hk : BlockKind.ofLine? marker = some kind) (hm : Command.isInvocation marker = false)
    (hd : goesPast changes = true) (hi : Command.isInvocation invocation = true) :
    let lines := [marker, changes, invocation]
    let run := scanner.feedAll setting lines
    let block : Block := ⟨kind, changedDirectory changes⟩
    (run.failure = none → ∃ last, run.scanner.phase = .idle last) ∧
      ((∀ awaited, scanner.phase ≠ .awaitDirectory awaited) →
        run.outcome = block.outcome setting scanner.registry invocation ∧
        run.scanner.phase.block? = some block ∧
        (∀ last, run =
          (⟨.idle last, scanner.registry, scanner.tallyBehind⟩ : Scanner).feedAll setting lines) ∧
        (∀ last tally, run.outcome =
          ((⟨.idle last, scanner.registry, tally⟩ : Scanner).feedAll setting lines).outcome) ∧
        run.scanner.tally.abandoned = scanner.tally.abandoned + scanner.phase.isWaiting.toNat) := by
  intro lines run block
  have hrun (scanner : Scanner) (hphase : ∀ awaited, scanner.phase ≠ .awaitDirectory awaited) :
      scanner.feedAll setting lines =
        (⟨.awaitInvocation block, scanner.registry, scanner.tallyBehind⟩ : Scanner).feedAll
          setting [invocation] :=
    feedAll_first_lines setting scanner hphase hk hm changes [invocation]
  have hends (registry : Header.Registry) (tally : Tally) (waiting : Block) :
      waiting.EndsIn setting registry tally invocation
        ((⟨.awaitInvocation waiting, registry, tally⟩ : Scanner).feedAll setting [invocation]) :=
    waiting.endsIn_feedAll setting registry tally hi
  refine ⟨?_, ?_⟩
  · intro hok
    by_cases hphase : ∀ awaited, scanner.phase ≠ .awaitDirectory awaited
    · unfold run at hok ⊢
      rw [hrun scanner hphase] at hok ⊢
      exact ⟨_, (hends _ _ _).idle hok⟩
    · -- the block before takes the first line for its directory, and its invocation from this one
      obtain ⟨phase, registry, tally⟩ := scanner
      obtain ⟨awaited, hawaited⟩ := not_forall_not.mp hphase
      cases hawaited
      have hbefore : run = (⟨.awaitInvocation ⟨awaited, changedDirectory marker⟩, registry,
          tally.skip 1⟩ : Scanner).feedAll setting [invocation] := by
        rw [← Scanner.feedAll_cons_nothing setting (Step.passed hd).feed_eq,
          ← Scanner.feedAll_cons_nothing setting Step.directory.feed_eq]
      rw [hbefore] at hok ⊢
      exact ⟨_, (hends _ _ _).idle hok⟩
  · intro hphase
    have hidle (last : Option Block) (tally : Tally) :
        (⟨.idle last, scanner.registry, tally⟩ : Scanner).feedAll setting lines =
          (⟨.awaitInvocation block, scanner.registry, tally⟩ : Scanner).feedAll setting
            [invocation] := hrun ⟨.idle last, scanner.registry, tally⟩ (by simp)
    have hthis := hends scanner.registry scanner.tallyBehind block
    rw [← hrun scanner hphase] at hthis
    refine ⟨hthis.outcome, hthis.stands, ?_, ?_, hthis.abandoned⟩
    · intro last
      rw [hidle]
      exact hrun scanner hphase
    · intro last tally
      rw [hidle, (hends _ _ _).outcome]
      exact hthis.outcome

theorem feedAll_resynchronizes_behind_abandoned :
    let setting : Setting := ⟨fun _ => false, false⟩
    let scanner : Scanner := ⟨.awaitInvocation ⟨.precompile, "/old".toList⟩, .empty, .zero⟩
    let lines := ["CompileC b.o".toList, "    cd /new".toList, "clang -c b.m -o b.o".toList]
    let run := scanner.feedAll setting lines
    run.outcome = ⟨[⟨"/new".toList, "b.m".toList, "-c b.m -o b.o".toList⟩], none, .empty⟩ ∧
      run.scanner.phase = .idle (some ⟨.compile, "/new".toList⟩) ∧
      run.outcome = ((Scanner.start .empty).feedAll setting lines).outcome ∧
      run.scanner.tally.abandoned = 1 := by
  intro setting scanner lines run
  have hk : BlockKind.ofLine? "CompileC b.o".toList = some .compile := by decide
  have hm : Command.isInvocation "CompileC b.o".toList = false := by decide
  have hd : goesPast "    cd /new".toList = true := by decide
  have hi : Command.isInvocation "clang -c b.m -o b.o".toList = true := by decide
  obtain ⟨hidle, hends⟩ := feedAll_resynchronizes setting scanner hk hm hd hi
  obtain ⟨houtcome, hblock, -, hsame, habandoned⟩ := hends (by simp [scanner])
  have hdirectory : changedDirectory "    cd /new".toList = "/new".toList := by decide
  have hmade : Invocation.record setting .empty "/new".toList "clang -c b.m -o b.o".toList =
      .ok ⟨"/new".toList, "b.m".toList, "-c b.m -o b.o".toList⟩ := by decide
  rw [hdirectory] at houtcome hblock
  simp only [Block.outcome, scanner, hmade] at houtcome
  obtain ⟨last, hlast⟩ := hidle (congrArg Outcome.failure houtcome)
  rw [hlast] at hblock
  refine ⟨houtcome, ?_, hsame none .zero, habandoned⟩
  rw [hlast]
  exact congrArg Phase.idle hblock

end BuildLog.Transcript
