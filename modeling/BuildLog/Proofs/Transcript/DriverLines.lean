import BuildLog.Proofs.Command.Pattern
import BuildLog.Proofs.Transcript.Steps

/-! A block that waits for its invocation takes every line that runs a driver for one, whatever else
the line says. So no such line is skipped, and none is taken for the start of another block. -/
namespace BuildLog.Transcript

variable {setting : Setting} {scanner next : Scanner} {line : Text} {event : Event} {block : Block}

theorem Step.of_isInvocation (h : Step setting scanner line next event)
    (hphase : scanner.phase = .awaitInvocation block) (hi : Command.isInvocation line = true) :
    ((∃ error, event = .unresolved error ∧ next = scanner ∧ block.kind = .compile ∧
          Invocation.record setting scanner.registry block.directory line = .error error) ∨
        (event.error? = none ∧ next.phase = .idle (some block))) ∧
      next.tally.skipped = scanner.tally.skipped ∧
      next.tally.abandoned = scanner.tally.abandoned := by
  cases h with
  | stray | begins | directory => cases hphase
  | passed hpast => simp [(goesPast_iff.mp hpast).1] at hi
  | abandoned hi' => simp [hi'] at hi
  | registered | rejected | compiled =>
    cases hphase
    exact ⟨.inr ⟨rfl, rfl⟩, rfl, rfl⟩
  | failed hi hr =>
    cases hphase
    exact ⟨.inl ⟨_, rfl, rfl, rfl, hr⟩, rfl, rfl⟩

/-- The line of arguments that run a driver is an invocation. A block that waits for one either ends
at it or fails of a header that stands for nothing; the line is not skipped and does not abandon the
block, also if one of the arguments holds the marker of a block. -/
theorem feed_logLine_ends_block {arguments : List Text} {i j k : Nat}
    (h : Command.RunsAt arguments i j k) (hfree : ∀ argument ∈ arguments, '\n' ∉ argument) :
    let line := Command.logLine arguments
    Command.isInvocation line = true ∧
      ∀ (setting : Setting) (scanner : Scanner) (block : Block),
        scanner.phase = .awaitInvocation block →
        ∃ next event, scanner.feed setting line = (next, event) ∧
          ((∃ error, event = .unresolved error ∧ next = scanner ∧ block.kind = .compile ∧
              Invocation.record setting scanner.registry block.directory line = .error error) ∨
            (event.error? = none ∧ next.phase = .idle (some block))) ∧
          next.tally.skipped = scanner.tally.skipped ∧
          next.tally.abandoned = scanner.tally.abandoned := by
  intro line
  have hi := Command.isInvocation_logLine h hfree
  refine ⟨hi, ?_⟩
  intro setting scanner block hphase
  obtain ⟨next, event, hstep⟩ := exists_step setting scanner line
  exact ⟨next, event, hstep.feed_eq, hstep.of_isInvocation hphase hi⟩

theorem feed_logLine_ends_block_of_markers :
    let arguments := ["CompileC", "/my tools/llvm-g++", "-DX=1 2", "-c", "ProcessPCH.m", "-o",
      "a.o"].map String.toList
    let line := "CompileC /my\\ tools/llvm-g++ -DX=1\\ 2 -c ProcessPCH.m -o a.o".toList
    let scanner : Scanner := ⟨.awaitInvocation ⟨.precompile, "/w".toList⟩, .empty, .zero⟩
    let next := (scanner.feed ⟨fun _ => false, false⟩ line).1
    Command.logLine arguments = line ∧ Command.RunsAt arguments 1 3 5 ∧
      Command.isInvocation line = true ∧ next.phase = .idle (some ⟨.precompile, "/w".toList⟩) ∧
      next.tally.skipped = 0 ∧ next.tally.abandoned = 0 := by
  intro arguments line scanner next
  have hline : Command.logLine arguments = line := by decide
  have hruns : Command.RunsAt arguments 1 3 5 :=
    ⟨⟨"/my tools/llvm-g++".toList, rfl, by decide⟩, rfl, rfl, by decide, by decide, by decide⟩
  have hfree : ∀ argument ∈ arguments, '\n' ∉ argument := by decide
  obtain ⟨hi, hfeed⟩ := feed_logLine_ends_block hruns hfree
  obtain ⟨reached, event, hreached, hends, hskipped, habandoned⟩ :=
    hfeed ⟨fun _ => false, false⟩ scanner _ rfl
  rw [hline] at hi hreached
  obtain rfl : next = reached := congrArg Prod.fst hreached
  refine ⟨hline, hruns, hi, ?_, hskipped, habandoned⟩
  obtain ⟨error, -, -, hkind, -⟩ | ⟨-, hphase⟩ := hends
  · cases hkind
  · exact hphase

end BuildLog.Transcript
