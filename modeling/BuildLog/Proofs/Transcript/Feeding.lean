import BuildLog.Transcript.Scanner
import Mathlib.Data.List.TakeWhile

/-! What each kind of line does to a scanner in each of its phases, and what a run of lines of one
kind does. The rest of the theory of scanners goes through these laws and does not unfold `feed`. -/
namespace BuildLog.Transcript

def goesPast (line : Text) : Bool :=
  !Command.isInvocation line && (BlockKind.ofLine? line).isNone

theorem goesPast_iff {line : Text} :
    goesPast line = true ↔ Command.isInvocation line = false ∧ BlockKind.ofLine? line = none := by
  simp [goesPast]

/-- A line that ends the wait of a block and is no invocation starts a block itself. -/
theorem exists_kind_of_not_goesPast {line : Text} (h : goesPast line = false)
    (hi : Command.isInvocation line = false) : ∃ kind, BlockKind.ofLine? line = some kind := by
  simp only [goesPast, hi, Bool.not_false, Bool.true_and] at h
  exact Option.isSome_iff_exists.mp (Option.isNone_eq_false_iff.mp h)

def Tally.skip (tally : Tally) (count : Nat) : Tally :=
  { tally with skipped := tally.skipped + count }

namespace Scanner

variable (setting : Setting) (registry : Header.Registry) (tally : Tally)

@[simp] theorem feedAll_nil (scanner : Scanner) :
    scanner.feedAll setting [] = ⟨scanner, [], none⟩ := rfl

theorem feedAll_cons_nothing {scanner next : Scanner} {line : Text}
    (h : scanner.feed setting line = (next, .nothing)) (rest : List Text) :
    scanner.feedAll setting (line :: rest) = next.feedAll setting rest := by
  rw [feedAll, h]

theorem feedAll_cons_record {scanner next : Scanner} {line : Text} {record : Record}
    (h : scanner.feed setting line = (next, .record record)) (rest : List Text) :
    scanner.feedAll setting (line :: rest) =
      { next.feedAll setting rest with
        records := record :: (next.feedAll setting rest).records } := by
  rw [feedAll, h]

theorem feedAll_cons_unresolved {scanner next : Scanner} {line : Text} {error : UnresolvedHeader}
    (h : scanner.feed setting line = (next, .unresolved error)) (rest : List Text) :
    scanner.feedAll setting (line :: rest) = ⟨next, [], some error⟩ := by
  rw [feedAll, h]

theorem feed_idle_of_none {line : Text} (h : BlockKind.ofLine? line = none)
    (last : Option Block) :
    (⟨.idle last, registry, tally⟩ : Scanner).feed setting line =
      (⟨.idle last, registry, tally.skip 1⟩, .nothing) := by
  simp [feed, notice, h, Tally.skip]

theorem feed_idle_of_some {line : Text} {kind : BlockKind} (h : BlockKind.ofLine? line = some kind)
    (last : Option Block) :
    (⟨.idle last, registry, tally⟩ : Scanner).feed setting line =
      (⟨.awaitDirectory kind, registry, tally⟩, .nothing) := by
  simp [feed, notice, h]

theorem feed_awaitDirectory (kind : BlockKind) (line : Text) :
    (⟨.awaitDirectory kind, registry, tally⟩ : Scanner).feed setting line =
      (⟨.awaitInvocation ⟨kind, changedDirectory line⟩, registry, tally⟩, .nothing) := rfl

theorem feed_awaitInvocation_of_goesPast {line : Text} (h : goesPast line = true)
    (block : Block) :
    (⟨.awaitInvocation block, registry, tally⟩ : Scanner).feed setting line =
      (⟨.awaitInvocation block, registry, tally.skip 1⟩, .nothing) := by
  obtain ⟨hi, hk⟩ := goesPast_iff.mp h
  simp [feed, notice, hi, hk, Tally.skip]

theorem feed_awaitInvocation_of_some {line : Text} {kind : BlockKind}
    (hi : Command.isInvocation line = false) (hk : BlockKind.ofLine? line = some kind)
    (block : Block) :
    (⟨.awaitInvocation block, registry, tally⟩ : Scanner).feed setting line =
      (⟨.awaitDirectory kind, registry, { tally with abandoned := tally.abandoned + 1 }⟩,
        .nothing) := by
  simp [feed, notice, hi, hk]

theorem feed_precompile_of_some {line : Text} (hi : Command.isInvocation line = true)
    {next : Header.Registry} (hr : registry.register? (Command.arguments line) = some next)
    (directory : Text) :
    (⟨.awaitInvocation ⟨.precompile, directory⟩, registry, tally⟩ : Scanner).feed setting line =
      (⟨.idle (some ⟨.precompile, directory⟩), next,
        { tally with headers := tally.headers + 1 }⟩, .nothing) := by
  simp [feed, complete, hi, hr]

theorem feed_precompile_of_none {line : Text} (hi : Command.isInvocation line = true)
    (hr : registry.register? (Command.arguments line) = none) (directory : Text) :
    (⟨.awaitInvocation ⟨.precompile, directory⟩, registry, tally⟩ : Scanner).feed setting line =
      (⟨.idle (some ⟨.precompile, directory⟩), registry, tally⟩, .nothing) := by
  simp [feed, complete, hi, hr]

theorem feed_compile_of_ok {line directory : Text} (hi : Command.isInvocation line = true)
    {record : Record} (hr : Invocation.record setting registry directory line = .ok record) :
    (⟨.awaitInvocation ⟨.compile, directory⟩, registry, tally⟩ : Scanner).feed setting line =
      (⟨.idle (some ⟨.compile, directory⟩), registry,
        { tally with records := tally.records + 1 }⟩, .record record) := by
  simp [feed, complete, hi, hr]

theorem feed_compile_of_error {line directory : Text} (hi : Command.isInvocation line = true)
    {error : UnresolvedHeader}
    (hr : Invocation.record setting registry directory line = .error error) :
    (⟨.awaitInvocation ⟨.compile, directory⟩, registry, tally⟩ : Scanner).feed setting line =
      (⟨.awaitInvocation ⟨.compile, directory⟩, registry, tally⟩, .unresolved error) := by
  simp [feed, complete, hi, hr]

theorem feedAll_append_of_goesPast {passed : List Text} (h : ∀ line ∈ passed, goesPast line = true)
    (block : Block) (rest : List Text) :
    (⟨.awaitInvocation block, registry, tally⟩ : Scanner).feedAll setting (passed ++ rest) =
      (⟨.awaitInvocation block, registry, tally.skip passed.length⟩ : Scanner).feedAll
        setting rest := by
  induction passed generalizing tally with
  | nil => rfl
  | cons line passed ih =>
    obtain ⟨hline, hpassed⟩ := List.forall_mem_cons.mp h
    rw [List.cons_append, feedAll_cons_nothing setting
      (feed_awaitInvocation_of_goesPast setting registry tally hline block), ih _ hpassed]
    simp [Tally.skip, Nat.add_comm, Nat.add_left_comm]

/-- A block is read up to the first line that may end its wait. -/
theorem feedAll_block {line : Text} {kind : BlockKind} (hk : BlockKind.ofLine? line = some kind)
    (last : Option Block) (directory : Text) (rest : List Text) :
    (⟨.idle last, registry, tally⟩ : Scanner).feedAll setting (line :: directory :: rest) =
      (⟨.awaitInvocation ⟨kind, changedDirectory directory⟩, registry,
        tally.skip (rest.takeWhile goesPast).length⟩ : Scanner).feedAll
          setting (rest.dropWhile goesPast) := by
  rw [feedAll_cons_nothing setting (feed_idle_of_some setting registry tally hk last),
    feedAll_cons_nothing setting (feed_awaitDirectory setting registry tally kind directory),
    ← feedAll_append_of_goesPast setting registry tally fun _ => List.mem_takeWhile_imp,
    List.takeWhile_append_dropWhile]

theorem feedAll_abandoned {line : Text} {kind : BlockKind}
    (hi : Command.isInvocation line = false) (hk : BlockKind.ofLine? line = some kind)
    (block : Block) (rest : List Text) :
    (⟨.awaitInvocation block, registry, tally⟩ : Scanner).feedAll setting (line :: rest) =
      (⟨.idle (some block), registry, { tally with abandoned := tally.abandoned + 1 }⟩ :
        Scanner).feedAll setting (line :: rest) := by
  rw [feedAll_cons_nothing setting
      (feed_awaitInvocation_of_some setting registry tally hi hk block),
    feedAll_cons_nothing setting (feed_idle_of_some setting registry _ hk (some block))]

theorem truncated_notice (scanner : Scanner) (line : Text) :
    (scanner.notice line).tally.truncated = scanner.tally.truncated := by
  unfold notice
  split
  · rfl
  · split <;> rfl

theorem truncated_complete (scanner : Scanner) (block : Block) (line : Text) :
    (scanner.complete setting block line).1.tally.truncated = scanner.tally.truncated := by
  unfold complete
  split <;> split <;> rfl

theorem truncated_feed (scanner : Scanner) (line : Text) :
    (scanner.feed setting line).1.tally.truncated = scanner.tally.truncated := by
  unfold feed
  split
  · exact truncated_notice scanner line
  · rfl
  · split
    · exact truncated_complete setting scanner _ line
    · exact truncated_notice scanner line

theorem truncated_feedAll (scanner : Scanner) (lines : List Text) :
    (scanner.feedAll setting lines).scanner.tally.truncated = scanner.tally.truncated := by
  induction lines generalizing scanner with
  | nil => rfl
  | cons line rest ih =>
    have hfeed := truncated_feed setting scanner line
    cases hstep : scanner.feed setting line with
    | mk next event =>
      rw [hstep] at hfeed
      cases event with
      | nothing =>
        rw [feedAll_cons_nothing setting hstep]
        exact (ih next).trans hfeed
      | record record =>
        rw [feedAll_cons_record setting hstep]
        exact (ih next).trans hfeed
      | unresolved error =>
        rw [feedAll_cons_unresolved setting hstep]
        exact hfeed

end Scanner
end BuildLog.Transcript
