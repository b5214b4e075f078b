import BuildLog.Proofs.Invocation.Headers
import BuildLog.Proofs.Transcript.Accounting
import BuildLog.Proofs.Transcript.Parts
import Mathlib.Data.List.Forall2

/-! A precompiling block that is put into a log breaks nothing. The scanner behind it knows at least
the headers that it would have known, so every later block comes to its end as before, and only
the headers that a command names can be others. -/
namespace BuildLog.Transcript

/-- Phases that no line tells apart: what an idle scanner remembers does not count. -/
inductive Phase.Alike : Phase → Phase → Prop
  | idle (last other : Option Block) : Alike (.idle last) (.idle other)
  | same (phase : Phase) : Alike phase phase

theorem Phase.Alike.pending_eq {phase other : Phase} (h : phase.Alike other) :
    other.pending = phase.pending := by
  cases h <;> rfl

/-- A scanner that stands where another one does and knows more headers, some of which it has
counted. -/
structure Ahead (extra : Nat) (plain more : Scanner) : Prop where
  phase : plain.phase.Alike more.phase
  registry : more.registry.Covers plain.registry
  tally : more.tally = { plain.tally with headers := plain.tally.headers + extra }

theorem forall₂_toList {α : Type} {R : α → α → Prop} {a b : Option α} (h : Option.Rel R a b) :
    List.Forall₂ R a.toList b.toList := by
  cases h with
  | none => exact .nil
  | some h => exact .cons h .nil

variable {setting : Setting}

namespace Ahead

variable {extra : Nat} {plain more : Scanner}

theorem of_tally {phase other : Phase} {registry larger : Header.Registry} {tally : Tally}
    (hphase : phase.Alike other) (hregistry : larger.Covers registry) :
    Ahead extra ⟨phase, registry, tally⟩
      ⟨other, larger, { tally with headers := tally.headers + extra }⟩ :=
  ⟨hphase, hregistry, rfl⟩

theorem refl (scanner : Scanner) : Ahead 0 scanner scanner := ⟨.same _, .refl _, rfl⟩

theorem register {registry larger next : Header.Registry} {arguments : List Text}
    (h : larger.Covers registry) (hr : registry.register? arguments = some next) :
    ∃ other, larger.register? arguments = some other ∧ other.Covers next := by
  obtain ⟨build, hbuild, rfl⟩ := Header.Registry.exists_build_of_register? hr
  refine ⟨larger.insert build, ?_, h.insert build⟩
  rw [Header.Registry.register?, hbuild, Option.map_some]

theorem step (h : Ahead extra plain more) {line : Text} {next : Scanner} {event : Event}
    (hstep : Step setting plain line next event) (hok : event.error? = none) :
    ∃ next' event', Step setting more line next' event' ∧ Ahead extra next next' ∧
      event'.error? = none ∧ Option.Rel Record.DiffersByHeaders event.record? event'.record? := by
  obtain ⟨phase, larger, tally⟩ := more
  obtain ⟨hphase, hregistry, htally⟩ := h
  dsimp only at hphase hregistry htally
  subst htally
  cases hstep with
  | stray hk =>
    cases hphase with
    | idle | same => exact ⟨_, _, .stray hk, of_tally (.idle _ _) hregistry, rfl, .none⟩
  | begins hk =>
    cases hphase with
    | idle | same => exact ⟨_, _, .begins hk, of_tally (.same _) hregistry, rfl, .none⟩
  | directory =>
    cases hphase
    exact ⟨_, _, .directory, of_tally (.same _) hregistry, rfl, .none⟩
  | passed hp =>
    cases hphase
    exact ⟨_, _, .passed hp, of_tally (.same _) hregistry, rfl, .none⟩
  | abandoned hi hk =>
    cases hphase
    exact ⟨_, _, .abandoned hi hk, of_tally (.same _) hregistry, rfl, .none⟩
  | registered hi hr =>
    cases hphase
    obtain ⟨other, hother, hcovers⟩ := register hregistry hr
    refine ⟨_, _, .registered hi hother, ⟨.same _, hcovers, ?_⟩, rfl, .none⟩
    simp only [Nat.add_right_comm]
  | rejected hi hr =>
    cases hphase
    have hother : larger.register? _ = none :=
      Option.map_eq_none_iff.mpr (Option.map_eq_none_iff.mp hr)
    exact ⟨_, _, .rejected hi hother, of_tally (.same _) hregistry, rfl, .none⟩
  | compiled hi hr =>
    cases hphase
    obtain ⟨record, hrecord, hdiffers⟩ := Invocation.record_of_covers hregistry hr
    exact ⟨_, _, .compiled hi hrecord, of_tally (.same _) hregistry, rfl, .some hdiffers⟩
  | failed hi hr => cases hok

theorem feedAll (h : Ahead extra plain more) {lines : List Text}
    (hdone : (plain.feedAll setting lines).failure = none) :
    (more.feedAll setting lines).failure = none ∧
      List.Forall₂ Record.DiffersByHeaders (plain.feedAll setting lines).records
        (more.feedAll setting lines).records ∧
      Ahead extra (plain.feedAll setting lines).scanner (more.feedAll setting lines).scanner := by
  induction lines generalizing plain more with
  | nil => exact ⟨rfl, .nil, h⟩
  | cons line rest ih =>
    obtain ⟨next, event, hstep, hok⟩ | ⟨error, hstep⟩ := handles_or_fails setting plain line
    · obtain ⟨next', event', hstep', hahead, hok', hrecord⟩ := h.step hstep hok
      rw [hstep.feedAll_cons hok] at hdone ⊢
      rw [hstep'.feedAll_cons hok']
      obtain ⟨hfailure, hrecords, hscanner⟩ := ih hahead hdone
      exact ⟨hfailure, List.rel_append (forall₂_toList hrecord) hrecords, hscanner⟩
    · rw [hstep.feedAll_cons_unresolved] at hdone
      cases hdone

theorem finish (h : Ahead extra plain more) : Ahead extra plain.finish more.finish := by
  rw [Scanner.finish_eq, Scanner.finish_eq]
  refine ⟨.idle _ _, h.registry, ?_⟩
  rw [h.tally, h.phase.pending_eq]

end Ahead

theorem feedAll_precompile_block (setting : Setting) {scanner : Scanner} {last : Option Block}
    (hidle : scanner.phase = .idle last) {marker invocation : Text}
    (hk : BlockKind.ofLine? marker = some .precompile)
    (hi : Command.isInvocation invocation = true) (directory : Text) :
    ∃ next, scanner.feedAll setting [marker, directory, invocation] = ⟨next, [], none⟩ ∧
      Ahead (Header.Build.ofArguments? (Command.arguments invocation)).isSome.toNat
        scanner next := by
  obtain ⟨phase, registry, tally⟩ := scanner
  cases hidle
  rw [Scanner.feedAll_cons_nothing setting
      (Scanner.feed_idle_of_some setting registry tally hk last),
    Scanner.feedAll_cons_nothing setting
      (Scanner.feed_awaitDirectory setting registry tally .precompile directory)]
  cases hbuild : Header.Build.ofArguments? (Command.arguments invocation) with
  | none =>
    have hr : registry.register? (Command.arguments invocation) = none := by
      rw [Header.Registry.register?, hbuild, Option.map_none]
    rw [Scanner.feedAll_cons_nothing setting
      (Scanner.feed_precompile_of_none setting registry tally hi hr _)]
    exact ⟨_, rfl, .idle _ _, .refl registry, rfl⟩
  | some build =>
    have hr : registry.register? (Command.arguments invocation) = some (registry.insert build) := by
      rw [Header.Registry.register?, hbuild, Option.map_some]
    rw [Scanner.feedAll_cons_nothing setting
      (Scanner.feed_precompile_of_some setting registry tally hi hr _)]
    exact ⟨_, rfl, .idle _ _, .insert_self registry build, rfl⟩

/-- Lines that come to their end without a failure do so also with a precompiling block among them,
wherever the scanner is idle. They make as many records, which differ at most in the headers that
their commands include, and all counts are the same but that of headers. -/
theorem feedAll_insert_precompile_block {scanner : Scanner} {before after : List Text}
    {last : Option Block} {marker invocation : Text}
    (hidle : (scanner.feedAll setting before).scanner.phase = .idle last)
    (hdone : (scanner.feedAll setting (before ++ after)).failure = none)
    (hmarker : Text.has BlockKind.precompile.marker marker = true)
    (hcompile : Text.has BlockKind.compile.marker marker = false)
    (hi : Command.isInvocation invocation = true) (directory : Text) :
    let plain := scanner.feedAll setting (before ++ after)
    let more := scanner.feedAll setting (before ++ [marker, directory, invocation] ++ after)
    let registered := (Header.Build.ofArguments? (Command.arguments invocation)).isSome.toNat
    more.failure = none ∧
      List.Forall₂ Record.DiffersByHeaders plain.records more.records ∧
      more.scanner.tally =
        { plain.scanner.tally with headers := plain.scanner.tally.headers + registered } ∧
      more.ended.scanner.tally =
        { plain.ended.scanner.tally with
          headers := plain.ended.scanner.tally.headers + registered } := by
  intro plain more registered
  have hk : BlockKind.ofLine? marker = some .precompile := by
    rw [BlockKind.ofLine?, hcompile, hmarker]
    rfl
  have hbefore : (scanner.feedAll setting before).failure = none := by
    rw [Scanner.feedAll_append] at hdone
    exact Run.failure_of_feedAll hdone
  obtain ⟨next, hblock, hahead⟩ :=
    feedAll_precompile_block setting hidle hk hi directory
  have hplain : plain =
      { (scanner.feedAll setting before).scanner.feedAll setting after with
        records := (scanner.feedAll setting before).records ++
          ((scanner.feedAll setting before).scanner.feedAll setting after).records } := by
    unfold plain
    rw [Scanner.feedAll_append, Run.feedAll_of_none hbefore]
  have hmore : more =
      { next.feedAll setting after with
        records := (scanner.feedAll setting before).records ++
          (next.feedAll setting after).records } := by
    unfold more
    rw [List.append_assoc, Scanner.feedAll_append, Run.feedAll_of_none hbefore,
      Scanner.feedAll_append, hblock, Run.feedAll_of_none rfl, List.nil_append]
  have hrest : ((scanner.feedAll setting before).scanner.feedAll setting after).failure = none := by
    have hplaindone : plain.failure = none := hdone
    rw [hplain] at hplaindone
    exact hplaindone
  obtain ⟨hfailure, hrecords, hscanner⟩ := hahead.feedAll hrest
  have hsame : List.Forall₂ Record.DiffersByHeaders (scanner.feedAll setting before).records
      (scanner.feedAll setting before).records := ((Ahead.refl scanner).feedAll hbefore).2.1
  rw [hplain, hmore]
  refine ⟨hfailure, List.rel_append hsame hrecords, hscanner.tally, ?_⟩
  simp only [Run.ended, hfailure, hrest]
  exact hscanner.finish.tally

theorem feedAll_insert_precompile_block_of_other_header :
    let setting : Setting := ⟨fun _ => false, false⟩
    let scanner := Scanner.start .empty
    let before : List Text :=
      ["ProcessPCH p".toList, [], "clang -c old.h -o p.pch.pch".toList]
    let after : List Text :=
      ["CompileC a".toList, "    cd /w".toList, "clang -include p.pch -c a.m -o a.o".toList]
    let more := scanner.feedAll setting
      (before ++ ["ProcessPCH q".toList, [], "gcc -c new.h -o p.pch.pth".toList] ++ after)
    (scanner.feedAll setting (before ++ after)).failure = none ∧ more.failure = none ∧
      more.scanner.tally = ⟨1, 2, 0, 0, false⟩ ∧
      List.Forall₂ Record.DiffersByHeaders
        [⟨"/w".toList, "a.m".toList, "-include old.h -c a.m -o a.o".toList⟩]
        [⟨"/w".toList, "a.m".toList, "-include new.h -c a.m -o a.o".toList⟩] := by
  intro setting scanner before after more
  have hidle : (scanner.feedAll setting before).scanner.phase =
      .idle (some ⟨.precompile, []⟩) := by decide
  have hdone : (scanner.feedAll setting (before ++ after)).failure = none := by decide
  have hmarker : Text.has BlockKind.precompile.marker "ProcessPCH q".toList = true := by decide
  have hcompile : Text.has BlockKind.compile.marker "ProcessPCH q".toList = false := by decide
  have hi : Command.isInvocation "gcc -c new.h -o p.pch.pth".toList = true := by decide
  have hplain : (scanner.feedAll setting (before ++ after)).records =
      [⟨"/w".toList, "a.m".toList, "-include old.h -c a.m -o a.o".toList⟩] := by decide
  have hmore : more.records =
      [⟨"/w".toList, "a.m".toList, "-include new.h -c a.m -o a.o".toList⟩] := by decide
  have htally : (scanner.feedAll setting (before ++ after)).scanner.tally =
      ⟨1, 1, 0, 0, false⟩ := by decide
  have hregistered : (Header.Build.ofArguments?
      (Command.arguments "gcc -c new.h -o p.pch.pth".toList)).isSome.toNat = 1 := by decide
  obtain ⟨hfailure, hrecords, hcounts, -⟩ :=
    feedAll_insert_precompile_block hidle hdone hmarker hcompile hi []
  rw [hplain, hmore] at hrecords
  rw [htally, hregistered] at hcounts
  exact ⟨hdone, hfailure, hcounts, hrecords⟩

end BuildLog.Transcript
