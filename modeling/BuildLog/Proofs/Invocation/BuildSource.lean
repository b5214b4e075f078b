import BuildLog.Proofs.Header.Build
import BuildLog.Proofs.Header.Registry
import BuildLog.Proofs.Invocation.Driver
import BuildLog.Proofs.Invocation.SourceFile

/-! The source of an invocation, read in two ways. The registry looks at neighbours among all
arguments, the walk that makes a record pairs each flag with what follows it and goes on behind
both. The two differ only at a flag of the source that stands where another flag takes it. -/
namespace BuildLog

namespace Header.Build

def sources (arguments : List Text) : List Text :=
  ((neighbours arguments).filter fun (flag, _) => flag = "-c".toList).map Prod.snd

theorem source?_eq (arguments : List Text) : source? arguments = (sources arguments).getLast? :=
  List.getLast?_map.symm

theorem sources_cons_of_ne {argument : Text} (h : argument ≠ "-c".toList) (rest : List Text) :
    sources (argument :: rest) = sources rest := by
  cases rest with
  | nil => rfl
  | cons next rest =>
    have hpair : neighbours (argument :: next :: rest) =
        (argument, next) :: neighbours (next :: rest) := rfl
    unfold sources
    rw [hpair, List.filter_cons_of_neg (by simpa using h)]

theorem sources_flag (next : Text) (rest : List Text) :
    sources ("-c".toList :: next :: rest) = next :: sources (next :: rest) := rfl

end Header.Build

open Header (Build Registry)

/-- No flag of the source stands right behind a flag that would take it as its argument. -/
def FlagsApart (arguments : List Text) : Prop :=
  arguments.IsChain fun flag next =>
    ¬(next = "-c".toList ∧ (flag = "-c".toList ∨ flag = "-include".toList))

theorem Operand.Walk.filterMap_source? {arguments : List Text} {operands : List Operand}
    (h : Walk arguments operands) (hflags : FlagsApart arguments) :
    operands.filterMap source? = Build.sources arguments := by
  induction h with
  | nil | unpaired => rfl
  | @header path rest operands later ih =>
    have hpath : path ≠ "-c".toList := fun hpath =>
      (List.isChain_cons_cons.mp hflags).1 ⟨hpath, .inr rfl⟩
    rw [Build.sources_cons_of_ne (by decide), Build.sources_cons_of_ne hpath,
      ← ih hflags.tail.tail]
    rfl
  | @source path rest operands later ih =>
    have hpath : path ≠ "-c".toList := fun hpath =>
      (List.isChain_cons_cons.mp hflags).1 ⟨hpath, .inl rfl⟩
    rw [Build.sources_flag, Build.sources_cons_of_ne hpath, ← ih hflags.tail.tail]
    rfl
  | other h later ih =>
    rw [Build.sources_cons_of_ne (not_or.mp h).2, ← ih hflags.tail]
    rfl

namespace Invocation

variable {setting : Setting} {registry : Registry} {directory line : Text} {made : Record}

theorem sources_keptArguments (setting : Setting) (line : Text) :
    Build.sources (keptArguments setting line) = Build.sources (Command.arguments line) := by
  unfold keptArguments
  cases Command.arguments line with
  | nil => rfl
  | cons first rest =>
    dsimp only
    split
    next h =>
      have hfirst := Command.ne_sourceFlag_of_isDriver (Bool.and_eq_true_iff.mp h).2
      exact (Build.sources_cons_of_ne hfirst rest).symm
    next => rfl

theorem file_of_record (hflags : FlagsApart (Command.arguments line))
    (hr : record setting registry directory line = .ok made) :
    made.file = Path.normalize ((Build.source? (Command.arguments line)).getD []) := by
  have hkept : FlagsApart (keptArguments setting line) :=
    hflags.suffix (keptArguments_suffix setting line).2
  have hsources := (Operand.walk_ofArguments (keptArguments setting line)).filterMap_source? hkept
  rw [sources_keptArguments] at hsources
  rw [record_eq] at hr
  dsimp only at hr
  split at hr
  · cases hr
  · cases hr
    rw [resolvedRecord, hsources, Build.source?_eq]

/-- A line in which no flag takes a flag of the source is registered exactly if its record has a
file and a precompiled header file stands behind an `-o`. The header that is registered is the file
of the record, but for its spelling. -/
theorem register?_of_record (known : Registry) (hflags : FlagsApart (Command.arguments line))
    (hr : record setting registry directory line = .ok made) :
    ((known.register? (Command.arguments line)).isSome = true ↔
      made.file ≠ [] ∧
        ∃ output, ["-o".toList, output] <:+: Command.arguments line ∧
          Build.EndsAsOutput output) ∧
    ∀ larger, known.register? (Command.arguments line) = some larger →
      ∃ build, larger = known.insert build ∧
        larger.get? build.output = some build.source ∧
        Path.normalize build.source = made.file := by
  have hfile := file_of_record hflags hr
  refine ⟨⟨?_, ?_⟩, ?_⟩
  · intro hregistered
    obtain ⟨larger, hlarger⟩ := Option.isSome_iff_exists.mp hregistered
    obtain ⟨build, hbuild, -⟩ := Registry.exists_build_of_register? hlarger
    obtain ⟨houtput, hsource, hne⟩ := Build.ofArguments?_eq_some_iff.mp hbuild
    rw [Build.source?_eq_some_iff.mpr hsource] at hfile
    exact ⟨hfile ▸ Path.normalize_ne_nil hne, build.output, houtput.isInfix, houtput.fit⟩
  · rintro ⟨hne, output, hflag, houtput⟩
    obtain ⟨last, hlast⟩ := Build.exists_output? hflag houtput
    rw [hfile, ne_eq, Path.normalize_eq_nil_iff] at hne
    cases hsource : Build.source? (Command.arguments line) with
    | none =>
      rw [hsource] at hne
      exact absurd rfl hne
    | some source =>
      rw [hsource] at hne
      have hbuild : Build.ofArguments? (Command.arguments line) = some ⟨last, source⟩ := by
        rw [Build.ofArguments?_eq_some_iff]
        exact ⟨Build.output?_eq_some_iff.mp hlast, Build.source?_eq_some_iff.mp hsource, hne⟩
      rw [Registry.register?, hbuild]
      rfl
  · intro larger hlarger
    obtain ⟨build, hbuild, rfl⟩ := Registry.exists_build_of_register? hlarger
    obtain ⟨-, hsource, -⟩ := Build.ofArguments?_eq_some_iff.mp hbuild
    rw [Build.source?_eq_some_iff.mpr hsource] at hfile
    refine ⟨build, rfl, ?_, hfile.symm⟩
    rw [Registry.get?_insert, if_pos rfl]

theorem register?_of_record_of_repeated_flags :
    let setting : Setting := ⟨fun path => path == "q.h".toList, false⟩
    let line := "clang -o -c a.h -o p.h.pch -include q.h -o p -c ./s//b\\ c.h -c\n".toList
    let made : Record := ⟨"/w".toList, "s/b c.h".toList,
      "-o -c a.h -o p.h.pch -include q.h -o p -c \"./s//b c.h\"".toList⟩
    record setting .empty "/w".toList line = .ok made ∧
      (Registry.empty.register? (Command.arguments line)).isSome = true ∧
      ∀ larger, Registry.empty.register? (Command.arguments line) = some larger →
        ∃ build, larger = Registry.empty.insert build ∧
          larger.get? build.output = some build.source ∧
          Path.normalize build.source = made.file := by
  intro setting line made
  have hflags : FlagsApart (Command.arguments line) := by
    unfold FlagsApart
    decide
  have hr : record setting .empty "/w".toList line = .ok made := by decide
  obtain ⟨hregistered, hstored⟩ := register?_of_record .empty hflags hr
  have houtput : ["-o".toList, "p.h.pch".toList] <:+: Command.arguments line := by decide
  exact ⟨hr, hregistered.mpr ⟨by decide, _, houtput, .inr (.inr (by decide))⟩, hstored⟩

end Invocation
end BuildLog
