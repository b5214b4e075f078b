import BuildLog.Proofs.Command.Recognition
import BuildLog.Proofs.Command.Words
import BuildLog.Proofs.Invocation.Record
import BuildLog.Proofs.Path

/-! The source file of a recognized invocation. A line is recognized by its text, where the flag of
the source stands behind a driver's name; whether the flag then counts depends on the arguments that
the line is cut into, and on the flags in front of it, which may take it for their own argument. -/
namespace BuildLog

namespace Command

theorem exists_source_flag {line : Text} (hplain : line.any isQuoting = false)
    (hspaced : Text.SinglySpaced line) (h : isInvocation line = true) :
    ∃ next, ["-c".toList, next] <:+: (arguments line).tail := by
  obtain ⟨before, name, hname, between, operands, after, hline⟩ := exists_of_isInvocation h
  have hcut : line = (before ++ name ++ between) ++ ' ' ::
      ("-c".toList ++ ' ' :: (operands ++ " -o ".toList ++ after)) := by
    rw [hline]
    simp
  obtain ⟨c, hc, hblank⟩ := (of_mem_driverNames hname).2.2.head
  have hfront : words (before ++ name ++ between) ≠ [] := by
    refine words_ne_nil ?_ hblank
    simp [List.mem_of_mem_head? hc]
  have hback : words (operands ++ " -o ".toList ++ after) ≠ [] :=
    words_ne_nil (c := '-') (by simp) (by decide)
  have hflag : words "-c".toList = ["-c".toList] := by decide
  obtain ⟨first, earlier, hfront⟩ := List.exists_cons_of_ne_nil hfront
  obtain ⟨next, later, hback⟩ := List.exists_cons_of_ne_nil hback
  refine ⟨next, earlier, later, ?_⟩
  rw [arguments_eq_words hplain hspaced, hcut, words_append_space, words_append_space, hflag,
    hfront, hback]
  simp

end Command

/-- A flag of the source that is followed by an argument makes one, unless it stands behind an
`-include` flag. If another flag of the source takes it, then that one makes it. -/
theorem Operand.Walk.exists_source {arguments : List Text} {operands : List Operand}
    (h : Walk arguments operands)
    (hflags : arguments.IsChain fun flag next =>
      ¬(flag = "-include".toList ∧ next = "-c".toList))
    {next : Text} (hflag : ["-c".toList, next] <:+: arguments) :
    ∃ path, .source path ∈ operands := by
  induction h with
  | nil => exact absurd (List.eq_nil_of_infix_nil hflag) (List.cons_ne_nil _ _)
  | source later ih => exact ⟨_, List.mem_cons_self⟩
  | unpaired h => exact absurd hflag.length_le (by simp)
  | header later ih =>
    rw [List.infix_cons_iff, List.infix_cons_iff] at hflag
    obtain hflag | hflag | hflag := hflag
    · exact absurd (List.cons_prefix_cons.mp hflag).1 (by decide)
    · have hpath := (List.cons_prefix_cons.mp hflag).1
      exact absurd ⟨rfl, hpath.symm⟩ (List.isChain_cons_cons.mp hflags).1
    · obtain ⟨path, hpath⟩ := ih hflags.tail.tail hflag
      exact ⟨path, List.mem_cons_of_mem _ hpath⟩
  | other h later ih =>
    obtain hflag | hflag := List.infix_cons_iff.mp hflag
    · exact absurd (.inr (List.cons_prefix_cons.mp hflag).1.symm) h
    · obtain ⟨path, hpath⟩ := ih hflags.tail hflag
      exact ⟨path, List.mem_cons_of_mem _ hpath⟩

namespace Invocation

variable {setting : Setting} {registry : Header.Registry} {directory line : Text} {made : Record}

theorem keptArguments_suffix (setting : Setting) (line : Text) :
    (Command.arguments line).tail <:+ keptArguments setting line ∧
      keptArguments setting line <:+ Command.arguments line := by
  unfold keptArguments
  cases Command.arguments line with
  | nil => exact ⟨List.suffix_refl _, List.suffix_refl _⟩
  | cons first rest =>
    dsimp only
    split
    · exact ⟨List.suffix_refl _, List.suffix_cons _ _⟩
    · exact ⟨List.suffix_cons _ _, List.suffix_refl _⟩

theorem exists_source_of_record
    (hr : record setting registry directory line = .ok made) {operands : List Operand}
    (hwalk : Operand.Walk (keptArguments setting line) operands) {path : Text}
    (hpath : .source path ∈ operands) :
    ∃ source, .source source ∈ operands ∧ made.file = Path.normalize source ∧
      ["-c".toList, source] <:+: Command.read made.command := by
  rw [record_eq, ← hwalk.eq_ofArguments] at hr
  dsimp only at hr
  split at hr
  · cases hr
  · cases hr
    have hne : operands.filterMap Operand.source? ≠ [] :=
      List.ne_nil_of_mem (List.mem_filterMap.mpr ⟨_, hpath, rfl⟩)
    have hlast := List.getLast?_eq_some_getLast hne
    generalize (operands.filterMap Operand.source?).getLast hne = source at hlast
    obtain ⟨operand, hoperand, hsource⟩ := List.mem_filterMap.mp (List.mem_of_getLast? hlast)
    cases operand with
    | header | other => cases hsource
    | source =>
      cases hsource
      refine ⟨source, hoperand, ?_, ?_⟩
      · dsimp only [resolvedRecord]
        rw [hlast]
        rfl
      · dsimp only [resolvedRecord]
        have hmem : .source source ∈ operands.map (Operand.substitute setting registry) :=
          List.mem_map.mpr ⟨_, hoperand, rfl⟩
        rw [Command.read_render, List.flatMap_def]
        exact List.infix_of_mem_flatten (List.mem_map.mpr ⟨_, hmem, rfl⟩)

/-- A recognized line without escapes and without blanks next to each other names a source file, if
the flag of the source is never taken for a header to include: whenever its record is made, the
record has a file, and its command has the flag of the source in front of it. -/
theorem exists_source_of_isInvocation (hplain : line.any Command.isQuoting = false)
    (hspaced : Text.SinglySpaced line)
    (hflags : (Command.arguments line).IsChain fun flag next =>
      ¬(flag = "-include".toList ∧ next = "-c".toList))
    (hi : Command.isInvocation line = true)
    (hr : record setting registry directory line = .ok made) :
    made.file ≠ [] ∧ ∃ source, source ≠ [] ∧ made.file = Path.normalize source ∧
      ["-c".toList, source] <:+: Command.read made.command := by
  obtain ⟨htail, hkept⟩ := keptArguments_suffix setting line
  obtain ⟨next, hflag⟩ := Command.exists_source_flag hplain hspaced hi
  have hwalk := Operand.walk_ofArguments (keptArguments setting line)
  obtain ⟨path, hpath⟩ :=
    hwalk.exists_source (hflags.suffix hkept) (hflag.trans htail.isInfix)
  obtain ⟨source, hsource, hfile, hread⟩ := exists_source_of_record hr hwalk hpath
  have hne : source ≠ [] := by
    have hmem : source ∈ keptArguments setting line :=
      hwalk.subset (List.mem_flatMap.mpr ⟨_, hsource, by simp [Operand.arguments]⟩)
    have hargument := hkept.subset hmem
    rw [Command.arguments_eq_words hplain hspaced] at hargument
    exact Command.ne_nil_of_mem_words hargument
  exact ⟨hfile ▸ Path.normalize_ne_nil hne, source, hne, hfile, hread⟩

theorem exists_source_of_isInvocation_of_repeated_flags :
    let setting : Setting := ⟨fun path => path == "p.h".toList, false⟩
    let line := "\t/usr/bin/clang -DX -c -c b.m -include p.h -c ./s//a.m -o a.o -c\n".toList
    let made : Record := ⟨"/w".toList, "s/a.m".toList,
      "-DX -c -c b.m -include p.h -c ./s//a.m -o a.o".toList⟩
    record setting .empty "/w".toList line = .ok made ∧
      made.file ≠ [] ∧ ∃ source, source ≠ [] ∧ made.file = Path.normalize source ∧
        ["-c".toList, source] <:+: Command.read made.command := by
  intro setting line made
  have hplain : line.any Command.isQuoting = false := by decide
  have hspaced : Text.SinglySpaced line := by decide +kernel
  have hflags : (Command.arguments line).IsChain fun flag next =>
    ¬(flag = "-include".toList ∧ next = "-c".toList) := by decide
  have hi : Command.isInvocation line = true := by decide
  have hr : record setting .empty "/w".toList line = .ok made := by decide
  exact ⟨hr, exists_source_of_isInvocation hplain hspaced hflags hi hr⟩

end Invocation
end BuildLog
