import BuildLog.Proofs.Command.Escaping
import BuildLog.Proofs.Invocation.Walk
import BuildLog.Proofs.Transcript.Feeding

/-! A whole compiling block, from the arguments that a build was run with to the command string in
its record. Nothing is lost on the way but the driver, a flag without argument at the very end,
and the included paths that stand for other headers. -/
namespace BuildLog.Transcript

open Command

theorem changedDirectory_escapeSpaces {directory : Text} (h : Writable directory) :
    changedDirectory ("    cd ".toList ++ escapeSpaces directory) = directory := by
  have hcd : Writable "cd".toList := ⟨.of_strip_eq (by decide) (by decide), by decide⟩
  have hplain : escapeSpaces "cd".toList = "cd".toList := escapeSpaces_eq_self (by decide)
  have hline : "    cd ".toList ++ escapeSpaces directory =
      ' ' :: ' ' :: ' ' :: ' ' :: logLine ["cd".toList, directory] := by
    simp only [logLine, List.map_cons, List.map_nil, Text.join_cons_cons, Text.join_singleton,
      hplain]
    rfl
  have harguments : Command.arguments ("    cd ".toList ++ escapeSpaces directory) =
      ["cd".toList, directory] := by
    rw [hline]
    simp only [arguments_cons_space]
    refine arguments_logLine ?_ ?_
    · exact List.forall_mem_cons.mpr ⟨hcd, List.forall_mem_singleton.mpr h⟩
    · exact List.forall_mem_singleton.mpr (by decide)
  unfold changedDirectory
  rw [harguments]
  exact if_pos rfl

theorem arguments_clang {arguments : List Text} (hne : arguments ≠ [])
    (hw : ∀ argument ∈ arguments, Writable argument)
    (h : ∀ argument ∈ arguments.dropLast, argument.getLast? ≠ some '\\') :
    Command.arguments ("clang ".toList ++ logLine arguments) = "clang".toList :: arguments := by
  obtain ⟨first, rest, rfl⟩ := List.exists_cons_of_ne_nil hne
  have hclang : Writable "clang".toList := ⟨.of_strip_eq (by decide) (by decide), by decide⟩
  have hplain : escapeSpaces "clang".toList = "clang".toList := escapeSpaces_eq_self (by decide)
  have hline : "clang ".toList ++ logLine (first :: rest) =
      logLine ("clang".toList :: first :: rest) := by
    simp only [logLine, List.map_cons, Text.join_cons_cons, hplain]
    rfl
  rw [hline]
  refine arguments_logLine ?_ ?_
  · exact List.forall_mem_cons.mpr ⟨hclang, hw⟩
  · rw [List.dropLast_cons_cons]
    exact List.forall_mem_cons.mpr ⟨by decide, h⟩

theorem keptArguments_clang {setting : Setting} (hkeep : setting.keepDriver = false)
    {arguments : List Text} (hne : arguments ≠ [])
    (hw : ∀ argument ∈ arguments, Writable argument)
    (h : ∀ argument ∈ arguments.dropLast, argument.getLast? ≠ some '\\') :
    Invocation.keptArguments setting ("clang ".toList ++ logLine arguments) = arguments := by
  unfold Invocation.keptArguments
  rw [arguments_clang hne hw h]
  simp only [hkeep, Bool.not_false, Bool.true_and]
  exact if_pos (by decide)

/-- A compiling block either fails at the leftmost included path that stands for nothing, or it
becomes one record whose command is read back as the arguments that the block was written from. -/
theorem feedAll_compile_block {setting : Setting} (hkeep : setting.keepDriver = false)
    (registry : Header.Registry) (tally : Tally) (last : Option Block)
    {first directory : Text} {arguments : List Text}
    (hfirst : Text.has BlockKind.compile.marker first = true)
    (hw : ∀ text ∈ directory :: arguments,
      text ≠ [] ∧ Text.strip text = text ∧ spaceMark ∉ text)
    (hback : ∀ argument ∈ arguments.dropLast, argument.getLast? ≠ some '\\')
    (hi : Command.isInvocation ("clang ".toList ++ logLine arguments) = true) :
    let run := (⟨.idle last, registry, tally⟩ : Scanner).feedAll setting
      [first, "    cd ".toList ++ escapeSpaces directory, "clang ".toList ++ logLine arguments]
    ∃ operands, Operand.Walk arguments operands ∧
      match (operands.filterMap Operand.header?).find? (isUnresolved setting registry) with
      | some path =>
        run = ⟨⟨.awaitInvocation ⟨.compile, directory⟩, registry, tally⟩, [], some ⟨path⟩⟩
      | none =>
        ∃ command,
          Command.read command =
            (operands.map (Operand.substitute setting registry)).flatMap Operand.arguments ∧
          run = ⟨⟨.idle (some ⟨.compile, directory⟩), registry,
              { tally with records := tally.records + 1 }⟩,
            [{ directory
               file := Path.normalize ((operands.filterMap Operand.source?).getLast?.getD [])
               command }], none⟩ := by
  have hwritable : ∀ text ∈ directory :: arguments, Writable text := by
    intro text htext
    obtain ⟨hne, hstrip, hmark⟩ := hw text htext
    exact ⟨.of_strip_eq hne hstrip, hmark⟩
  obtain ⟨hdirectory, harguments⟩ := List.forall_mem_cons.mp hwritable
  have hne : arguments ≠ [] := by
    rintro rfl
    exact absurd hi (by decide)
  have hkind : BlockKind.ofLine? first = some .compile := if_pos hfirst
  have hrecord := Invocation.record_eq setting registry directory
    ("clang ".toList ++ logLine arguments)
  simp only [keptArguments_clang hkeep hne harguments hback] at hrecord
  refine ⟨Operand.ofArguments arguments, Operand.walk_ofArguments arguments, ?_⟩
  rw [Scanner.feedAll_cons_nothing setting
      (Scanner.feed_idle_of_some setting registry tally hkind last),
    Scanner.feedAll_cons_nothing setting
      (Scanner.feed_awaitDirectory setting registry tally .compile _),
    changedDirectory_escapeSpaces hdirectory]
  split
  · next path hpath =>
    simp only [hpath] at hrecord
    exact Scanner.feedAll_cons_unresolved setting
      (Scanner.feed_compile_of_error setting registry tally hi hrecord) []
  · next hpath =>
    simp only [hpath] at hrecord
    refine ⟨_, Command.read_render _, ?_⟩
    exact Scanner.feedAll_cons_record setting
      (Scanner.feed_compile_of_ok setting registry tally hi hrecord) []

/-- A directory that ends in a backslash, a header that a precompiled one stands for, quotes and
spaces inside of arguments, and a flag that is left without an argument. -/
theorem feedAll_compile_block_spaces :
    let setting : Setting := ⟨fun path => path == "sys.h".toList, false⟩
    let registry := Header.Registry.empty.insert ⟨"p q.pch.pth".toList, "p q.h".toList⟩
    let directory := "/my dir\\".toList
    let arguments := ["-include", "p q.pch", "-include", "sys.h", "-DX=\"a b\"", "-c",
      "s/./a\\ b.m", "-o", "-c"].map String.toList
    let run := (⟨.idle none, registry, .zero⟩ : Scanner).feedAll setting
      ["CompileC a ProcessPCH".toList, "    cd ".toList ++ escapeSpaces directory,
        "clang ".toList ++ logLine arguments]
    Command.isInvocation ("clang ".toList ++ logLine arguments) = true ∧
      run.records.map (fun record => (record.directory, record.file, Command.read record.command)) =
        [(directory, "s/a\\ b.m".toList, ["-include", "p q.h", "-include", "sys.h",
          "-DX=\"a b\"", "-c", "s/./a\\ b.m", "-o"].map String.toList)] := by
  intro setting registry directory arguments run
  have hi : Command.isInvocation ("clang ".toList ++ logLine arguments) = true := by decide
  have hkeep : setting.keepDriver = false := rfl
  have hfirst : Text.has BlockKind.compile.marker "CompileC a ProcessPCH".toList = true := by decide
  have hw : ∀ text ∈ directory :: arguments,
    text ≠ [] ∧ Text.strip text = text ∧ spaceMark ∉ text := by decide
  have hback : ∀ argument ∈ arguments.dropLast, argument.getLast? ≠ some '\\' := by decide
  obtain ⟨operands, hwalk, hrun⟩ :=
    feedAll_compile_block hkeep registry .zero none hfirst hw hback hi
  rw [hwalk.eq_ofArguments] at hrun
  have hfind : ((Operand.ofArguments arguments).filterMap Operand.header?).find?
      (isUnresolved setting registry) = none := by decide
  simp only [hfind] at hrun
  obtain ⟨command, hread, hrun⟩ := hrun
  refine ⟨hi, ?_⟩
  rw [show run = _ from hrun, List.map_singleton, hread]
  dsimp only
  decide

end BuildLog.Transcript
