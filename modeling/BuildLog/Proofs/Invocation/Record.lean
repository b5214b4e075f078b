import BuildLog.Proofs.Invocation.Walk

/-! The record of an invocation, from the arguments of its line to the arguments of its command. Of
the arguments that are kept each stands in the command, but for a flag at the very end that has no
argument, and for the included paths that stand for other headers. -/
namespace BuildLog

/-- Which arguments of a line count. A driver in front does not, unless it is to be kept. -/
inductive Invocation.Keeps (setting : Setting) : List Text → List Text → Prop
  | nil : Keeps setting [] []
  | driver {first : Text} {rest : List Text} (hkeep : setting.keepDriver = false)
    (h : Command.isDriver first = true) : Keeps setting (first :: rest) rest
  | all {first : Text} {rest : List Text}
    (h : setting.keepDriver = true ∨ Command.isDriver first = false) :
    Keeps setting (first :: rest) (first :: rest)

theorem Invocation.keeps_iff {setting : Setting} {line : Text} {arguments : List Text} :
    Keeps setting (Command.arguments line) arguments ↔ arguments = keptArguments setting line := by
  unfold keptArguments
  generalize Command.arguments line = all
  constructor
  · intro h
    cases h with
    | nil => rfl
    | driver hkeep h => simp [hkeep, h]
    | all h => rcases h with h | h <;> simp [h]
  · rintro rfl
    cases all with
    | nil => exact .nil
    | cons first rest =>
      dsimp only
      split
      next h =>
        rw [Bool.and_eq_true, Bool.not_eq_true'] at h
        exact .driver h.1 h.2
      next h =>
        rw [Bool.and_eq_true, Bool.not_eq_true', Classical.not_and_iff_not_or_not,
          Bool.not_eq_false, Bool.not_eq_true] at h
        exact .all h

theorem Operand.walk_iff {arguments : List Text} {operands : List Operand} :
    Walk arguments operands ↔ operands = ofArguments arguments :=
  ⟨Walk.eq_ofArguments, fun h => h ▸ walk_ofArguments arguments⟩

namespace Invocation

variable (setting : Setting) (registry : Header.Registry)

/-- The first of some included paths that stand for nothing. -/
def FirstUnresolved (paths : List Text) (path : Text) : Prop :=
  ∃ earlier later, paths = earlier ++ path :: later ∧ isUnresolved setting registry path = true ∧
    ∀ other ∈ earlier, isUnresolved setting registry other = false

theorem find?_eq_some_iff {paths : List Text} {path : Text} :
    paths.find? (isUnresolved setting registry) = some path ↔
      FirstUnresolved setting registry paths path := by
  rw [List.find?_eq_some_iff_append]
  constructor
  · rintro ⟨hpath, earlier, later, hsplit, hearlier⟩
    exact ⟨earlier, later, hsplit, hpath, by simpa using hearlier⟩
  · rintro ⟨earlier, later, hsplit, hpath, hearlier⟩
    exact ⟨hpath, earlier, later, hsplit, by simpa using hearlier⟩

theorem directory_of_record {directory line : Text} {made : Record}
    (h : record setting registry directory line = .ok made) : made.directory = directory := by
  rw [record_eq] at h
  dsimp only at h
  split at h
  · cases h
  · cases h
    rfl

/-- An invocation fails exactly if the walk over its arguments meets an included path that stands
for nothing, and then of the first such path. Otherwise its record has the directory that is given,
the last source file, and a command that is read back as the arguments, with each included path
replaced by the header that it stands for and without a flag that is left alone at the end. -/
theorem record_walk (directory line : Text) :
    ∃ arguments operands unpaired,
      (∀ kept, Keeps setting (Command.arguments line) kept ↔ kept = arguments) ∧
      (∀ walked, Operand.Walk arguments walked ↔ walked = operands) ∧
      arguments = operands.flatMap Operand.arguments ++ unpaired ∧
      (unpaired = [] ∨ unpaired = ["-include".toList] ∨ unpaired = ["-c".toList]) ∧
      let headers := operands.filterMap Operand.header?
      (∀ error, record setting registry directory line = .error error ↔
        FirstUnresolved setting registry headers error.path) ∧
      ((∀ path ∈ headers, isUnresolved setting registry path = false) →
        ∃ command,
          Command.read command =
            (operands.map (Operand.substitute setting registry)).flatMap Operand.arguments ∧
          record setting registry directory line =
            .ok { directory
                  file := ((operands.filterMap Operand.source?).getLast?.map Path.normalize).getD []
                  command }) := by
  have hwalk := Operand.walk_ofArguments (keptArguments setting line)
  have hrecord := record_eq setting registry directory line
  dsimp only at hrecord
  generalize hoperands : Operand.ofArguments (keptArguments setting line) = operands
    at hwalk hrecord
  obtain ⟨unpaired, harguments, hunpaired⟩ := hwalk.exists_unpaired
  refine ⟨keptArguments setting line, operands, unpaired, fun _ => keeps_iff, ?_, harguments,
    hunpaired, ?_, ?_⟩
  · intro walked
    rw [Operand.walk_iff, hoperands]
  · intro error
    rw [← find?_eq_some_iff]
    cases hfound : (operands.filterMap Operand.header?).find? (isUnresolved setting registry) with
    | none => simp [hrecord, hfound]
    | some path =>
      simp only [hrecord, hfound, Except.error.injEq, Option.some.injEq]
      exact ⟨congrArg UnresolvedHeader.path, congrArg UnresolvedHeader.mk⟩
  · intro hresolved
    have hfound :
        (operands.filterMap Operand.header?).find? (isUnresolved setting registry) = none := by
      rw [List.find?_eq_none]
      exact fun path hpath => Bool.eq_false_iff.mp (hresolved path hpath)
    refine ⟨_, Command.read_render _, ?_⟩
    rw [hrecord, hfound]
    dsimp only [resolvedRecord]
    cases (operands.filterMap Operand.source?).getLast? <;> rfl

theorem record_walk_of_paired_flags :
    let setting : Setting := ⟨fun path => path == "-c".toList, false⟩
    let registry := Header.Registry.empty.insert ⟨"p.pch.pth".toList, "p q.h".toList⟩
    let line :=
      "bin/clang -include -c -c -include -include p.pch -DX=\"\" -c s/./b\\ c.m -o -c".toList
    ∃ made, record setting registry "/w".toList line = .ok made ∧
      made.file = "s/b c.m".toList ∧
      Command.read made.command = ["-include", "-c", "-c", "-include", "-include", "p q.h",
        "-DX=\"\"", "-c", "s/./b c.m", "-o"].map String.toList := by
  intro setting registry line
  obtain ⟨arguments, operands, unpaired, hkeeps, hwalk, -, -, -, hmade⟩ :=
    record_walk setting registry "/w".toList line
  have harguments := (hkeeps _).mp (keeps_iff.mpr rfl)
  have hoperands := (hwalk _).mp (Operand.walk_ofArguments arguments)
  rw [← harguments] at hoperands
  rw [← hoperands] at hmade
  obtain ⟨command, hread, hrecord⟩ := hmade (by decide)
  refine ⟨_, hrecord, ?_, ?_⟩
  · dsimp only
    decide
  · dsimp only
    rw [hread]
    decide

end Invocation
end BuildLog
