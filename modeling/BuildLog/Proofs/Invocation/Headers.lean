import BuildLog.Proofs.Header.Registry
import BuildLog.Proofs.Invocation.Walk

/-! What more headers change. Under a registry that covers another one every record can still be
made, and it is the same but for the headers that its command includes. -/
namespace BuildLog

/-- Two lists of arguments that the walk from left to right finds the same, but for the paths that
are included. -/
inductive AlikeButHeaders : List Text → List Text → Prop
  | nil : AlikeButHeaders [] []
  | header (path other : Text) {rest others : List Text} (later : AlikeButHeaders rest others) :
    AlikeButHeaders ("-include".toList :: path :: rest) ("-include".toList :: other :: others)
  | source (path : Text) {rest others : List Text} (later : AlikeButHeaders rest others) :
    AlikeButHeaders ("-c".toList :: path :: rest) ("-c".toList :: path :: others)
  | other {argument : Text} {rest others : List Text}
    (h : ¬(argument = "-include".toList ∨ argument = "-c".toList))
    (later : AlikeButHeaders rest others) :
    AlikeButHeaders (argument :: rest) (argument :: others)

theorem AlikeButHeaders.length_eq {arguments others : List Text}
    (h : AlikeButHeaders arguments others) : others.length = arguments.length := by
  induction h with
  | nil => rfl
  | header _ _ _ ih | source _ _ ih | other _ _ ih => simp [ih]

variable {setting : Setting} {registry larger : Header.Registry}

theorem Operand.Walk.alikeButHeaders {arguments : List Text} {operands : List Operand}
    (h : Walk arguments operands) (setting : Setting) (registry larger : Header.Registry) :
    AlikeButHeaders ((operands.map (substitute setting registry)).flatMap Operand.arguments)
      ((operands.map (substitute setting larger)).flatMap Operand.arguments) := by
  induction h with
  | nil | unpaired _ => exact .nil
  | header _ ih => exact .header _ _ ih
  | source _ ih => exact .source _ ih
  | other h _ ih => exact .other h ih

theorem isUnresolved_of_covers (h : larger.Covers registry) {path : Text}
    (hpath : isUnresolved setting registry path = false) :
    isUnresolved setting larger path = false := by
  simp only [isUnresolved, Bool.and_eq_false_iff, Option.isNone_eq_false_iff] at hpath ⊢
  exact hpath.imp_right h.resolve

structure Record.DiffersByHeaders (plain more : Record) : Prop where
  directory : more.directory = plain.directory
  file : more.file = plain.file
  length : (Command.read more.command).length = (Command.read plain.command).length
  arguments : AlikeButHeaders (Command.read plain.command) (Command.read more.command)

theorem Invocation.record_of_covers (h : larger.Covers registry) {directory line : Text}
    {plain : Record} (hr : record setting registry directory line = .ok plain) :
    ∃ more, record setting larger directory line = .ok more ∧ plain.DiffersByHeaders more := by
  rw [record_eq] at hr ⊢
  dsimp only at hr ⊢
  have hwalk := Operand.walk_ofArguments (keptArguments setting line)
  generalize Operand.ofArguments (keptArguments setting line) = operands at hr hwalk ⊢
  split at hr
  · cases hr
  · next hfound =>
    cases hr
    have hlarger : (operands.filterMap Operand.header?).find? (isUnresolved setting larger) =
        none := by
      rw [List.find?_eq_none] at hfound ⊢
      intro path hpath
      have hresolved := isUnresolved_of_covers h (Bool.eq_false_iff.mpr (hfound path hpath))
      exact Bool.eq_false_iff.mp hresolved
    have halike := hwalk.alikeButHeaders setting registry larger
    rw [hlarger]
    refine ⟨_, rfl, rfl, rfl, ?_, ?_⟩
    · simpa only [resolvedRecord, Command.read_render] using halike.length_eq
    · simpa only [resolvedRecord, Command.read_render] using halike

end BuildLog
