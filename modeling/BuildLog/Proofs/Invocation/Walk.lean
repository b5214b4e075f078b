import BuildLog.Invocation
import BuildLog.Proofs.Command.Quoting

/-! What an invocation says, told by rules instead of a function: which arguments a flag takes,
which header an included path stands for, and what the record is then. -/
namespace BuildLog

/-- The walk over arguments from left to right. A flag takes the next argument, whatever that is; a
flag at the very end takes none and is left out. -/
inductive Operand.Walk : List Text → List Operand → Prop
  | nil : Walk [] []
  | header {path : Text} {rest : List Text} {operands : List Operand} (later : Walk rest operands) :
    Walk ("-include".toList :: path :: rest) (.header path :: operands)
  | source {path : Text} {rest : List Text} {operands : List Operand} (later : Walk rest operands) :
    Walk ("-c".toList :: path :: rest) (.source path :: operands)
  | unpaired {flag : Text} (h : flag = "-include".toList ∨ flag = "-c".toList) : Walk [flag] []
  | other {argument : Text} {rest : List Text} {operands : List Operand}
    (h : ¬(argument = "-include".toList ∨ argument = "-c".toList)) (later : Walk rest operands) :
    Walk (argument :: rest) (.other argument :: operands)

theorem Operand.walk_ofArguments (arguments : List Text) :
    Walk arguments (ofArguments arguments) := by
  fun_induction ofArguments arguments with
  | case1 => exact .nil
  | case2 last h => exact .unpaired h
  | case3 last h => exact .other h .nil
  | case4 next rest ih => exact .header ih
  | case5 next rest h ih => exact .source ih
  | case6 argument next rest hinclude hsource ih => exact .other (not_or.mpr ⟨hinclude, hsource⟩) ih

theorem Operand.Walk.eq_ofArguments {arguments : List Text} {operands : List Operand}
    (h : Walk arguments operands) : operands = ofArguments arguments := by
  induction h with
  | nil => rfl
  | header later ih => rw [ih]; rfl
  | source later ih => rw [ih]; rfl
  | unpaired h => exact (if_pos h).symm
  | @other argument rest operands h later ih =>
    obtain ⟨hinclude, hsource⟩ := not_or.mp h
    rw [ih]
    cases rest with
    | nil => exact (if_neg h).symm
    | cons next rest => exact ((if_neg hinclude).trans (if_neg hsource)).symm

theorem Operand.Walk.exists_unpaired {arguments : List Text} {operands : List Operand}
    (h : Walk arguments operands) :
    ∃ unpaired, arguments = operands.flatMap Operand.arguments ++ unpaired ∧
      (unpaired = [] ∨ unpaired = ["-include".toList] ∨ unpaired = ["-c".toList]) := by
  induction h with
  | nil => exact ⟨[], rfl, .inl rfl⟩
  | unpaired h => exact ⟨_, rfl, .inr (h.imp (congrArg ([·])) (congrArg ([·])))⟩
  | header later ih | source later ih | other h later ih =>
    obtain ⟨unpaired, rfl, hunpaired⟩ := ih
    exact ⟨unpaired, rfl, hunpaired⟩

theorem Operand.Walk.subset {arguments : List Text} {operands : List Operand}
    (h : Walk arguments operands) : operands.flatMap Operand.arguments ⊆ arguments := by
  obtain ⟨unpaired, harguments, -⟩ := h.exists_unpaired
  rw [harguments]
  exact List.subset_append_left _ unpaired

section
variable (setting : Setting) (registry : Header.Registry)

def isUnresolved (path : Text) : Bool :=
  !setting.present path && (registry.resolve path).isNone

/-- The header that an included path stands for; the registry counts for absent files only. -/
def headerFor (path : Text) : Text :=
  if setting.present path then path else (registry.resolve path).getD path

theorem includedHeader_eq (path : Text) :
    includedHeader setting registry path =
      if isUnresolved setting registry path then .error ⟨path⟩
      else .ok (headerFor setting registry path) := by
  unfold includedHeader isUnresolved headerFor
  cases setting.present path
  · cases registry.resolve path <;> rfl
  · rfl

namespace Operand

def substitute : Operand → Operand
  | .header path => .header (headerFor setting registry path)
  | .source path => .source path
  | .other argument => .other argument

theorem source?_comp_substitute : source? ∘ substitute setting registry = source? := by
  funext operand
  cases operand <;> rfl

theorem resolve_header (path : Text) :
    (header path).resolve setting registry =
      if isUnresolved setting registry path then .error ⟨path⟩
      else .ok ((header path).substitute setting registry) := by
  rw [resolve, includedHeader_eq]
  split <;> rfl

theorem mapM_resolve (operands : List Operand) :
    operands.mapM (resolve setting registry) =
      match (operands.filterMap header?).find? (isUnresolved setting registry) with
      | some path => .error ⟨path⟩
      | none => .ok (operands.map (substitute setting registry)) := by
  induction operands with
  | nil => rfl
  | cons operand operands ih =>
    rw [List.mapM_cons, ih]
    cases operand with
    | header path =>
      rw [resolve_header,
        List.filterMap_cons_some (show (header path).header? = some path from rfl)]
      by_cases h : isUnresolved setting registry path = true
      · rw [if_pos h, List.find?_cons_of_pos h]
        rfl
      · rw [if_neg h, List.find?_cons_of_neg h]
        cases (operands.filterMap header?).find? (isUnresolved setting registry) <;> rfl
    | source path =>
      rw [List.filterMap_cons_none rfl]
      cases (operands.filterMap header?).find? (isUnresolved setting registry) <;> rfl
    | other argument =>
      rw [List.filterMap_cons_none rfl]
      cases (operands.filterMap header?).find? (isUnresolved setting registry) <;> rfl

end Operand

def Invocation.resolvedRecord (directory : Text) (operands : List Operand) : Record where
  directory := directory
  file := Path.normalize ((operands.filterMap Operand.source?).getLast?.getD [])
  command := Command.render
    ((operands.map (Operand.substitute setting registry)).flatMap Operand.arguments)

theorem Invocation.record_eq (directory line : Text) :
    record setting registry directory line =
      let operands := Operand.ofArguments (keptArguments setting line)
      match (operands.filterMap Operand.header?).find? (isUnresolved setting registry) with
      | some path => .error ⟨path⟩
      | none => .ok (resolvedRecord setting registry directory operands) := by
  unfold record
  rw [Operand.mapM_resolve]
  split
  · next path h => simp only [h]; rfl
  · next h =>
    simp only [h, Except.map, resolvedRecord, recordOf, List.filterMap_map,
      Operand.source?_comp_substitute]

end
end BuildLog
