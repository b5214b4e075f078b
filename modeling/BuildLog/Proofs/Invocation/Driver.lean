import BuildLog.Command.Driver
import BuildLog.Proofs.Invocation.Walk

/-! What it means for a record to keep the driver. The driver is no flag, so that it takes no
argument with it, and the command has it in front and is the same behind it. -/
namespace BuildLog

namespace Command

def prepend (argument command : Text) : Text :=
  if command = [] then quote argument else quote argument ++ ' ' :: command

theorem quote_ne_nil (argument : Text) : quote argument ≠ [] := by
  unfold quote
  split
  · simp
  · next h =>
    rw [not_or] at h
    exact h.1

theorem render_cons (first : Text) (rest : List Text) :
    render (first :: rest) = prepend first (render rest) := by
  cases rest with
  | nil => simp [render, prepend, Text.join]
  | cons second rest =>
    have hne : render (second :: rest) ≠ [] := by
      cases rest with
      | nil => simpa [render, Text.join] using quote_ne_nil second
      | cons third rest => simp [render_cons_cons, quote_ne_nil]
    rw [render_cons_cons, prepend, if_neg hne]

theorem ne_includeFlag_of_isDriver {argument : Text} (h : isDriver argument = true) :
    argument ≠ Operand.includeFlag := by
  rintro rfl
  cases h.symm.trans (show isDriver Operand.includeFlag = false by decide)

theorem ne_sourceFlag_of_isDriver {argument : Text} (h : isDriver argument = true) :
    argument ≠ Operand.sourceFlag := by
  rintro rfl
  cases h.symm.trans (show isDriver Operand.sourceFlag = false by decide)

end Command

theorem Operand.ofArguments_cons_of_isDriver {first : Text} (h : Command.isDriver first = true)
    (rest : List Text) : ofArguments (first :: rest) = .other first :: ofArguments rest := by
  have hinclude := Command.ne_includeFlag_of_isDriver h
  have hsource := Command.ne_sourceFlag_of_isDriver h
  cases rest with
  | nil => simp [ofArguments, hinclude, hsource]
  | cons second rest => simp [ofArguments, hinclude, hsource]

def Record.withDriver (record : Record) (driver : Text) : Record :=
  { record with command := Command.prepend driver record.command }

/-- How two records of one invocation differ when the second one keeps the driver: not at all, or,
exactly if the first argument is a driver, by this argument in front of the command. -/
structure Record.DiffersByDriver (invocation : Text) (plain kept : Record) : Prop where
  directory : kept.directory = plain.directory
  file : kept.file = plain.file
  command : ∃ first rest, Command.arguments invocation = first :: rest ∧
    kept.command =
      if Command.isDriver first = true then
        if plain.command = [] then Command.quote first
        else Command.quote first ++ ' ' :: plain.command
      else plain.command

theorem Record.differsByDriver_withDriver {invocation first : Text} {rest : List Text}
    (h : Command.arguments invocation = first :: rest) (record : Record) :
    DiffersByDriver invocation record
      (if Command.isDriver first = true then record.withDriver first else record) where
  directory := by split <;> rfl
  file := by split <;> rfl
  command := by
    refine ⟨first, rest, h, ?_⟩
    split <;> rfl

namespace Invocation

theorem resolvedRecord_other (setting : Setting) (registry : Header.Registry)
    (directory argument : Text) (operands : List Operand) :
    resolvedRecord setting registry directory (.other argument :: operands) =
      (resolvedRecord setting registry directory operands).withDriver argument := by
  unfold resolvedRecord Record.withDriver
  rw [List.filterMap_cons_none rfl, List.map_cons, List.flatMap_cons]
  exact congrArg (Record.mk directory _) (Command.render_cons argument _)

theorem record_keepDriver {line first : Text} {rest : List Text}
    (h : Command.arguments line = first :: rest) (present : Text → Bool)
    (registry : Header.Registry) (directory : Text) :
    record ⟨present, true⟩ registry directory line =
      (record ⟨present, false⟩ registry directory line).map fun record =>
        if Command.isDriver first = true then record.withDriver first else record := by
  have hkept : keptArguments ⟨present, true⟩ line = first :: rest := by
    simp [keptArguments, h]
  have hunresolved : isUnresolved ⟨present, true⟩ registry =
      isUnresolved ⟨present, false⟩ registry := rfl
  cases hdriver : Command.isDriver first with
  | false =>
    have hplain : keptArguments ⟨present, false⟩ line = first :: rest := by
      simp [keptArguments, h, hdriver]
    rw [record_eq, record_eq, hkept, hplain]
    dsimp only
    rw [hunresolved]
    split <;> rfl
  | true =>
    have hplain : keptArguments ⟨present, false⟩ line = rest := by
      simp [keptArguments, h, hdriver]
    have hheaders : (Operand.ofArguments (first :: rest)).filterMap Operand.header? =
        (Operand.ofArguments rest).filterMap Operand.header? := by
      rw [Operand.ofArguments_cons_of_isDriver hdriver, List.filterMap_cons_none rfl]
    rw [record_eq, record_eq, hkept, hplain]
    dsimp only
    rw [hunresolved, hheaders, Operand.ofArguments_cons_of_isDriver hdriver, resolvedRecord_other]
    split <;> rfl

end Invocation
end BuildLog
