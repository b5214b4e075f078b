import BuildLog.Proofs.Invocation.Driver
import BuildLog.Proofs.Transcript.Steps

/-! What a pass asks of the files. It asks for the paths that its lines include and for nothing
else, so that two machines on which the same of these paths are present make the same of a log. -/
namespace BuildLog

variable {setting other : Setting} {line : Text}

namespace Invocation

theorem header?_keptArguments (setting : Setting) (line : Text) :
    (Operand.ofArguments (keptArguments setting line)).filterMap Operand.header? =
      includedPaths line := by
  unfold includedPaths keptArguments
  cases Command.arguments line with
  | nil => rfl
  | cons first rest =>
    dsimp only
    split
    next h =>
      rw [Operand.ofArguments_cons_of_isDriver (Bool.and_eq_true_iff.mp h).2,
        List.filterMap_cons_none rfl]
    next => rfl

/-- Two settings agree on the paths that a line includes. -/
structure Agrees (setting other : Setting) (line : Text) : Prop where
  keepDriver : other.keepDriver = setting.keepDriver
  present : ∀ path ∈ includedPaths line, other.present path = setting.present path

theorem resolve_of_agrees {operand : Operand} (registry : Header.Registry)
    (h : ∀ path, operand.header? = some path → other.present path = setting.present path) :
    operand.resolve other registry = operand.resolve setting registry := by
  cases operand with
  | header path =>
    have hpath : other.present path = setting.present path := h path rfl
    rw [Operand.resolve, Operand.resolve, includedHeader, includedHeader, hpath]
  | source path | other argument => rfl

theorem mapM_resolve_of_agrees {operands : List Operand} (registry : Header.Registry)
    (h : ∀ path ∈ operands.filterMap Operand.header?, other.present path = setting.present path) :
    operands.mapM (Operand.resolve other registry) =
      operands.mapM (Operand.resolve setting registry) := by
  induction operands with
  | nil => rfl
  | cons operand operands ih =>
    have hoperand : operand.resolve other registry = operand.resolve setting registry :=
      resolve_of_agrees registry fun path hpath =>
        h path (List.mem_filterMap.mpr ⟨operand, List.mem_cons_self, hpath⟩)
    have hrest := ih fun path hpath =>
      h path ((List.sublist_cons_self operand operands).filterMap _ |>.subset hpath)
    rw [List.mapM_cons, List.mapM_cons, hoperand, hrest]

theorem record_of_agrees (h : Agrees setting other line) (registry : Header.Registry)
    (directory : Text) :
    record other registry directory line = record setting registry directory line := by
  have hkept : keptArguments other line = keptArguments setting line := by
    unfold keptArguments
    rw [h.keepDriver]
  have hpresent := h.present
  rw [← header?_keptArguments setting line] at hpresent
  unfold record
  rw [hkept, mapM_resolve_of_agrees registry hpresent]

end Invocation

namespace Transcript

open Invocation (Agrees)

theorem Step.of_agrees {scanner next : Scanner} {event : Event} (h : Agrees setting other line)
    (hstep : Step setting scanner line next event) : Step other scanner line next event := by
  have hrecord := Invocation.record_of_agrees h
  cases hstep with
  | stray h => exact .stray h
  | begins h => exact .begins h
  | directory => exact .directory
  | passed h => exact .passed h
  | abandoned hi hk => exact .abandoned hi hk
  | registered hi hr => exact .registered hi hr
  | rejected hi hr => exact .rejected hi hr
  | compiled hi hr => exact .compiled hi ((hrecord _ _).trans hr)
  | failed hi hr => exact .failed hi ((hrecord _ _).trans hr)

theorem feedAll_of_agrees {lines : List Text} (h : ∀ line ∈ lines, Agrees setting other line)
    (scanner : Scanner) : scanner.feedAll other lines = scanner.feedAll setting lines := by
  induction lines generalizing scanner with
  | nil => rfl
  | cons line lines ih =>
    obtain ⟨hline, hlines⟩ := List.forall_mem_cons.mp h
    obtain ⟨next, event, hstep, hok⟩ | ⟨error, hstep⟩ := handles_or_fails setting scanner line
    · rw [hstep.feedAll_cons hok, (hstep.of_agrees hline).feedAll_cons hok, ih hlines]
    · rw [hstep.feedAll_cons_unresolved, (hstep.of_agrees hline).feedAll_cons_unresolved]

theorem scan_of_agrees {lines : List Text}
    (h : ∀ line ∈ lines.map Text.trimLineEnd, Agrees setting other line) (scanner : Scanner) :
    scanner.scan other lines = scanner.scan setting lines := by
  unfold Scanner.scan
  rw [feedAll_of_agrees h scanner]

end Transcript
end BuildLog
