import BuildLog.Proofs.Command.Recognition
import BuildLog.Proofs.Invocation.Driver
import BuildLog.Proofs.Transcript.Steps
import Mathlib.Data.List.Forall2

/-! Two scanners over the same lines, of which one keeps the drivers. They are told apart by their
records alone, and these differ only in the front of their commands. -/
namespace BuildLog.Transcript

structure Fed where
  line : Text
  event : Event
  after : Scanner

def Fed.record? (fed : Fed) : Option (Text × Record) := fed.event.record?.map (fed.line, ·)

def Scanner.feedEach (setting : Setting) (scanner : Scanner) : List Text → List Fed
  | [] => []
  | line :: rest =>
    let (next, event) := scanner.feed setting line
    ⟨line, event, next⟩ :: next.feedEach setting rest

inductive Event.DiffersByDriver (line : Text) : Event → Event → Prop
  | nothing : DiffersByDriver line .nothing .nothing
  | unresolved (error : UnresolvedHeader) :
    DiffersByDriver line (.unresolved error) (.unresolved error)
  | record {plain kept : Record} (h : Record.DiffersByDriver line plain kept) :
    DiffersByDriver line (.record plain) (.record kept)

/-- What tells two scanners apart after a line. -/
structure Fed.DiffersByDriver (plain kept : Fed) : Prop where
  line : kept.line = plain.line
  after : kept.after = plain.after
  event : plain.event.DiffersByDriver plain.line kept.event

theorem Step.keepDriver {present : Text → Bool} {scanner next : Scanner} {line : Text}
    {event : Event} (h : Step ⟨present, false⟩ scanner line next event) :
    ∃ kept, Step ⟨present, true⟩ scanner line next kept ∧ event.DiffersByDriver line kept := by
  cases h with
  | stray h => exact ⟨_, .stray h, .nothing⟩
  | begins h => exact ⟨_, .begins h, .nothing⟩
  | directory => exact ⟨_, .directory, .nothing⟩
  | passed h => exact ⟨_, .passed h, .nothing⟩
  | abandoned hi hk => exact ⟨_, .abandoned hi hk, .nothing⟩
  | registered hi hr => exact ⟨_, .registered hi hr, .nothing⟩
  | rejected hi hr => exact ⟨_, .rejected hi hr, .nothing⟩
  | compiled hi hr =>
    obtain ⟨first, rest, harguments⟩ := Command.exists_arguments_of_isInvocation hi
    have hkept := Invocation.record_keepDriver harguments present
    exact ⟨_, .compiled hi ((hkept _ _).trans (congrArg _ hr)),
      .record (Record.differsByDriver_withDriver harguments _)⟩
  | failed hi hr =>
    obtain ⟨first, rest, harguments⟩ := Command.exists_arguments_of_isInvocation hi
    have hkept := Invocation.record_keepDriver harguments present
    exact ⟨_, .failed hi ((hkept _ _).trans (congrArg _ hr)), .unresolved _⟩

theorem Scanner.feedEach_cons {setting : Setting} {scanner next : Scanner} {line : Text}
    {event : Event} (h : Step setting scanner line next event) (rest : List Text) :
    scanner.feedEach setting (line :: rest) =
      ⟨line, event, next⟩ :: next.feedEach setting rest := by
  rw [feedEach, h.feed_eq]

theorem Fed.DiffersByDriver.rel_record? {plain kept : Fed} (h : Fed.DiffersByDriver plain kept) :
    Option.Rel (fun plain kept => kept.1 = plain.1 ∧ Record.DiffersByDriver plain.1 plain.2 kept.2)
      plain.record? kept.record? := by
  obtain ⟨line, event, after⟩ := plain
  obtain ⟨line', event', after'⟩ := kept
  obtain ⟨hline, -, hevent⟩ := h
  cases hevent with
  | nothing | unresolved error => exact .none
  | record h => exact .some ⟨hline, h⟩

/-- Keeping the driver changes nothing but the front of the commands, whatever the lines are and
whichever of them fail: after every line the scanners are the same, the same lines have failed of
the same error, and equally many records have been made, each from the same invocation as the one
beside it. -/
theorem feedEach_keepDriver (present : Text → Bool) (scanner : Scanner) (lines : List Text) :
    let plain := scanner.feedEach ⟨present, false⟩ lines
    let kept := scanner.feedEach ⟨present, true⟩ lines
    List.Forall₂ Fed.DiffersByDriver plain kept ∧
      List.Forall₂
        (fun plain kept => kept.1 = plain.1 ∧ Record.DiffersByDriver plain.1 plain.2 kept.2)
        (plain.filterMap Fed.record?) (kept.filterMap Fed.record?) := by
  intro plain kept
  have hlines : List.Forall₂ Fed.DiffersByDriver plain kept := by
    unfold plain kept
    clear plain kept
    induction lines generalizing scanner with
    | nil => exact .nil
    | cons line rest ih =>
      obtain ⟨next, event, hstep⟩ := exists_step ⟨present, false⟩ scanner line
      obtain ⟨other, hkept, hevent⟩ := hstep.keepDriver
      rw [Scanner.feedEach_cons hstep, Scanner.feedEach_cons hkept]
      exact .cons ⟨rfl, rfl, hevent⟩ (ih next)
  exact ⟨hlines, List.rel_filterMap (fun _ _ h => h.rel_record?) hlines⟩

end BuildLog.Transcript
