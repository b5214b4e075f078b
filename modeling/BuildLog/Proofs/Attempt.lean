import BuildLog.Text.Basic

/-! Attempts that follow one another. All of them succeed if the last one does, so that a success is
taken apart one attempt at a time. -/
namespace BuildLog

theorem exists_of_bind_eq_ok {ε α β : Type} {attempt : Except ε α} {next : α → Except ε β} {b : β}
    (h : attempt >>= next = .ok b) : ∃ a, attempt = .ok a ∧ next a = .ok b := by
  cases attempt with
  | error error => cases h
  | ok a => exact ⟨a, rfl, h⟩

theorem mapError_eq_ok_iff {ε ε' α : Type} {attempt : Except ε α} {explain : ε → ε'} {a : α} :
    attempt.mapError explain = .ok a ↔ attempt = .ok a := by
  cases attempt with
  | error error => constructor <;> intro h <;> cases h
  | ok value => constructor <;> intro h <;> cases h <;> rfl

theorem exists_of_foldlM_cons {ε α β : Type} {step : β → α → Except ε β} {first last : β} {a : α}
    {rest : List α} (h : (a :: rest).foldlM step first = .ok last) :
    ∃ next, step first a = .ok next ∧ rest.foldlM step next = .ok last := by
  rw [List.foldlM_cons] at h
  exact exists_of_bind_eq_ok h

end BuildLog
