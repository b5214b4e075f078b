import BuildLog.Text.Basic
import Mathlib.Data.List.Infix

/-! Patterns as a backtracking matcher takes them: it tries the ways in which a pattern can match a
beginning of a text one after the other, and goes back to the next way when what follows fails. The
order decides what is found first, but not whether anything is found: for that a pattern is as good
as the set of the texts that it matches. -/
namespace BuildLog.Text

inductive Pattern
  /-- One of some texts, tried in their order. -/
  | oneOf (texts : List Text)
  /-- Any characters but line feeds, as many as there are before fewer are tried. -/
  | anything
  | followedBy (first second : Pattern)
  /-- A pattern, and nothing in its place when that fails. -/
  | optional (pattern : Pattern)

namespace Pattern

def literal (text : Text) : Pattern := oneOf [text]

def restsOfLine : Text → List Text
  | [] => [[]]
  | c :: text => if c = '\n' then [c :: text] else restsOfLine text ++ [c :: text]

/-- What can be left of a text behind a beginning that a pattern matches, in the order in which it
is tried. -/
def rests : Pattern → Text → List Text
  | oneOf texts, text => texts.filterMap fun beginning => beginning.isPrefixOf? text
  | anything, text => restsOfLine text
  | followedBy first second, text => (first.rests text).flatMap second.rests
  | optional pattern, text => pattern.rests text ++ [text]

def occursIn (pattern : Pattern) (text : Text) : Bool :=
  text.tails.any fun tail => !(pattern.rests tail).isEmpty

def Matches : Pattern → Text → Prop
  | oneOf texts, text => text ∈ texts
  | anything, text => '\n' ∉ text
  | followedBy first second, text =>
    ∃ front back, text = front ++ back ∧ first.Matches front ∧ second.Matches back
  | optional pattern, text => pattern.Matches text ∨ text = []

@[simp] theorem matches_literal {expected text : Text} :
    (literal expected).Matches text ↔ text = expected :=
  List.mem_singleton

theorem mem_restsOfLine {text rest : Text} :
    rest ∈ restsOfLine text ↔ ∃ taken, '\n' ∉ taken ∧ text = taken ++ rest := by
  induction text with
  | nil =>
    rw [restsOfLine, List.mem_singleton]
    constructor
    · rintro rfl
      exact ⟨[], List.not_mem_nil, rfl⟩
    · rintro ⟨taken, -, h⟩
      exact (List.append_eq_nil_iff.mp h.symm).2
  | cons c text ih =>
    have hall : ∃ taken, '\n' ∉ taken ∧ c :: text = taken ++ (c :: text) :=
      ⟨[], List.not_mem_nil, rfl⟩
    rw [restsOfLine]
    split
    next hc =>
      rw [List.mem_singleton]
      constructor
      · rintro rfl
        exact hall
      · rintro ⟨taken, htaken, h⟩
        cases taken with
        | nil => exact h.symm
        | cons d taken =>
          rw [List.mem_cons, not_or] at htaken
          exact absurd ((List.cons.inj h).1.symm.trans hc).symm htaken.1
    next hc =>
      rw [List.mem_append, List.mem_singleton, ih]
      constructor
      · rintro (⟨taken, htaken, rfl⟩ | rfl)
        · exact ⟨c :: taken, List.not_mem_cons_of_ne_of_not_mem (Ne.symm hc) htaken, rfl⟩
        · exact hall
      · rintro ⟨taken, htaken, h⟩
        cases taken with
        | nil => exact .inr h.symm
        | cons d taken =>
          exact .inl ⟨taken, List.not_mem_of_not_mem_cons htaken, (List.cons.inj h).2⟩

/-- The matcher tries every beginning that its pattern matches, and no other. -/
theorem mem_rests_iff {pattern : Pattern} {text rest : Text} :
    rest ∈ pattern.rests text ↔ ∃ taken, pattern.Matches taken ∧ text = taken ++ rest := by
  induction pattern generalizing text rest with
  | oneOf texts =>
    simp only [rests, Matches, List.mem_filterMap, List.isPrefixOf?_eq_some_iff_append_eq,
      eq_comm (a := text)]
  | anything => exact mem_restsOfLine
  | followedBy first second hfirst hsecond =>
    simp only [rests, Matches, List.mem_flatMap, hfirst, hsecond]
    constructor
    · rintro ⟨middle, ⟨front, hfront, rfl⟩, back, hback, rfl⟩
      exact ⟨front ++ back, ⟨front, back, rfl, hfront, hback⟩, by rw [List.append_assoc]⟩
    · rintro ⟨_, ⟨front, back, rfl, hfront, hback⟩, rfl⟩
      exact ⟨back ++ rest, ⟨front, hfront, by rw [List.append_assoc]⟩, back, hback, rfl⟩
  | optional pattern ih =>
    simp only [rests, Matches, List.mem_append, List.mem_singleton, ih]
    constructor
    · rintro (⟨taken, htaken, rfl⟩ | rfl)
      · exact ⟨taken, .inl htaken, rfl⟩
      · exact ⟨[], .inr rfl, rfl⟩
    · rintro ⟨taken, htaken | rfl, rfl⟩
      · exact .inl ⟨taken, htaken, rfl⟩
      · exact .inr rfl

theorem occursIn_iff {pattern : Pattern} {text : Text} :
    pattern.occursIn text = true ↔ ∃ part, pattern.Matches part ∧ part <:+: text := by
  simp only [occursIn, List.any_eq_true, List.mem_tails, Bool.not_eq_true',
    List.isEmpty_eq_false_iff_exists_mem, mem_rests_iff]
  constructor
  · rintro ⟨tail, ⟨before, rfl⟩, rest, part, hpart, rfl⟩
    exact ⟨part, hpart, before, rest, by rw [List.append_assoc]⟩
  · rintro ⟨part, hpart, before, rest, rfl⟩
    exact ⟨part ++ rest, ⟨before, by rw [List.append_assoc]⟩, rest, part, hpart, rfl⟩

end Pattern
end BuildLog.Text
