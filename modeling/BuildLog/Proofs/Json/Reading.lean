import BuildLog.Json.Printer
import BuildLog.Json.Reader
import Mathlib.Tactic.Common

/-! What the reader does with a text, told by where it stands in front of the text and behind it.
Positions matter for errors only, so they are left out. -/
namespace BuildLog.Json

/-- A reader for which `P` holds takes the whole text, and then `Q` holds. -/
def Takes (P : Reader → Prop) (text : Text) (Q : Reader → Prop) : Prop :=
  ∀ reader, P reader → ∃ behind, text.foldlM Reader.step reader = .ok behind ∧ Q behind

namespace Takes

variable {P Q R : Reader → Prop} {text more : Text}

theorem nil : Takes P [] P := fun reader h => ⟨reader, rfl, h⟩

theorem cons {c : Char} (h : ∀ reader, P reader → ∃ next, reader.step c = .ok next ∧ Q next)
    (htext : Takes Q text R) : Takes P (c :: text) R := by
  intro reader hreader
  obtain ⟨next, hstep, hnext⟩ := h reader hreader
  obtain ⟨behind, hfold, hbehind⟩ := htext next hnext
  refine ⟨behind, ?_, hbehind⟩
  rw [List.foldlM_cons, hstep]
  exact hfold

theorem append (h : Takes P text Q) (hmore : Takes Q more R) : Takes P (text ++ more) R := by
  intro reader hreader
  obtain ⟨next, hfold, hnext⟩ := h reader hreader
  obtain ⟨behind, hfold', hbehind⟩ := hmore next hnext
  refine ⟨behind, ?_, hbehind⟩
  rw [List.foldlM_append, hfold]
  exact hfold'

theorem single {c : Char} (h : ∀ reader, P reader → ∃ next, reader.step c = .ok next ∧ Q next) :
    Takes P [c] Q := cons h nil

end Takes

def At (stack : List Frame) (mode : Mode) (reader : Reader) : Prop :=
  reader.stack = stack ∧ reader.mode = mode

theorem takes_step {stack stack' : List Frame} {mode mode' : Mode} {c : Char}
    (h : ∀ position, ∃ position',
      (⟨position, stack, mode⟩ : Reader).step c = .ok ⟨position', stack', mode'⟩) :
    Takes (At stack mode) [c] (At stack' mode') := by
  apply Takes.single
  rintro ⟨position, _, _⟩ ⟨rfl, rfl⟩
  obtain ⟨position', hstep⟩ := h position
  exact ⟨_, hstep, rfl, rfl⟩

def Mode.isBetween : Mode → Bool
  | .text .. | .number .. | .word .. => false
  | _ => true

theorem step_blank {reader : Reader} {c : Char} (h : reader.mode.isBetween = true)
    (hc : Reader.isBlank c = true) : reader.step c = .ok (reader.next reader.mode) := by
  obtain ⟨position, stack, mode⟩ := reader
  cases mode with
  | text | number | word => exact absurd h Bool.false_ne_true
  | _ => simp only [Reader.step, Reader.afterValue, hc, if_true]

theorem takes_blanks {stack : List Frame} {mode : Mode} (h : mode.isBetween = true) (text : Text)
    (htext : text.all Reader.isBlank = true) : Takes (At stack mode) text (At stack mode) := by
  induction text with
  | nil => exact Takes.nil
  | cons c text ih =>
    rw [List.all_cons, Bool.and_eq_true] at htext
    refine Takes.cons ?_ (ih htext.2)
    rintro reader ⟨hstack, hmode⟩
    rw [← hmode] at h
    exact ⟨_, step_blank h htext.1, hstack, hmode⟩

/-- The reader is inside of a quoted text of which it has read some characters, last first. What
it still holds back of them is no first half of a pair. -/
def Within (stack : List Frame) (sofar : WideText) (reader : Reader) : Prop :=
  reader.stack = stack ∧ ∃ start held unit, Option.filter Reader.isHighUnit unit = none ∧
    Reader.withUnit unit held = sofar ∧ ∀ c, reader.step c = reader.stepPlain start held unit c

variable {stack : List Frame} {sofar : WideText}

theorem within_next {reader : Reader} (h : reader.stack = stack) (start : Nat) :
    Within stack sofar (reader.next (.text start sofar .plain)) :=
  ⟨h, start, sofar, none, rfl, rfl, fun _ => rfl⟩

theorem takes_quote {mode : Mode} (h : mode = .value ∨ mode = .firstName ∨ mode = .name) :
    Takes (At stack mode) ['"'] (Within stack []) := by
  apply Takes.single
  rintro ⟨position, stack, _⟩ ⟨rfl, rfl⟩
  refine ⟨_, ?_, within_next rfl position⟩
  rcases h with rfl | rfl | rfl <;> rfl

theorem takes_plain {c : Char} (hquote : c ≠ '"') (hbackslash : c ≠ '\\')
    (hcontrol : ¬ c.toNat < 0x20) :
    Takes (Within stack sofar) [c] (Within stack (.char c :: sofar)) := by
  apply Takes.single
  rintro reader ⟨hstack, start, held, unit, -, hheld, hstep⟩
  refine ⟨_, ?_, within_next hstack start⟩
  simp only [hstep, Reader.stepPlain, hquote, hbackslash, hcontrol, hheld, if_false]

def Escaping (stack : List Frame) (sofar : WideText) (reader : Reader) : Prop :=
  reader.stack = stack ∧
    ∃ start position, reader.mode = .text start sofar (.backslash position none)

theorem takes_backslash : Takes (Within stack sofar) ['\\'] (Escaping stack sofar) := by
  apply Takes.single
  rintro reader ⟨hstack, start, held, unit, hunit, hheld, hstep⟩
  refine ⟨reader.next (.text start sofar (.backslash reader.position none)), ?_, hstack, start,
    reader.position, rfl⟩
  simp only [hstep, Reader.stepPlain, hunit, hheld, if_true]

theorem takes_letter {letter c : Char} (h : Reader.escaped? letter = some c) :
    Takes (Within stack sofar) ['\\', letter] (Within stack (.char c :: sofar)) := by
  apply takes_backslash.append
  apply Takes.single
  rintro ⟨position, stack, _⟩ ⟨rfl, start, before, rfl⟩
  have hu : letter ≠ 'u' := by
    rintro rfl
    cases h
  refine ⟨_, ?_, within_next rfl start⟩
  simp only [Reader.step, Reader.stepText, hu, h, if_false]
  rfl

theorem hexValue?_digitChar {digit : Nat} (h : digit < 16) :
    Reader.hexValue? (Nat.digitChar digit) = some digit := by
  have hall : ∀ digit < 16, Reader.hexValue? (Nat.digitChar digit) = some digit := by decide
  exact hall digit h

theorem hexDigits_four (n : Nat) : Text.hexDigits 4 n =
    [Nat.digitChar (n / 16 / 16 / 16 % 16), Nat.digitChar (n / 16 / 16 % 16),
      Nat.digitChar (n / 16 % 16), Nat.digitChar (n % 16)] := rfl

theorem takes_unit {code : Nat} (h : code < 0xD800) :
    Takes (Within stack sofar) ('\\' :: 'u' :: Text.hexDigits 4 code)
      (Within stack (.char (Char.ofNat code) :: sofar)) := by
  have hdigit (n : Nat) : Reader.hexValue? (Nat.digitChar (n % 16)) = some (n % 16) :=
    hexValue?_digitChar (Nat.mod_lt n (by decide))
  have hcode : ((code / 16 / 16 / 16 % 16 * 16 + code / 16 / 16 % 16) * 16 + code / 16 % 16) * 16 +
      code % 16 = code := by omega
  have hhigh : Reader.isHighUnit code = false := by
    unfold Reader.isHighUnit
    simp only [Bool.and_eq_false_iff, decide_eq_false_iff_not]
    omega
  have hpoint : CodePoint.ofNat code = .char (Char.ofNat code) := by
    unfold CodePoint.ofNat
    exact dif_neg (by omega)
  have hdigits : Takes (Escaping stack sofar) ('u' :: Text.hexDigits 4 code)
      (Within stack (.char (Char.ofNat code) :: sofar)) := by
    rintro ⟨position, stack, _⟩ ⟨rfl, start, before, rfl⟩
    refine ⟨⟨position + 5, stack, .text start sofar (.complete position code)⟩, ?_, rfl, start,
      sofar, some code, ?_, ?_, fun _ => rfl⟩
    · simp only [hexDigits_four, List.foldlM_cons, List.foldlM_nil, Reader.step, Reader.stepText,
        hdigit, Reader.next, Reader.endUnit, hcode, if_true, bind, Except.bind, pure, Except.pure]
    · simp [Option.filter, hhigh]
    · rw [Reader.withUnit, hpoint]
  exact takes_backslash.append hdigits

theorem takes_nameEnd {members : List (WideText × Json)} (name : WideText) :
    Takes (Within (.object members :: stack) name.reverse) ['"']
      (At (.member members name :: stack) .colon) := by
  apply Takes.single
  rintro ⟨position, _, mode⟩ ⟨rfl, start, held, unit, -, hheld, hstep⟩
  have hname : (Reader.withUnit unit held).reverse = name := by
    rw [hheld, List.reverse_reverse]
  subst hname
  exact ⟨_, hstep '"', rfl, rfl⟩

theorem takes_valueEnd {members : List (WideText × Json)} {name : WideText} (value : WideText) :
    Takes (Within (.member members name :: stack) value.reverse) ['"']
      (At (.object ((name, .text value) :: members) :: stack) .ended) := by
  apply Takes.single
  rintro ⟨position, _, mode⟩ ⟨rfl, start, held, unit, -, hheld, hstep⟩
  have hvalue : (Reader.withUnit unit held).reverse = value := by
    rw [hheld, List.reverse_reverse]
  subst hvalue
  exact ⟨_, hstep '"', rfl, rfl⟩

end BuildLog.Json
