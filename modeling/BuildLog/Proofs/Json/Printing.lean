import BuildLog.Proofs.Json.Outline
import BuildLog.Proofs.Json.Reading

/-! A printed text derives from the grammar, and the reader gets back what was printed. -/
namespace BuildLog.Json

inductive Escaped : Char → Text → Prop
  | letter {letter c : Char} (h : Reader.escaped? letter = some c) : Escaped c ['\\', letter]
  | unit {c : Char} (h : c.toNat < 0x20) : Escaped c ('\\' :: 'u' :: Text.hexDigits 4 c.toNat)
  | plain {c : Char} (hquote : c ≠ '"') (hbackslash : c ≠ '\\') (hcontrol : ¬ c.toNat < 0x20) :
    Escaped c [c]

theorem escaped_escapeChar (c : Char) : Escaped c (escapeChar c) := by
  unfold escapeChar
  split_ifs with hquote hbackslash hb hf hn hr ht hcontrol
  · subst hquote
    exact .letter (by decide)
  · subst hbackslash
    exact .letter (by decide)
  · subst hb
    exact .letter (by decide)
  · subst hf
    exact .letter (by decide)
  · subst hn
    exact .letter (by decide)
  · subst hr
    exact .letter (by decide)
  · subst ht
    exact .letter (by decide)
  · exact .unit hcontrol
  · exact .plain hquote hbackslash hcontrol

theorem mem_of_escaped? {letter c : Char} (h : Reader.escaped? letter = some c) :
    letter ∈ ['"', '\\', '/', 'b', 'f', 'n', 'r', 't'] := by
  unfold Reader.escaped? at h
  split_ifs at h with hself hb hf hn hr ht
  · rcases hself with rfl | rfl | rfl <;> decide
  all_goals
    subst letter
    decide

theorem isHexDigit_digitChar {digit : Nat} (h : digit < 16) :
    isHexDigit (Nat.digitChar digit) = true := by
  have hall : ∀ digit < 16, isHexDigit (Nat.digitChar digit) = true := by decide
  exact hall digit h

theorem isHexDigit_of_mem {width n : Nat} {c : Char} (h : c ∈ Text.hexDigits width n) :
    isHexDigit c = true := by
  induction width generalizing n with
  | zero => cases h
  | succ width ih =>
    rcases List.mem_append.mp h with h | h
    · exact ih h
    · rw [List.mem_singleton.mp h]
      exact isHexDigit_digitChar (Nat.mod_lt n (by decide))

theorem derives_escaped {c : Char} {escaped text rest : Text} (h : Escaped c escaped)
    (more : Derives .chars text rest) : Derives .chars (escaped ++ text) rest := by
  cases h with
  | letter h => exact .escape (mem_of_escaped? h) more
  | unit h => exact .unit (fun d hd => isHexDigit_of_mem (hexDigits_four _ ▸ hd)) more
  | plain hquote hbackslash hcontrol =>
    exact .char hquote hbackslash (Nat.le_of_not_lt hcontrol) more

theorem derives_chars (text rest : Text) :
    Derives .chars (text.flatMap escapeChar ++ '"' :: rest) rest := by
  induction text with
  | nil => exact .quote
  | cons c text ih =>
    rw [List.flatMap_cons, List.append_assoc]
    exact derives_escaped (escaped_escapeChar c) ih

theorem derives_printText (text rest : Text) : Derives .value (printText text ++ rest) rest := by
  unfold printText
  rw [List.append_assoc]
  exact .text (derives_chars text rest)

variable {stack : List Frame} {sofar : WideText}

theorem takes_escaped {c : Char} {escaped : Text} (h : Escaped c escaped) :
    Takes (Within stack sofar) escaped (Within stack (.char c :: sofar)) := by
  cases h with
  | letter h => exact takes_letter h
  | unit h =>
    have hcode : c.toNat < 0xD800 := by omega
    have hunit : Takes (Within stack sofar) ('\\' :: 'u' :: Text.hexDigits 4 c.toNat)
      (Within stack (.char (Char.ofNat c.toNat) :: sofar)) := takes_unit hcode
    rwa [Char.ofNat_toNat] at hunit
  | plain hquote hbackslash hcontrol => exact takes_plain hquote hbackslash hcontrol

theorem takes_chars (text : Text) :
    Takes (Within stack sofar) (text.flatMap escapeChar)
      (Within stack (text.widen.reverse ++ sofar)) := by
  induction text generalizing sofar with
  | nil => exact Takes.nil
  | cons c text ih =>
    rw [List.flatMap_cons, Text.widen, List.map_cons, List.reverse_cons, List.append_assoc]
    exact (takes_escaped (escaped_escapeChar c)).append ih

/-- The reader gets back a printed text, up to what becomes of it at its closing quote. -/
theorem takes_printText {mode : Mode} (h : mode = .value ∨ mode = .firstName ∨ mode = .name)
    {text : Text} {Q : Reader → Prop} (hend : Takes (Within stack text.widen.reverse) ['"'] Q) :
    Takes (At stack mode) (printText text) Q := by
  have hchars : Takes (Within stack []) (text.flatMap escapeChar)
    (Within stack (text.widen.reverse ++ [])) := takes_chars text
  rw [List.append_nil] at hchars
  have hquoted := ((takes_quote h).append hchars).append hend
  exact hquoted

theorem takes_printedName {mode : Mode} (h : mode = .firstName ∨ mode = .name)
    {members : List (WideText × Json)} (name : Text) :
    Takes (At (.object members :: stack) mode) (printText name)
      (At (.member members name.widen :: stack) .colon) :=
  takes_printText (.inr h) (takes_nameEnd name.widen)

theorem takes_printedValue {members : List (WideText × Json)} {name : WideText} (value : Text) :
    Takes (At (.member members name :: stack) .value) (printText value)
      (At (.object ((name, .text value.widen) :: members) :: stack) .ended) :=
  takes_printText (.inl rfl) (takes_valueEnd value.widen)

end BuildLog.Json
