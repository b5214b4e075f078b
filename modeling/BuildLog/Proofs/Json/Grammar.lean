import BuildLog.Text.Basic

/-! The grammar of JSON documents, told without a reader: no words beyond the three of the standard,
no control character inside a text, nothing but blanks behind the document. -/
namespace BuildLog.Json

def IsDigits (text : Text) : Prop := text ≠ [] ∧ ∀ c ∈ text, c.isDigit = true

/-- A numeral has no needless zero in front, and digits behind every mark. -/
def IsNumeral (numeral : Text) : Prop :=
  ∃ sign whole fraction power : Text, numeral = sign ++ whole ++ fraction ++ power ∧
    (sign = [] ∨ sign = ['-']) ∧
    (whole = ['0'] ∨ IsDigits whole ∧ whole.head? ≠ some '0') ∧
    (fraction = [] ∨ ∃ digits, fraction = '.' :: digits ∧ IsDigits digits) ∧
    (power = [] ∨ ∃ mark sign digits, power = mark :: (sign ++ digits) ∧
      (mark = 'e' ∨ mark = 'E') ∧ (sign = [] ∨ sign = ['+'] ∨ sign = ['-']) ∧ IsDigits digits)

def isHexDigit (c : Char) : Bool :=
  c.isDigit || ('a' ≤ c && c ≤ 'f') || ('A' ≤ c && c ≤ 'F')

inductive Symbol
  | blanks
  /-- The characters of a text, and the quote that ends it. -/
  | chars
  | value
  /-- The values of an array that is not empty. -/
  | items
  /-- The members of an object that is not empty. -/
  | members

/-- A text begins with what a symbol stands for and goes on with a rest. -/
inductive Derives : Symbol → Text → Text → Prop
  | noBlank {rest : Text} : Derives .blanks rest rest
  | blank {c : Char} {text rest : Text} (h : c ∈ [' ', '\t', '\n', '\r'])
    (more : Derives .blanks text rest) : Derives .blanks (c :: text) rest
  | quote {rest : Text} : Derives .chars ('"' :: rest) rest
  | char {c : Char} {text rest : Text} (hquote : c ≠ '"') (hbackslash : c ≠ '\\')
    (hcontrol : 0x20 ≤ c.toNat) (more : Derives .chars text rest) : Derives .chars (c :: text) rest
  | escape {c : Char} {text rest : Text} (h : c ∈ ['"', '\\', '/', 'b', 'f', 'n', 'r', 't'])
    (more : Derives .chars text rest) : Derives .chars ('\\' :: c :: text) rest
  | unit {d₀ d₁ d₂ d₃ : Char} {text rest : Text} (h : ∀ d ∈ [d₀, d₁, d₂, d₃], isHexDigit d = true)
    (more : Derives .chars text rest) :
    Derives .chars ('\\' :: 'u' :: d₀ :: d₁ :: d₂ :: d₃ :: text) rest
  | word {word rest : Text} (h : word ∈ ["null", "true", "false"].map String.toList) :
    Derives .value (word ++ rest) rest
  | number {numeral rest : Text} (h : IsNumeral numeral) : Derives .value (numeral ++ rest) rest
  | text {text rest : Text} (chars : Derives .chars text rest) : Derives .value ('"' :: text) rest
  | emptyArray {text rest : Text} (blanks : Derives .blanks text (']' :: rest)) :
    Derives .value ('[' :: text) rest
  | array {text rest : Text} (items : Derives .items text (']' :: rest)) :
    Derives .value ('[' :: text) rest
  | emptyObject {text rest : Text} (blanks : Derives .blanks text ('\x7d' :: rest)) :
    Derives .value ('\x7b' :: text) rest
  | object {text rest : Text} (members : Derives .members text ('\x7d' :: rest)) :
    Derives .value ('\x7b' :: text) rest
  | lastItem {text value behind rest : Text} (before : Derives .blanks text value)
    (item : Derives .value value behind) (after : Derives .blanks behind rest) :
    Derives .items text rest
  | item {text value behind later rest : Text} (before : Derives .blanks text value)
    (item : Derives .value value behind) (after : Derives .blanks behind (',' :: later))
    (more : Derives .items later rest) : Derives .items text rest
  | lastMember {text name colon blanks value behind rest : Text}
    (before : Derives .blanks text ('"' :: name)) (chars : Derives .chars name colon)
    (between : Derives .blanks colon (':' :: blanks)) (between' : Derives .blanks blanks value)
    (member : Derives .value value behind) (after : Derives .blanks behind rest) :
    Derives .members text rest
  | member {text name colon blanks value behind later rest : Text}
    (before : Derives .blanks text ('"' :: name)) (chars : Derives .chars name colon)
    (between : Derives .blanks colon (':' :: blanks)) (between' : Derives .blanks blanks value)
    (member : Derives .value value behind) (after : Derives .blanks behind (',' :: later))
    (more : Derives .members later rest) : Derives .members text rest

theorem derives_blanks {blanks : Text} (h : blanks ⊆ [' ', '\t', '\n', '\r'])
    (rest : Text) : Derives .blanks (blanks ++ rest) rest := by
  induction blanks with
  | nil => exact .noBlank
  | cons c blanks ih =>
    rw [List.cons_subset] at h
    exact .blank h.1 (ih h.2)

/-- Whether a text is a document, one value with blanks around it. -/
def IsDocument (text : Text) : Prop :=
  ∃ value behind, Derives .blanks text value ∧ Derives .value value behind ∧
    Derives .blanks behind []

end BuildLog.Json
