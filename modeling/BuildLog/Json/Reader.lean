import BuildLog.Json.Value
import BuildLog.Text.Numeral

/-! A JSON reader that takes one character at a time and keeps the open arrays and objects on a
stack. It fails at the earliest character that no document could have there, and tells what was
due instead. Beyond the standard it knows the numbers `NaN`, `Infinity` and `-Infinity`, and it
refuses integers that are too long; a number with a fraction or an exponent may be of any length. -/
namespace BuildLog.Json

def maxDigits : Nat := 4300

inductive Reason
  | byteOrderMark
  | valueDue
  | memberNameDue
  | colonDue
  | commaDue
  | extraData
  | unterminatedText
  | controlCharacter
  | unknownEscape
  | unknownUnit
  /-- An integer of so many digits is longer than `maxDigits`. -/
  | longInteger (digits : Nat)
deriving DecidableEq, Repr

structure ReadError where
  reason : Reason
  position : Nat
deriving DecidableEq, Repr

/-- An array or an object that is not closed yet; what it holds so far comes last first. -/
inductive Frame
  | array (items : List Json)
  | object (members : List (WideText × Json))
  /-- An object of which a member has its name and not yet its value. -/
  | member (members : List (WideText × Json)) (name : WideText)

/-- How far a number is read. A mark that digits must follow keeps its position. -/
inductive NumberPhase
  | sign (position : Nat)
  | zero
  | whole
  | point (position : Nat)
  | fraction
  | exponent (position : Nat)
  | exponentSign (position : Nat)
  | power
deriving DecidableEq, Repr

/-- How far an escape or the text around it is read. A code unit is kept until the next character
shows whether it is the first half of a pair. -/
inductive TextPhase
  | plain
  | backslash (position : Nat) (first : Option Nat)
  | unit (position : Nat) (first : Option Nat) (digits : List Nat)
  | complete (position : Nat) (code : Nat)
deriving DecidableEq, Repr

inductive Mode
  | value
  | firstItem
  | firstName
  | name
  | colon
  | ended
  | done (document : Json)
  | text (start : Nat) (sofar : WideText) (phase : TextPhase)
  | number (sofar : Text) (phase : NumberPhase)
  /-- A word that stands for a value, and what is left of it. -/
  | word (start : Nat) (rest : Text) (meaning : Json)

structure Reader where
  position : Nat
  stack : List Frame
  mode : Mode

namespace Reader

def start : Reader := ⟨0, [], .value⟩

def isBlank (c : Char) : Bool := c == ' ' || c == '\t' || c == '\n' || c == '\r'

def fail {α : Type} (reason : Reason) (position : Nat) : Except ReadError α :=
  .error ⟨reason, position⟩

def next (reader : Reader) (mode : Mode) : Reader :=
  { reader with position := reader.position + 1, mode }

def opening (reader : Reader) (frame : Frame) (mode : Mode) : Reader :=
  { position := reader.position + 1, stack := frame :: reader.stack, mode }

/-- Puts a value where it belongs, without going on. A text in an object is the name of a member. -/
def settle (reader : Reader) (value : Json) : Reader :=
  match reader.stack with
  | [] => { reader with mode := .done value }
  | .array items :: outer =>
    { reader with stack := .array (value :: items) :: outer, mode := .ended }
  | .member members name :: outer =>
    { reader with stack := .object ((name, value) :: members) :: outer, mode := .ended }
  | .object members :: outer =>
    match value with
    | .text name => { reader with stack := .member members name :: outer, mode := .colon }
    | _ => reader

def close (reader : Reader) : Reader :=
  let outside (outer : List Frame) : Reader := ⟨reader.position + 1, outer, .ended⟩
  match reader.stack with
  | .array items :: outer => (outside outer).settle (.array items.reverse)
  | .object members :: outer => (outside outer).settle (.object members.reverse)
  | _ => reader

def wordOf? (c : Char) : Option (Text × Json) :=
  if c = 'n' then some ("ull".toList, .null)
  else if c = 't' then some ("rue".toList, .boolean true)
  else if c = 'f' then some ("alse".toList, .boolean false)
  else if c = 'N' then some ("aN".toList, .number "NaN".toList)
  else if c = 'I' then some ("nfinity".toList, .number "Infinity".toList)
  else none

def beginValue (reader : Reader) (c : Char) : Except ReadError Reader :=
  if c = '"' then .ok (reader.next (.text reader.position [] .plain))
  else if c = '[' then .ok (reader.opening (.array []) .firstItem)
  else if c = '\x7b' then .ok (reader.opening (.object []) .firstName)
  else if c = '-' then .ok (reader.next (.number [c] (.sign reader.position)))
  else if c = '0' then .ok (reader.next (.number [c] .zero))
  else if c.isDigit then .ok (reader.next (.number [c] .whole))
  else match wordOf? c with
    | some (rest, meaning) => .ok (reader.next (.word reader.position rest meaning))
    | none => fail .valueDue reader.position

def afterValue (reader : Reader) (c : Char) : Except ReadError Reader :=
  if isBlank c then .ok (reader.next reader.mode)
  else match reader.stack with
    | [] => fail .extraData reader.position
    | .array _ :: _ =>
      if c = ',' then .ok (reader.next .value)
      else if c = ']' then .ok reader.close
      else fail .commaDue reader.position
    | _ =>
      if c = ',' then .ok (reader.next .name)
      else if c = '\x7d' then .ok reader.close
      else fail .commaDue reader.position

def trailingReason (reader : Reader) : Reason :=
  if reader.stack.isEmpty then .extraData else .commaDue

def settleNumber (reader : Reader) (sofar : Text) : Except ReadError Reader :=
  let digits := (sofar.filter (· ≠ '-')).length
  if maxDigits < digits ∧ sofar.all (fun c => c == '-' || c.isDigit) then
    fail (.longInteger digits) reader.position
  else .ok (reader.settle (.number sofar.reverse))

/-- A mark in a number is not followed by digits. The number has ended before the mark, which is a
fault after it. -/
def unfinishedMark {α : Type} (reader : Reader) (sofar : Text) (position : Nat) :
    Except ReadError α := do
  let settled ← reader.settleNumber (sofar.drop (reader.position - position))
  fail settled.trailingReason position

def stepNumber (reader : Reader) (sofar : Text) (phase : NumberPhase) (c : Char) :
    Except ReadError Reader :=
  let goOn (phase : NumberPhase) : Except ReadError Reader :=
    .ok (reader.next (.number (c :: sofar) phase))
  let finished : Except ReadError Reader := do (← reader.settleNumber sofar).afterValue c
  let isExponent := c = 'e' ∨ c = 'E'
  match phase with
  | .sign position =>
    if c = '0' then goOn .zero
    else if c.isDigit then goOn .whole
    else if c = 'I' then
      .ok (reader.next (.word position "nfinity".toList (.number "-Infinity".toList)))
    else fail .valueDue position
  | .zero =>
    if c = '.' then goOn (.point reader.position)
    else if isExponent then goOn (.exponent reader.position)
    else finished
  | .whole =>
    if c.isDigit then goOn .whole
    else if c = '.' then goOn (.point reader.position)
    else if isExponent then goOn (.exponent reader.position)
    else finished
  | .point position =>
    if c.isDigit then goOn .fraction else reader.unfinishedMark sofar position
  | .fraction =>
    if c.isDigit then goOn .fraction
    else if isExponent then goOn (.exponent reader.position)
    else finished
  | .exponent position =>
    if c.isDigit then goOn .power
    else if c = '+' ∨ c = '-' then goOn (.exponentSign position)
    else reader.unfinishedMark sofar position
  | .exponentSign position =>
    if c.isDigit then goOn .power else reader.unfinishedMark sofar position
  | .power => if c.isDigit then goOn .power else finished

def hexValue? (c : Char) : Option Nat :=
  let n := c.toNat
  if c.isDigit then some (n - '0'.toNat)
  else if 'a' ≤ c ∧ c ≤ 'f' then some (n - 'a'.toNat + 10)
  else if 'A' ≤ c ∧ c ≤ 'F' then some (n - 'A'.toNat + 10)
  else none

def isHighUnit (code : Nat) : Bool := 0xD800 ≤ code && code < 0xDC00

def isLowUnit (code : Nat) : Bool := 0xDC00 ≤ code && code < 0xE000

def pairCode (high low : Nat) : Nat := 0x10000 + (high - 0xD800) * 0x400 + (low - 0xDC00)

def withUnit (unit : Option Nat) (sofar : WideText) : WideText :=
  match unit with
  | none => sofar
  | some code => .ofNat code :: sofar

def escaped? (c : Char) : Option Char :=
  if c = '"' ∨ c = '\\' ∨ c = '/' then some c
  else if c = 'b' then some '\x08'
  else if c = 'f' then some '\x0c'
  else if c = 'n' then some '\n'
  else if c = 'r' then some '\r'
  else if c = 't' then some '\t'
  else none

def stepPlain (reader : Reader) (start : Nat) (sofar : WideText) (unit : Option Nat) (c : Char) :
    Except ReadError Reader :=
  if c = '\\' then
    match unit.filter isHighUnit with
    | some high => .ok (reader.next (.text start sofar (.backslash reader.position (some high))))
    | none =>
      .ok (reader.next (.text start (withUnit unit sofar) (.backslash reader.position none)))
  else
    let sofar := withUnit unit sofar
    if c = '"' then
      .ok { reader.settle (.text sofar.reverse) with position := reader.position + 1 }
    else if c.toNat < 0x20 then fail .controlCharacter reader.position
    else .ok (reader.next (.text start (.char c :: sofar) .plain))

/-- The last digit of a code unit is read: it makes a pair with the half before it, or it is on
its own. -/
def endUnit (reader : Reader) (start : Nat) (sofar : WideText) (position : Nat) (first : Option Nat)
    (code : Nat) : Reader :=
  match first with
  | some high =>
    if isLowUnit code then
      reader.next (.text start sofar (.complete position (pairCode high code)))
    else reader.next (.text start (withUnit first sofar) (.complete position code))
  | none => reader.next (.text start sofar (.complete position code))

def stepText (reader : Reader) (start : Nat) (sofar : WideText) (phase : TextPhase) (c : Char) :
    Except ReadError Reader :=
  match phase with
  | .plain => reader.stepPlain start sofar none c
  | .complete _ code => reader.stepPlain start sofar (some code) c
  | .backslash position first =>
    if c = 'u' then .ok (reader.next (.text start sofar (.unit reader.position first [])))
    else match escaped? c with
      | some meant => .ok (reader.next (.text start (.char meant :: withUnit first sofar) .plain))
      | none => fail .unknownEscape position
  | .unit position first digits =>
    match hexValue? c with
    | none => fail .unknownUnit position
    | some digit =>
      match digits with
      | [d₂, d₁, d₀] =>
        let code := ((d₀ * 16 + d₁) * 16 + d₂) * 16 + digit
        .ok (reader.endUnit start sofar position first code)
      | _ => .ok (reader.next (.text start sofar (.unit position first (digit :: digits))))

def step (reader : Reader) (c : Char) : Except ReadError Reader :=
  match reader.mode with
  | .value => if isBlank c then .ok (reader.next .value) else reader.beginValue c
  | .firstItem =>
    if isBlank c then .ok (reader.next .firstItem)
    else if c = ']' then .ok reader.close
    else reader.beginValue c
  | .firstName =>
    if isBlank c then .ok (reader.next .firstName)
    else if c = '\x7d' then .ok reader.close
    else if c = '"' then .ok (reader.next (.text reader.position [] .plain))
    else fail .memberNameDue reader.position
  | .name =>
    if isBlank c then .ok (reader.next .name)
    else if c = '"' then .ok (reader.next (.text reader.position [] .plain))
    else fail .memberNameDue reader.position
  | .colon =>
    if isBlank c then .ok (reader.next .colon)
    else if c = ':' then .ok (reader.next .value)
    else fail .colonDue reader.position
  | .ended | .done _ => reader.afterValue c
  | .text start sofar phase => reader.stepText start sofar phase c
  | .number sofar phase => reader.stepNumber sofar phase c
  | .word start rest meaning =>
    match rest with
    | [] => (reader.settle meaning).afterValue c
    | due :: rest =>
      if c = due then .ok (reader.next (.word start rest meaning)) else fail .valueDue start

def finish (reader : Reader) : Except ReadError Json :=
  let whole (value : Json) : Except ReadError Json :=
    if reader.stack.isEmpty then .ok value else fail .commaDue reader.position
  match reader.mode with
  | .done document => .ok document
  | .value | .firstItem => fail .valueDue reader.position
  | .firstName | .name => fail .memberNameDue reader.position
  | .colon => fail .colonDue reader.position
  | .ended => fail .commaDue reader.position
  | .text _ _ (.unit position _ _) | .text _ _ (.complete position _) => fail .unknownUnit position
  | .text start _ _ => fail .unterminatedText start
  | .number sofar phase =>
    match phase with
    | .sign position => fail .valueDue position
    | .point position | .exponent position | .exponentSign position =>
      reader.unfinishedMark sofar position
    | _ => do
      let _ ← reader.settleNumber sofar
      whole (.number sofar.reverse)
  | .word _ [] meaning => whole meaning
  | .word start _ _ => fail .valueDue start

end Reader

def read (text : Text) : Except ReadError Json :=
  if text.head? = some '\ufeff' then .error ⟨.byteOrderMark, 0⟩
  else do
    let reader ← text.foldlM Reader.step .start
    reader.finish

def Reason.message : Reason → Text
  | .byteOrderMark => "Unexpected UTF-8 BOM (decode using utf-8-sig)".toList
  | .valueDue => "Expecting value".toList
  | .memberNameDue => "Expecting property name enclosed in double quotes".toList
  | .colonDue => "Expecting ':' delimiter".toList
  | .commaDue => "Expecting ',' delimiter".toList
  | .extraData => "Extra data".toList
  | .unterminatedText => "Unterminated string starting at".toList
  | .controlCharacter => "Invalid control character at".toList
  | .unknownEscape => "Invalid \\escape".toList
  | .unknownUnit => "Invalid \\uXXXX escape".toList
  | .longInteger digits =>
    "Exceeds the limit (".toList ++ Text.decimal maxDigits ++
      " digits) for integer string conversion: value has ".toList ++ Text.decimal digits ++
      " digits; use sys.set_int_max_str_digits() to increase the limit".toList

def Reason.isPlaced : Reason → Bool
  | .longInteger _ => false
  | _ => true

def placeIn (text : Text) (position : Nat) : Text :=
  let before := text.take position
  let line := before.count '\n' + 1
  let column := (before.reverse.takeWhile (· ≠ '\n')).length + 1
  "line ".toList ++ Text.decimal line ++ " column ".toList ++ Text.decimal column ++
    " (char ".toList ++ Text.decimal position ++ [')']

def ReadError.message (text : Text) (error : ReadError) : Text :=
  if error.reason.isPlaced then
    error.reason.message ++ ": ".toList ++ placeIn text error.position
  else error.reason.message

end BuildLog.Json
