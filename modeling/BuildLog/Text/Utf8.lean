import BuildLog.Text.Numeral

/-! UTF-8. Bytes are read one at a time: a byte that cannot go on with the sequence before it ends
that sequence as a fault and begins anew. A reader either puts U+FFFD in place of each fault or
stops at the first one. -/
namespace BuildLog.Utf8

def encodeChar (c : Char) : List UInt8 :=
  let code := c.toNat
  let continuation (shift : Nat) : UInt8 := UInt8.ofNat (0x80 + code / shift % 0x40)
  if code < 0x80 then [UInt8.ofNat code]
  else if code < 0x800 then [UInt8.ofNat (0xC0 + code / 0x40), continuation 1]
  else if code < 0x10000 then
    [UInt8.ofNat (0xE0 + code / 0x1000), continuation 0x40, continuation 1]
  else
    [UInt8.ofNat (0xF0 + code / 0x40000), continuation 0x1000, continuation 0x40, continuation 1]

def encode (text : Text) : List UInt8 := text.flatMap encodeChar

inductive FaultKind
  | invalidStart
  | invalidContinuation
  | unexpectedEnd
deriving DecidableEq, Repr

structure Fault where
  kind : FaultKind
  bytes : List UInt8
deriving DecidableEq, Repr

inductive Piece
  | char (c : Char)
  | fault (fault : Fault)
deriving DecidableEq, Repr

structure Pending where
  bytes : List UInt8
  value : Nat
  /-- How many bytes follow the next one. -/
  after : Nat
  /-- The least and the greatest byte that may come next. -/
  low : Nat
  high : Nat
deriving DecidableEq, Repr

/-- What a byte at the start of a character means: the whole character, the start of a longer one,
or neither. The bounds of the second byte leave out what has a shorter encoding, the surrogates
and what lies above U+10FFFF. -/
def begin (byte : UInt8) : Sum Piece Pending :=
  let n := byte.toNat
  if n < 0x80 then .inl (.char (Char.ofNat n))
  else if 0xC2 ≤ n ∧ n ≤ 0xDF then .inr ⟨[byte], n - 0xC0, 0, 0x80, 0xBF⟩
  else if 0xE0 ≤ n ∧ n ≤ 0xEF then
    .inr ⟨[byte], n - 0xE0, 1, if n = 0xE0 then 0xA0 else 0x80, if n = 0xED then 0x9F else 0xBF⟩
  else if 0xF0 ≤ n ∧ n ≤ 0xF4 then
    .inr ⟨[byte], n - 0xF0, 2, if n = 0xF0 then 0x90 else 0x80, if n = 0xF4 then 0x8F else 0xBF⟩
  else .inl (.fault ⟨.invalidStart, [byte]⟩)

/-- Takes the next byte of a pending character: the character, if this byte is its last, or what
is pending then. There is neither if the byte does not go on with it. -/
def Pending.next? (pending : Pending) (byte : UInt8) : Option (Sum Char Pending) :=
  let n := byte.toNat
  if pending.low ≤ n ∧ n ≤ pending.high then
    let value := pending.value * 0x40 + (n - 0x80)
    match pending.after with
    | 0 => some (.inl (Char.ofNat value))
    | after + 1 => some (.inr ⟨pending.bytes ++ [byte], value, after, 0x80, 0xBF⟩)
  else none

/-- How far bytes are decoded: the character that is pending, if one is, and the pieces before it,
the last one first. -/
structure Decoder where
  pending : Option Pending
  done : List Piece

namespace Decoder

def start : Decoder := ⟨none, []⟩

def begin (done : List Piece) (byte : UInt8) : Decoder :=
  match Utf8.begin byte with
  | .inl piece => ⟨none, piece :: done⟩
  | .inr pending => ⟨some pending, done⟩

def step (decoder : Decoder) (byte : UInt8) : Decoder :=
  match decoder.pending with
  | none => begin decoder.done byte
  | some pending =>
    match pending.next? byte with
    | some (.inl c) => ⟨none, .char c :: decoder.done⟩
    | some (.inr pending) => ⟨some pending, decoder.done⟩
    | none => begin (.fault ⟨.invalidContinuation, pending.bytes⟩ :: decoder.done) byte

def finish (decoder : Decoder) : List Piece :=
  match decoder.pending with
  | none => decoder.done.reverse
  | some pending => (.fault ⟨.unexpectedEnd, pending.bytes⟩ :: decoder.done).reverse

end Decoder

def decode (bytes : List UInt8) : List Piece := (bytes.foldl Decoder.step .start).finish

namespace Piece

def replaced : Piece → Char
  | .char c => c
  | .fault _ => '\ufffd'

def fault? : Piece → Option Fault
  | .char _ => none
  | .fault found => some found

def size : Piece → Nat
  | .char c => (encodeChar c).length
  | .fault found => found.bytes.length

end Piece

def decodeReplacing (bytes : List UInt8) : Text := (decode bytes).map Piece.replaced

structure DecodeError where
  fault : Fault
  position : Nat
deriving DecidableEq, Repr

def strictText (pieces : List Piece) : Except DecodeError Text :=
  match pieces.findSome? Piece.fault? with
  | none => .ok (pieces.map Piece.replaced)
  | some fault =>
    let before := pieces.takeWhile fun piece => piece.fault?.isNone
    .error ⟨fault, (before.map Piece.size).foldl (· + ·) 0⟩

def decodeStrict (bytes : List UInt8) : Except DecodeError Text := strictText (decode bytes)

/-- The text of bytes that arrive in chunks, behind a character that may be pending, up to the
first chunk that has a fault. Nothing of that chunk is read. -/
def readChunks (pending : Option Pending) : List (List UInt8) → Text × Option DecodeError
  | [] => ([], pending.map fun pending => ⟨⟨.unexpectedEnd, pending.bytes⟩, 0⟩)
  | chunk :: rest =>
    let decoder := chunk.foldl Decoder.step ⟨pending, []⟩
    match strictText decoder.done.reverse with
    | .error error => ([], some error)
    | .ok text =>
      let (more, fault) := readChunks decoder.pending rest
      (text ++ more, fault)

def FaultKind.message : FaultKind → Text
  | .invalidStart => "invalid start byte".toList
  | .invalidContinuation => "invalid continuation byte".toList
  | .unexpectedEnd => "unexpected end of data".toList

def DecodeError.message (error : DecodeError) : Text :=
  let place := match error.fault.bytes with
    | [byte] =>
      "byte 0x".toList ++ Text.hexDigits 2 byte.toNat ++ " in position ".toList ++
        Text.decimal error.position
    | bytes =>
      "bytes in position ".toList ++ Text.decimal error.position ++ '-' ::
        Text.decimal (error.position + bytes.length - 1)
  "'utf-8' codec can't decode ".toList ++ place ++ ": ".toList ++ error.fault.kind.message

end BuildLog.Utf8
