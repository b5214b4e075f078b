import BuildLog.Text.Basic

/-! Texts that come from escapes may hold one half of a surrogate pair without the other. Such a
half is no character and has no bytes. -/
namespace BuildLog

inductive CodePoint
  | char (c : Char)
  | half (offset : Fin 0x800)
deriving DecidableEq, Repr

abbrev WideText := List CodePoint

def CodePoint.ofNat (code : Nat) : CodePoint :=
  if h : 0xD800 ≤ code ∧ code < 0xE000 then .half ⟨code - 0xD800, by omega⟩
  else .char (Char.ofNat code)

/-- Whether a code point can stand in a path. The halves from U+DC80 on stand there for bytes that
belong to no character; the null character ends a path. -/
def CodePoint.isNameable : CodePoint → Bool
  | .char c => c ≠ '\x00'
  | .half offset => 0x480 ≤ offset.val && offset.val < 0x500

/-- A code point of a path that is compared with one from the command line. That has neither null
characters nor halves, so one may stand for the other. -/
def CodePoint.inPath : CodePoint → Char
  | .char c => c
  | .half _ => '\x00'

def Text.widen (text : Text) : WideText := text.map .char

def WideText.narrow? : WideText → Option Text
  | [] => some []
  | .char c :: rest => (narrow? rest).map (c :: ·)
  | .half _ :: _ => none

end BuildLog
