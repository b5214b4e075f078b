import BuildLog.Text.Blank
import BuildLog.Text.Letter
import BuildLog.Text.Terminal

/-! Filling lines with words. A line may end between words, after a hyphen inside of one and on
either side of a dash; a word longer than a line is broken where the line is full. What counts is
the room that a text takes on the screen. -/
namespace BuildLog.Text

def endsWord (c : Char) : Bool := isWordChar c || "!\"'&.,?".toList.contains c

def isHyphenSide : Text → Bool
  | a :: b :: c :: _ => isLetter a && (isLetter b || (b == '-' && isLetter c))
  | [a, b] => isLetter a && isLetter b
  | _ => false

def startsWithDash (test : Char → Bool) (text : Text) : Bool :=
  2 ≤ (text.takeWhile (· == '-')).length && (text.dropWhile (· == '-')).head?.any test

/-- Whether a line may end at a place inside of a word, told by the text before it, last character
first, and the text behind it: after the hyphen of a compound, and on either side of a dash. -/
def isBreakable (before behind : Text) : Bool :=
  (before.head? == some '-' && isHyphenSide before.tail && isHyphenSide behind) ||
    (startsWithDash isWordChar behind && before.head?.any endsWord) ||
    (startsWithDash endsWord before && behind.head?.any isWordChar)

def unbreakable (before part : Text) : Text → List Text
  | [] => if part = [] then [] else [part.reverse]
  | c :: rest =>
    if isBreakable (c :: before) rest then
      (c :: part).reverse :: unbreakable (c :: before) [] rest
    else unbreakable (c :: before) (c :: part) rest

/-- The parts of a text between which a line may end: runs of spaces, and parts of words. -/
def fillParts (text : Text) : List Text :=
  (text.splitBy fun a b => (a == ' ') == (b == ' ')).flatMap fun run =>
    if run.head? = some ' ' then [run] else unbreakable [] [] run

def isBlankPart (part : List Glyph) : Bool := (part.flatMap Glyph.text).all isBlank

/-- Lines that are being filled. Complete lines, and the parts of the line in progress, come last
one first. A line is fresh until a part has been put on it or left out. -/
structure Filling where
  complete : List Text
  line : List (List Glyph)
  fresh : Bool

namespace Filling

def start : Filling := ⟨[], [], true⟩

def close (filling : Filling) : Filling :=
  let parts := if filling.line.head?.any isBlankPart then filling.line.tail else filling.line
  if parts.isEmpty then ⟨filling.complete, [], true⟩
  else ⟨parts.reverse.flatten.flatMap Glyph.text :: filling.complete, [], true⟩

def leavesOut (filling : Filling) (part : List Glyph) : Bool :=
  filling.fresh && !filling.complete.isEmpty && isBlankPart part

def put (filling : Filling) (part : List Glyph) : Filling :=
  if filling.leavesOut part then { filling with fresh := false }
  else { filling with line := part :: filling.line, fresh := false }

def used (filling : Filling) : Nat := Glyph.width filling.line.flatten

/-- Puts a part where it fits, with some room kept at the start of every line. A part that is
wider than a line is broken where the line in progress is full; each line takes some of it. -/
def place (width kept : Nat) (filling : Filling) (part : List Glyph) : Filling :=
  let demand := kept + Glyph.width part
  if h : part = [] ∨ filling.leavesOut part ∨ filling.used + demand ≤ width then filling.put part
  else if demand ≤ width then filling.close.put part
  else
    let room := max (width - kept - filling.used) 1
    let pieces := Glyph.splitWidth room part
    have : pieces.2.length < part.length :=
      Glyph.length_splitWidth (by omega) fun none => h (.inl none)
    place width kept ({ filling with line := pieces.1 :: filling.line }.close) pieces.2
termination_by part.length

end Filling

def wrap (width indent : Nat) (text : Text) : List Text :=
  let parts := (fillParts text).map glyphs
  let filling := parts.foldl (Filling.place width indent) .start
  filling.close.complete.reverse.map fun line => spaces indent ++ line

end BuildLog.Text
