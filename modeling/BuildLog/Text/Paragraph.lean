import BuildLog.Text.Lines
import BuildLog.Text.Wrap

/-! Laying out a text in paragraphs, which empty lines separate. The indent of its first line goes
for all of a paragraph. Words are filled into lines again, except in a paragraph that starts with
a backspace on a line of its own: its lines stay as they are. -/
namespace BuildLog.Text

def tabStop : Nat := 8

/-- A text with spaces up to the next tab stop in place of each tab, from a column on. -/
def expandTabs (column : Nat) : Text → Text
  | [] => []
  | c :: rest =>
    if c = '\t' then
      let gap := tabStop - column % tabStop
      spaces gap ++ expandTabs (column + gap) rest
    else if c = '\n' ∨ c = '\r' then c :: expandTabs 0 rest
    else c :: expandTabs (column + 1) rest

def paragraphLines (width : Nat) : List Text → List Text
  | [] => []
  | first :: more =>
    let unindented := first.dropWhile isBlank
    let indent := first.length - unindented.length
    if strip first = ['\x08'] then more.map fun line => spaces indent ++ line
    else wrap width indent (join [' '] (unindented :: more))

def layOut (width : Nat) (text : Text) : List Text :=
  let paragraphs := ((cut (expandTabs 0 text)).splitOn []).filter (· ≠ [])
  cut (join ['\n', '\n'] (paragraphs.map fun lines => join ['\n'] (paragraphLines width lines)))

end BuildLog.Text
