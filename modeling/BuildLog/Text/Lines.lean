import BuildLog.Text.Basic

/-! Two notions of a line. A file that is read has lines that end at U+000A, after carriage
returns have been turned into it. A text that is laid out is cut at every character that
Unicode calls a mandatory break. -/
namespace BuildLog.Text

structure NewlineReader where
  afterReturn : Bool
  done : Text

/-- Takes the next character. The line feed after a carriage return has been counted with it. -/
def NewlineReader.step (reader : NewlineReader) (c : Char) : NewlineReader :=
  if c = '\r' then ⟨true, '\n' :: reader.done⟩
  else if c = '\n' ∧ reader.afterReturn then ⟨false, reader.done⟩
  else ⟨false, c :: reader.done⟩

def unifyNewlines (text : Text) : Text :=
  (text.foldl NewlineReader.step ⟨false, []⟩).done.reverse

/-- The lines of a text, each without its line feed; there is none after the last line feed. -/
def lines (text : Text) : List Text :=
  let pieces := text.splitOn '\n'
  if pieces.getLast? = some [] then pieces.dropLast else pieces

def completeLines (text : Text) : List Text := (text.splitOn '\n').dropLast

def trimLineEnd (line : Text) : Text := dropTrailing (fun c => c == '\r' || c == '\n') line

def isBreak (c : Char) : Bool :=
  let code := c.toNat
  (0x0A ≤ code && code ≤ 0x0D) || (0x1C ≤ code && code ≤ 0x1E) || code == 0x85 ||
    code == 0x2028 || code == 0x2029

/-- The pieces between breaks; a carriage return and the line feed after it are one break, and
a break at the very end opens no piece. -/
def cut : Text → List Text
  | [] => []
  | '\r' :: '\n' :: rest => [] :: cut rest
  | c :: rest =>
    if isBreak c then [] :: cut rest
    else match cut rest with
      | [] => [[c]]
      | piece :: pieces => (c :: piece) :: pieces

end BuildLog.Text
