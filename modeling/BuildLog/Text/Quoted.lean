import BuildLog.Text.Numeral
import BuildLog.Text.Printable

/-! A text between quotes as a message of the file system shows it, with an escape for each
character that would not show as itself. -/
namespace BuildLog.Text

def quotedChar (mark c : Char) : Text :=
  if c = mark ∨ c = '\\' then ['\\', c]
  else if c = '\n' then ['\\', 'n']
  else if c = '\r' then ['\\', 'r']
  else if c = '\t' then ['\\', 't']
  else if isPrintable c then [c]
  else if c.toNat < 0x100 then '\\' :: 'x' :: hexDigits 2 c.toNat
  else if c.toNat < 0x10000 then '\\' :: 'u' :: hexDigits 4 c.toNat
  else '\\' :: 'U' :: hexDigits 8 c.toNat

/-- A text between single quotes; between double ones if it holds a single quote and no double
one. -/
def quoted (text : Text) : Text :=
  let mark := if '\'' ∈ text ∧ '"' ∉ text then '"' else '\''
  mark :: text.flatMap (quotedChar mark) ++ [mark]

end BuildLog.Text
