import BuildLog.Text.Numeral

/-! Texts as JSON writes them. Only the double quote, the backslash and the characters below
U+0020 are escaped; five of those have a letter of their own. -/
namespace BuildLog.Json

def escapeChar (c : Char) : Text :=
  if c = '"' then ['\\', '"']
  else if c = '\\' then ['\\', '\\']
  else if c = '\x08' then ['\\', 'b']
  else if c = '\x0c' then ['\\', 'f']
  else if c = '\n' then ['\\', 'n']
  else if c = '\r' then ['\\', 'r']
  else if c = '\t' then ['\\', 't']
  else if c.toNat < 0x20 then '\\' :: 'u' :: Text.hexDigits 4 c.toNat
  else [c]

def printText (text : Text) : Text := '"' :: text.flatMap escapeChar ++ ['"']

end BuildLog.Json
