import BuildLog.Text.Basic

/-! Blank characters: the white space of Unicode together with the four information
separators U+001C to U+001F. Stripping removes them from both ends of a text. -/
namespace BuildLog.Text

def blankRanges : List (Nat × Nat) :=
  [(0x09, 0x0D), (0x1C, 0x20), (0x85, 0x85), (0xA0, 0xA0), (0x1680, 0x1680),
   (0x2000, 0x200A), (0x2028, 0x2029), (0x202F, 0x202F), (0x205F, 0x205F), (0x3000, 0x3000)]

def isBlank (c : Char) : Bool := isWithin blankRanges c

def strip (text : Text) : Text := dropTrailing isBlank (text.dropWhile isBlank)

@[simp] theorem strip_nil : strip [] = [] := rfl

@[simp] theorem isBlank_space : isBlank ' ' = true := by decide

end BuildLog.Text
