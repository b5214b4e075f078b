import BuildLog.Text.Blank

/-! The arguments of a command line as a build log prints it. The only escape that a log relies
on is a backslash before a space; quotes and all other backslashes stand for themselves. A line
without any of these characters keeps an empty argument for each doubled space inside it. -/
namespace BuildLog.Command

/-- Stands for an escaped space while a line is cut at its other spaces. It is a private-use
character, which a build log does not print; one that does occur is read as a space. -/
def spaceMark : Char := '\ue000'

def isQuoting (c : Char) : Bool := c == '\'' || c == '"' || c == '\\'

def markSpaces : Text → Text
  | [] => []
  | '\\' :: ' ' :: rest => spaceMark :: markSpaces rest
  | c :: rest => c :: markSpaces rest

def unmarkSpaces (text : Text) : Text := text.map fun c => if c = spaceMark then ' ' else c

/-- The arguments of a line with escapes: pieces between plain spaces, the empty ones left out,
and the others stripped of blanks, which may leave one empty. -/
def escapedArguments (line : Text) : List Text :=
  (((markSpaces line).splitOn ' ').filter (· ≠ [])).map fun piece =>
    Text.strip (unmarkSpaces piece)

def plainArguments (line : Text) : List Text :=
  let body := Text.strip line
  if body = [] then [] else (body.splitOn ' ').map Text.strip

def arguments (line : Text) : List Text :=
  if line.any isQuoting then escapedArguments line else plainArguments line

@[simp] theorem arguments_nil : arguments [] = [] := rfl

end BuildLog.Command
