import BuildLog.Command.Line

/-! Command strings as a compilation database holds them. An argument with a space, a double
quote or a backslash is put between double quotes, where a backslash makes the next character
literal; the empty argument is a pair of quotes. `read` takes such a string apart again. -/
namespace BuildLog.Command

def needsQuotes (c : Char) : Bool := c == ' ' || c == '"' || c == '\\'

def escape : Text → Text
  | [] => []
  | c :: rest => if c = '"' ∨ c = '\\' then '\\' :: c :: escape rest else c :: escape rest

def quote (argument : Text) : Text :=
  if argument = [] ∨ argument.any needsQuotes then '"' :: escape argument ++ ['"']
  else argument

def render (arguments : List Text) : Text := Text.join [' '] (arguments.map quote)

/-- Where a reader of command strings stands: between two arguments, in an argument outside of
quotes, or in one between quotes. The characters read so far come last first. -/
inductive Reading
  | between
  | bare (sofar : Text)
  | quoted (sofar : Text)

def Reading.finish : Reading → Text → List Text
  | .between, [] => []
  | .bare sofar, [] => [sofar.reverse]
  | .quoted sofar, [] => [sofar.reverse]
  | .quoted sofar, '\\' :: c :: rest => finish (.quoted (c :: sofar)) rest
  | .quoted sofar, c :: rest =>
    if c = '"' then finish (.bare sofar) rest else finish (.quoted (c :: sofar)) rest
  | .between, c :: rest =>
    if c = ' ' then finish .between rest
    else if c = '"' then finish (.quoted []) rest
    else finish (.bare [c]) rest
  | .bare sofar, c :: rest =>
    if c = ' ' then sofar.reverse :: finish .between rest
    else if c = '"' then finish (.quoted sofar) rest
    else finish (.bare (c :: sofar)) rest

def read (command : Text) : List Text := Reading.between.finish command

def requote (line : Text) : Text := render (arguments line)

@[simp] theorem quote_nil : quote [] = "\"\"".toList := rfl

@[simp] theorem render_nil : render [] = [] := rfl

@[simp] theorem read_nil : read [] = [] := rfl

end BuildLog.Command
