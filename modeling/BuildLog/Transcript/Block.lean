import BuildLog.Command.Line

/-! A block of a build log starts with a line that names its kind, goes on with the line that
changes the directory, and reaches its invocation some lines later. -/
namespace BuildLog.Transcript

inductive BlockKind
  | compile
  | precompile
deriving DecidableEq, Repr

def BlockKind.marker : BlockKind → Text
  | .compile => "CompileC".toList
  | .precompile => "ProcessPCH".toList

/-- The kind of the block that a line starts; compilation comes first in a line that says both. -/
def BlockKind.ofLine? (line : Text) : Option BlockKind :=
  if Text.has BlockKind.compile.marker line then some .compile
  else if Text.has BlockKind.precompile.marker line then some .precompile
  else none

/-- The directory that a line changes to; empty if it changes to none. -/
def changedDirectory (line : Text) : Text :=
  match Command.arguments line with
  | command :: directory :: _ => if command = "cd".toList then directory else []
  | _ => []

structure Block where
  kind : BlockKind
  directory : Text
deriving DecidableEq, Repr

end BuildLog.Transcript
