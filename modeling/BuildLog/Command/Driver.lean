import BuildLog.Path

/-! Compiler drivers, and the lines of a build log that run one. A line is an invocation if,
between two line feeds, a driver's name comes first, then ` -c `, then ` -o `. Each is looked for
from where the one before it was found first, for no later choice leaves more text to search. -/
namespace BuildLog.Command

def driverNames : List Text :=
  ["clang", "clang++",
   "llvm-cpp-4.2", "llvm-g++", "llvm-g++-4.2", "llvm-gcc", "llvm-gcc-4.2",
   "arm-apple-darwin10-llvm-g++-4.2", "arm-apple-darwin10-llvm-gcc-4.2",
   "i686-apple-darwin10-llvm-g++-4.2", "i686-apple-darwin10-llvm-gcc-4.2",
   "gcc", "g++", "c++", "cc"].map String.toList

def isDriver (argument : Text) : Bool := driverNames.contains (Path.baseName argument)

def driverTail? (text : Text) : Option Text :=
  driverNames.findSome? fun name =>
    match name.isPrefixOf? text with
    | some (' ' :: rest) => some (' ' :: rest)
    | _ => none

/-- The text from the space after the earliest driver's name that a space follows. The name may
be the end of a longer word. -/
def afterDriver? : Text → Option Text
  | [] => none
  | c :: rest =>
    match driverTail? (c :: rest) with
    | some tail => some tail
    | none => afterDriver? rest

/-- Whether a text without line feeds holds an invocation. The space after the driver's name may
be the one before `-c`, but the one after `-c` is not the one before `-o`. -/
def runsDriver (segment : Text) : Bool :=
  match afterDriver? segment with
  | none => false
  | some tail =>
    match Text.after? " -c ".toList tail with
    | none => false
    | some operands => Text.has " -o ".toList operands

def isInvocation (line : Text) : Bool := (line.splitOn '\n').any runsDriver

end BuildLog.Command
