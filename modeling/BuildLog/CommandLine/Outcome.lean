import BuildLog.Console
import BuildLog.Machine
import BuildLog.Text.Utf8

/-! What a command leaves behind: files, what it wrote to its two streams, and a status. -/
namespace BuildLog.CommandLine

/-- A failure that a command has no words for. -/
inductive Abort
  | file (error : Files.FileError)
  /-- The standard input is no text. -/
  | decoding (error : Utf8.DecodeError)
  /-- A line to be printed holds half of a surrogate pair. -/
  | encoding
  /-- The path of a record is none that the system takes. -/
  | path
  /-- A database is neither an array nor anything else that holds elements. -/
  | notCollection
  /-- An element of a database is no object. -/
  | notObject
  /-- A field of a record is no text. -/
  | notText
deriving DecidableEq, Repr

def Abort.message : Abort → Text
  | .file error => error.message
  | .decoding error => error.message
  | .encoding => "A line holds half of a surrogate pair".toList
  | .path => "A path of a record is no path".toList
  | .notCollection => "The database holds no elements".toList
  | .notObject => "An element of the database is no object".toList
  | .notText => "A field of a record is no text".toList

structure Outcome where
  machine : Machine
  status : Nat
  output : Text
  errors : Text
  abort : Option Abort

namespace Outcome

def unchanged (machine : Machine) (status : Nat) (output errors : Text) : Outcome :=
  { machine, status, output, errors, abort := none }

def usageStatus : Nat := 2

def usage [Console] (machine : Machine) : Outcome :=
  unchanged machine usageStatus []
    (echo "The command line is not understood; --help shows what is.".toList)

end Outcome
end BuildLog.CommandLine
