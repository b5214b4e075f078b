import BuildLog.Command.Driver
import BuildLog.Command.Quoting
import BuildLog.Header.Registry
import BuildLog.Record

/-! The invocation of a compiler, taken apart into its operands and put together again as a
record. An included header that is neither present nor known as a precompiled one is an error. -/
namespace BuildLog

structure Setting where
  present : Text → Bool
  keepDriver : Bool

structure UnresolvedHeader where
  path : Text
deriving DecidableEq, Repr

def UnresolvedHeader.message (error : UnresolvedHeader) : Text :=
  "Can not find original pch source file for ".toList ++ error.path

def includedHeader (setting : Setting) (registry : Header.Registry) (path : Text) :
    Except UnresolvedHeader Text :=
  if setting.present path then .ok path
  else match registry.resolve path with
    | some source => .ok source
    | none => .error ⟨path⟩

inductive Operand
  | header (path : Text)
  | source (path : Text)
  | other (argument : Text)
deriving DecidableEq, Repr

namespace Operand

def includeFlag : Text := "-include".toList

def sourceFlag : Text := "-c".toList

/-- Pairs each flag with the argument after it, whatever that is. A flag at the very end is left
out. -/
def ofArguments : List Text → List Operand
  | [] => []
  | [last] => if last = includeFlag ∨ last = sourceFlag then [] else [.other last]
  | argument :: next :: rest =>
    if argument = includeFlag then .header next :: ofArguments rest
    else if argument = sourceFlag then .source next :: ofArguments rest
    else .other argument :: ofArguments (next :: rest)

def arguments : Operand → List Text
  | .header path => [includeFlag, path]
  | .source path => [sourceFlag, path]
  | .other argument => [argument]

def source? : Operand → Option Text
  | .source path => some path
  | _ => none

def header? : Operand → Option Text
  | .header path => some path
  | _ => none

def resolve (setting : Setting) (registry : Header.Registry) :
    Operand → Except UnresolvedHeader Operand
  | .header path => (includedHeader setting registry path).map .header
  | .source path => .ok (.source path)
  | .other argument => .ok (.other argument)

end Operand

namespace Invocation

def keptArguments (setting : Setting) (line : Text) : List Text :=
  match Command.arguments line with
  | [] => []
  | first :: rest =>
    if !setting.keepDriver && Command.isDriver first then rest else first :: rest

def recordOf (directory : Text) (operands : List Operand) : Record where
  directory := directory
  file := Path.normalize ((operands.filterMap Operand.source?).getLast?.getD [])
  command := Command.render (operands.flatMap Operand.arguments)

/-- The record of an invocation that is run in a directory. The leftmost included path that stands
for nothing is the one reported. -/
def record (setting : Setting) (registry : Header.Registry) (directory line : Text) :
    Except UnresolvedHeader Record :=
  ((Operand.ofArguments (keptArguments setting line)).mapM
    (Operand.resolve setting registry)).map (recordOf directory)

def includedPaths (line : Text) : List Text :=
  (Operand.ofArguments (Command.arguments line)).filterMap Operand.header?

end Invocation
end BuildLog
