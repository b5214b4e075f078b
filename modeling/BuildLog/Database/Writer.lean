import BuildLog.Json.Printer
import BuildLog.Record
import BuildLog.Text.Lines

/-! A compilation database is written as one JSON array, record by record. Each operation gives
the text that it adds, so that what is written is the concatenation of what the operations give. -/
namespace BuildLog.Database

inductive Field
  | directory
  | file
  | command
deriving DecidableEq, Repr

def Field.name : Field → Text
  | .directory => "directory".toList
  | .file => "file".toList
  | .command => "command".toList

def Field.missing (field : Field) : Text := '\'' :: field.name ++ ['\'']

structure Draft where
  directory : Option Text
  file : Option Text
  command : Option Text
deriving DecidableEq, Repr

/-- The record of a complete draft; otherwise the first field that it lacks. -/
def Draft.complete (draft : Draft) : Except Field Record := do
  let directory ← draft.directory.elim (.error .directory) .ok
  let file ← draft.file.elim (.error .file) .ok
  let command ← draft.command.elim (.error .command) .ok
  return { directory, file, command }

def printMember (field : Field) (value : Text) : Text :=
  "\n  ".toList ++ Json.printText field.name ++ ": ".toList ++ Json.printText value

def printRecord (record : Record) : Text :=
  '\x7b' :: printMember .directory record.directory ++ ',' :: printMember .file record.file ++
    ',' :: printMember .command record.command ++ "\n\x7d".toList

def indent (text : Text) : Text :=
  Text.join ['\n'] ((Text.cut text).map fun line => ' ' :: ' ' :: line)

structure Writer where
  count : Nat
  closed : Bool
deriving DecidableEq, Repr

namespace Writer

def start : Writer := ⟨0, false⟩

def opening : Text := ['[']

def closing : Text := "\n]\n".toList

def append (writer : Writer) (record : Record) : Writer × Text :=
  ({ writer with count := writer.count + 1 },
   (if writer.count = 0 then [] else [',']) ++ '\n' :: indent (printRecord record))

def close (writer : Writer) : Writer × Text :=
  if writer.closed then (writer, []) else ({ writer with closed := true }, closing)

def appendAll (writer : Writer) : List Record → Writer × Text
  | [] => (writer, [])
  | record :: rest =>
    let (next, text) := writer.append record
    let (last, more) := next.appendAll rest
    (last, text ++ more)

end Writer

def print (records : List Record) : Text :=
  let (writer, text) := Writer.start.appendAll records
  Writer.opening ++ text ++ writer.close.2

end BuildLog.Database
