import BuildLog.Database.Writer
import BuildLog.Machine
import BuildLog.Transcript.Scanner

/-! The conversion of a build log into a compilation database. The log is opened before the
database is made, and read after it; a conversion that fails half-way leaves a whole database of
the records it has made. -/
namespace BuildLog

def standardStream : Text := ['-']

inductive ConversionError
  | unreadable (error : Files.FileError)
  | unwritable (error : Files.FileError)
  | undecodable (error : Utf8.DecodeError)
  | unresolved (error : UnresolvedHeader)
deriving DecidableEq, Repr

def ConversionError.message : ConversionError → Text
  | .unreadable error =>
    "Can not open input file ".toList ++ error.path ++ ": ".toList ++ error.message
  | .unwritable error => error.message
  | .undecodable error => error.message
  | .unresolved error => error.message

structure Conversion where
  machine : Machine
  output : Text
  records : List Record
  result : Except ConversionError Transcript.Tally

namespace Conversion

inductive Source
  | input
  | file (location : Files.Location)
deriving DecidableEq, Repr

def Source.ofPath (machine : Machine) (path : Text) : Except ConversionError Source :=
  if path = standardStream then .ok .input
  else (machine.openFile path).map .file |>.mapError .unreadable

/-- The lines of a build log, as far as they can be read, and what ends them before their time. -/
structure Log where
  lines : List Text
  fault : Option Utf8.DecodeError
deriving DecidableEq, Repr

/-- The log in bytes that arrive in chunks. Only a line feed ends a line of it, and a line that a
fault leaves incomplete is lost. -/
def Log.ofChunks (chunks : List (List UInt8)) : Log :=
  let (text, fault) := Utf8.readChunks none chunks
  { lines := if fault.isSome then Text.completeLines text else Text.lines text, fault }

def Log.ofContent (content : List UInt8) : Log where
  lines := Text.lines (Text.unifyNewlines (Utf8.decodeReplacing content))
  fault := none

def Source.read (machine : Machine) : Source → Log
  | .input => .ofChunks machine.input
  | .file location => .ofContent (machine.tree.contentAt location)

inductive Target
  | output
  | file (location : Files.Location)
deriving DecidableEq, Repr

def Target.ofPath (machine : Machine) (path : Text) : Except ConversionError (Machine × Target) :=
  if path = standardStream then .ok (machine, .output)
  else ((machine.createFile path).map fun (machine, location) =>
    (machine, .file location)).mapError .unwritable

/-- The pass over a build log on a machine. A log that ends in a fault does not end the pass. -/
def scan (machine : Machine) (keepDriver : Bool) (log : Log) : Transcript.Run :=
  let setting : Setting := { present := machine.contains, keepDriver }
  if log.fault.isNone then (Transcript.Scanner.start .empty).scan setting log.lines
  else (Transcript.Scanner.start .empty).feedAll setting (log.lines.map Text.trimLineEnd)

def resultOf (run : Transcript.Run) (fault : Option Utf8.DecodeError) :
    Except ConversionError Transcript.Tally :=
  match run.failure, fault with
  | some error, _ => .error (.unresolved error)
  | none, some error => .error (.undecodable error)
  | none, none => .ok run.scanner.tally

def ofRun (machine : Machine) (target : Target) (fault : Option Utf8.DecodeError)
    (run : Transcript.Run) : Conversion :=
  let document := Database.print run.records
  let result := resultOf run fault
  match target with
  | .output => { machine, output := document, records := run.records, result }
  | .file location =>
    { machine := machine.write location (Utf8.encode document), output := [],
      records := run.records, result }

def failed (machine : Machine) (error : ConversionError) : Conversion :=
  { machine, output := [], records := [], result := .error error }

end Conversion

def convert (machine : Machine) (input output : Text) (keepDriver : Bool) : Conversion :=
  match Conversion.Source.ofPath machine input with
  | .error error => Conversion.failed machine error
  | .ok source =>
    match Conversion.Target.ofPath machine output with
    | .error error => Conversion.failed machine error
    | .ok (machine, target) =>
      let log := source.read machine
      Conversion.ofRun machine target log.fault (Conversion.scan machine keepDriver log)

end BuildLog
