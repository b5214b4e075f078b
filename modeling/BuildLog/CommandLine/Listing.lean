import BuildLog.CommandLine.Help
import BuildLog.CommandLine.Outcome
import BuildLog.CommandLine.Switches
import BuildLog.Json.Reader
import BuildLog.Path
import BuildLog.Text.Lines

/-! The command that prints the file and the command of each record in a database. Elements are
taken in order and the first one that cannot be printed ends the command; what was printed before
it stays. -/
namespace BuildLog.CommandLine

structure ListOptions where
  database : Text
  /-- The directory that files must lie in; an empty one is none. -/
  targetDirectory : Text
deriving DecidableEq, Repr

namespace ListOptions

def switches : List Switch :=
  [⟨"target-dir".toList, some 't', true⟩, ⟨"help".toList, none, false⟩]

def ofItems? (database : Text) (items : List Item) : Option ListOptions :=
  let targetDirectory := (valueOf? items "target-dir".toList).getD []
  match operands items with
  | [] => some { database, targetDirectory }
  | [database] => some { database, targetDirectory }
  | _ => none

def help : HelpPage where
  usage := "xcodebuild-compdb list [OPTIONS] [DATABASE]".toList
  summary := "Print file and command of every record in DATABASE.".toList
  tables :=
    [{ title := "Options".toList
       rows :=
        [("-t, --target-dir TEXT".toList, "Only show files below this directory".toList),
         ("--help".toList, "Show this message and exit.".toList)] }]

end ListOptions

inductive DatabaseError
  | encoding (error : Utf8.DecodeError)
  | format (text : Text) (error : Json.ReadError)

def DatabaseError.message : DatabaseError → Text
  | .encoding error => error.message
  | .format text error => error.message text

def readDatabase (bytes : List UInt8) : Except DatabaseError Json :=
  match Utf8.decodeStrict bytes with
  | .error error => .error (.encoding error)
  | .ok text =>
    let text := Text.unifyNewlines text
    (Json.read text).mapError (.format text)

/-- The elements of a document. A text holds its characters, an object the names of its members. -/
def elements : Json → Except Abort (List Json)
  | .array items => .ok items
  | .text value => .ok (value.map fun point => .text [point])
  | .object members => .ok (members.map fun member => .text member.1)
  | _ => .error .notCollection

def field (members : List (WideText × Json)) (name : Text) : Except Abort WideText :=
  match Json.lookup members name with
  | none => .ok []
  | some (.text value) => .ok value
  | some _ => .error .notText

/-- What a path is made of. A file that is named from the root is taken without its directory. -/
def pathParts (directory file : WideText) : WideText :=
  if file.head? = some (.char '/') then file else directory ++ file

def filePath (workingPath : Text) (directory file : WideText) : Except Abort Text :=
  if (pathParts directory file).all CodePoint.isNameable then
    .ok (Path.absolute workingPath
      (Path.resolve (directory.map CodePoint.inPath) (file.map CodePoint.inPath)))
  else .error .path

structure Filter where
  workingPath : Text
  /-- The normalized absolute path of the directory that files must lie in. -/
  target : Option Text

def Filter.ofOptions (workingPath : Text) (options : ListOptions) : Filter where
  workingPath := workingPath
  target :=
    if options.targetDirectory = [] then none
    else some (Path.absolute workingPath options.targetDirectory)

/-- Whether a record passes. Without a target its directory does not matter. -/
def Filter.accepts (filter : Filter) (members : List (WideText × Json)) : Except Abort Bool :=
  match filter.target with
  | none => .ok true
  | some target => do
    let file ← field members "file".toList
    let directory ← field members "directory".toList
    return Path.isUnder target (← filePath filter.workingPath directory file)

def printable (line : WideText) : Except Abort Text :=
  match line.narrow? with
  | some text => .ok text
  | none => .error .encoding

variable [Console]

/-- The line of an element, if it is shown. The command of a record that is not shown does not
matter. -/
def elementLine (filter : Filter) : Json → Except Abort (Option Text)
  | .object members => do
    if ← filter.accepts members then
      let file ← field members "file".toList
      let command ← field members "command".toList
      let line ← printable (file ++ .char '\t' :: command)
      return some (echo line)
    else return none
  | _ => .error .notObject

def listElements (filter : Filter) : List Json → Text × Option Abort
  | [] => ([], none)
  | element :: rest =>
    match elementLine filter element with
    | .error abort => ([], some abort)
    | .ok line =>
      let (lines, abort) := listElements filter rest
      (line.getD [] ++ lines, abort)

def runList (machine : Machine) (options : ListOptions) : Outcome :=
  match machine.openFile options.database with
  | .error _ => .usage machine
  | .ok location =>
    match readDatabase (machine.tree.contentAt location) with
    | .error error =>
      .unchanged machine 1 []
        (echo ("Error: ".toList ++ options.database ++ " is not a JSON database: ".toList ++
          error.message))
    | .ok document =>
      let filter := Filter.ofOptions machine.workingPath options
      let (output, abort) := match elements document with
        | .error abort => ([], some abort)
        | .ok elements => listElements filter elements
      { machine, status := if abort.isSome then 1 else 0, output, errors := [], abort }

end BuildLog.CommandLine
