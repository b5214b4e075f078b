import BuildLog.CommandLine.Help
import BuildLog.CommandLine.Outcome
import BuildLog.CommandLine.Switches
import BuildLog.Conversion

/-! The command that writes a database for a build log. A database that is in the way is removed
before the log is read. -/
namespace BuildLog.CommandLine

structure ConvertOptions where
  input : Text
  output : Text
  keepDriver : Bool
  verbose : Bool
deriving DecidableEq, Repr

namespace ConvertOptions

def switches : List Switch :=
  [⟨"input".toList, some 'i', true⟩, ⟨"output".toList, some 'o', true⟩,
   ⟨"keep-driver".toList, none, false⟩, ⟨"verbose".toList, some 'v', false⟩,
   ⟨"help".toList, none, false⟩]

def ofItems (default : ConvertOptions) (items : List Item) : ConvertOptions where
  input := (valueOf? items "input".toList).getD default.input
  output := (valueOf? items "output".toList).getD default.output
  keepDriver := default.keepDriver || isSet items "keep-driver".toList
  verbose := default.verbose || isSet items "verbose".toList

def remark (value : Text) : Text :=
  "  [default: ".toList ++ (if value = [] then "\"\"".toList else value) ++ [']']

def help (default : ConvertOptions) : HelpPage where
  usage := "xcodebuild-compdb convert [OPTIONS]".toList
  summary := "Write a compilation database for an xcodebuild transcript.".toList
  tables :=
    [{ title := "Options".toList
       rows :=
        [("-i, --input TEXT".toList,
          "xcodebuild log to read, - for stdin".toList ++ remark default.input),
         ("-o, --output TEXT".toList,
          "Database to write, - for stdout".toList ++ remark default.output),
         ("--keep-driver".toList,
          "Keep the compiler executable at the start of each command".toList),
         ("-v, --verbose".toList, []),
         ("--help".toList, "Show this message and exit.".toList)] }]

end ConvertOptions

variable [Console]

def progress (options : ConvertOptions) (records : List Record) : Text :=
  if options.verbose then
    records.flatMap fun record => echo ("[CompileC] ".toList ++ record.file)
  else []

/-- What is told about a conversion once it is complete, to the user and to the next program. -/
def report (options : ConvertOptions) (tally : Transcript.Tally) : Text × Text :=
  let truncated :=
    if tally.truncated then
      echo "Transcript ended inside a build step, last step skipped".toList
    else []
  let headers :=
    if options.verbose then
      echo ("Registered ".toList ++ Text.decimal tally.headers ++ " precompiled headers".toList)
    else []
  let written :=
    echo ("Wrote ".toList ++ Text.decimal tally.records ++ " records to ".toList ++ options.output)
  if options.output = standardStream then (truncated ++ headers ++ written, [])
  else (truncated ++ headers, written)

def ofConversion (options : ConvertOptions) (conversion : Conversion) : Outcome :=
  let told := progress options conversion.records
  match conversion.result with
  | .ok tally =>
    let (errors, output) := report options tally
    .unchanged conversion.machine 0 (conversion.output ++ output) (told ++ errors)
  | .error (.unresolved error) =>
    .unchanged conversion.machine 3 conversion.output (told ++ echo error.message)
  | .error (.unwritable error) =>
    { machine := conversion.machine, status := 1, output := conversion.output, errors := told,
      abort := some (.file error) }
  | .error (.undecodable error) =>
    { machine := conversion.machine, status := 1, output := conversion.output, errors := told,
      abort := some (.decoding error) }
  | .error error => .unchanged conversion.machine 1 conversion.output (told ++ echo error.message)

def clearOutput (machine : Machine) (output : Text) : Except Files.FileError Machine :=
  if output = standardStream then .ok machine
  else if machine.contains output then machine.removeFile output
  else .ok machine

def runConvert (machine : Machine) (options : ConvertOptions) : Outcome :=
  if options.input ≠ standardStream ∧ !machine.isFile options.input then
    .unchanged machine 1 []
      (echo ("Input file ".toList ++ options.input ++ " does not exist".toList))
  else
    match clearOutput machine options.output with
    | .error error =>
      { machine, status := 1, output := [], errors := [], abort := some (.file error) }
    | .ok machine =>
      ofConversion options (convert machine options.input options.output options.keepDriver)

end BuildLog.CommandLine
