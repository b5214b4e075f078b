import BuildLog.CommandLine.Convert
import BuildLog.CommandLine.Listing

/-! The program: it finds the command on its command line and runs it. Help is given before
anything is done, but only for a command line that is understood. -/
namespace BuildLog.CommandLine

/-- The files that are meant where the command line names none. -/
structure Defaults where
  input : Text
  output : Text
deriving DecidableEq, Repr

def Defaults.ofEnvironment (input output : Option Text) : Defaults where
  input := input.getD "xcodebuild.log".toList
  output := output.getD "compile_commands.json".toList

def inputVariable : String := "XCODE_COMPDB_INPUT"
def outputVariable : String := "XCODE_COMPDB_OUTPUT"

inductive Request
  | help (page : HelpPage)
  | convert (options : ConvertOptions)
  | list (options : ListOptions)
  | misunderstood

def helpSwitch : Switch := ⟨"help".toList, none, false⟩

def programHelp : HelpPage where
  usage := "xcodebuild-compdb [OPTIONS] COMMAND [ARGS]...".toList
  summary := []
  tables :=
    [{ title := "Options".toList
       rows := [("--help".toList, "Show this message and exit.".toList)] },
     { title := "Commands".toList
       rows :=
        [("convert".toList, "Write a compilation database for an xcodebuild transcript.".toList),
         ("list".toList, "Print file and command of every record in DATABASE.".toList)] }]

namespace Request

def ofConvertArguments (defaults : Defaults) (arguments : List Text) : Request :=
  let options : ConvertOptions := ⟨defaults.input, defaults.output, false, false⟩
  match readItems ConvertOptions.switches false arguments with
  | none => .misunderstood
  | some items =>
    if isSet items "help".toList then .help options.help
    else if operands items = [] then .convert (options.ofItems items)
    else .misunderstood

def ofListArguments (defaults : Defaults) (arguments : List Text) : Request :=
  match readItems ListOptions.switches false arguments with
  | none => .misunderstood
  | some items =>
    if isSet items "help".toList then .help ListOptions.help
    else match ListOptions.ofItems? defaults.output items with
      | some options => .list options
      | none => .misunderstood

def asksForHelp (arguments : List Text) : Bool :=
  match readItems [helpSwitch] true arguments with
  | none => false
  | some items => isSet items helpSwitch.name

def ofArguments (defaults : Defaults) (arguments : List Text) : Request :=
  match readItems [helpSwitch] true arguments with
  | none => .misunderstood
  | some items =>
    if isSet items helpSwitch.name then .help programHelp
    else match operands items with
      | [] => .misunderstood
      | name :: rest =>
        if name = "convert".toList then ofConvertArguments defaults rest
        else if name = "list".toList then ofListArguments defaults rest
        else if asksForHelp (name :: rest) then .help programHelp
        else .misunderstood

end Request

variable [Console]

def Request.run (machine : Machine) : Request → Outcome
  | .help page => .unchanged machine 0 (echo page.text) []
  | .convert options => runConvert machine options
  | .list options => runList machine options
  | .misunderstood => .usage machine

def run (machine : Machine) (defaults : Defaults) (arguments : List Text) : Outcome :=
  (Request.ofArguments defaults arguments).run machine

end BuildLog.CommandLine
