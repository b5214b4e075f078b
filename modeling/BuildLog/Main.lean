import BuildLog.CommandLine.Program

/-! The program on a real machine. It loads the part of the file system that a request can look
at, runs the request, and carries out what the outcome says. -/
namespace BuildLog

def refuse (machine : Machine) (access : Files.Access) (location : Files.Location) : Machine :=
  { machine with
    refusal? := fun other place =>
      if other = access ∧ place = location then some .denied else machine.refusal? other place }

/-- Puts what the disk has at a location into the tree of a machine. The content of a file is read
on request. -/
def look (withContent : Bool) (machine : Machine) (location : Files.Location) : IO Machine := do
  let tree := machine.tree
  if (tree.get? location).isSome then return machine
  let place := (← IO.currentDir) / String.ofList location.path
  if ← place.isDir then return { machine with tree := tree.insert location .directory }
  if !(← place.pathExists) then return machine
  if !withContent then return machine.write location []
  try
    return machine.write location (← IO.FS.readBinFile place).toList
  catch _ =>
    return refuse (machine.write location []) .read location

def visit (withContent : Bool) (machine : Machine) (path : Text) : IO Machine :=
  let start := Files.Tree.origin machine.workingDirectory path
  (Files.Tree.waypoints start (path.splitOn '/')).foldlM (look withContent) machine

partial def readAll (stream : IO.FS.Stream) (arrived : List (List UInt8)) :
    IO (List (List UInt8)) := do
  let chunk ← stream.read 65536
  if chunk.isEmpty then return arrived.reverse else readAll stream (chunk.toList :: arrived)

def load (request : CommandLine.Request) : IO Machine := do
  let workingDirectory := Path.components (← IO.currentDir).toString.toList
  let machine ← visit false (.permissive ⟨[]⟩ [] []) (Files.Location.path workingDirectory)
  let machine := { machine with workingDirectory }
  match request with
  | .list options => visit true machine options.database
  | .convert options =>
    let input ←
      if options.input = standardStream then readAll (← IO.getStdin) [] else pure []
    let machine ← visit true { machine with input } options.input
    let lines := match Conversion.Source.ofPath machine options.input with
      | .ok source => (source.read machine).lines
      | .error _ => []
    (options.output :: lines.flatMap Invocation.includedPaths).foldlM (visit false) machine
  | _ => return machine

def store (before after : Files.Tree) : IO Unit := do
  for (location, _) in before.entries do
    if (after.get? location).isNone then IO.FS.removeFile (String.ofList location.path)
  for (location, node) in after.entries do
    if before.get? location ≠ some node then
      match node with
      | .directory => pure ()
      | .file content =>
        IO.FS.writeBinFile (String.ofList location.path) (ByteArray.mk content.toArray)

def put (stream : IO.FS.Stream) (text : Text) : IO Unit := do
  stream.write (ByteArray.mk (Utf8.encode text).toArray)
  stream.flush

def begin [Console] (arguments : List String) : IO UInt32 := do
  let setting (name : String) : IO (Option Text) := return (← IO.getEnv name).map String.toList
  let defaults := CommandLine.Defaults.ofEnvironment
    (← setting CommandLine.inputVariable) (← setting CommandLine.outputVariable)
  let request := CommandLine.Request.ofArguments defaults (arguments.map String.toList)
  let machine ← load request
  let outcome := request.run machine
  store machine.tree outcome.machine.tree
  put (← IO.getStdout) outcome.output
  put (← IO.getStderr) outcome.errors
  match outcome.abort with
  | none => pure ()
  | some abort => put (← IO.getStderr) (echo abort.message)
  return outcome.status.toUInt32

end BuildLog

def main (arguments : List String) : IO UInt32 :=
  letI := BuildLog.Console.stripping
  BuildLog.begin arguments
