import BuildLog.Files.Tree

/-! What a program finds when it starts. Programs are functions from a machine to what they leave
behind, so that nothing in them happens out of sight. -/
namespace BuildLog

structure Machine where
  tree : Files.Tree
  workingDirectory : Files.Location
  /-- What the program may not do at a location. It can look up all that is in the tree. -/
  refusal? : Files.Access → Files.Location → Option Files.Refusal
  /-- The standard input, in the chunks in which it arrives. -/
  input : List (List UInt8)

namespace Machine

def permissive (tree : Files.Tree) (workingDirectory : Files.Location)
    (input : List (List UInt8)) : Machine :=
  { tree, workingDirectory, refusal? := fun _ _ => none, input }

def contains (machine : Machine) (path : Text) : Bool :=
  machine.tree.contains machine.workingDirectory path

def isFile (machine : Machine) (path : Text) : Bool :=
  machine.tree.isFile machine.workingDirectory path

def workingPath (machine : Machine) : Text := machine.workingDirectory.path

def allow (machine : Machine) (access : Files.Access) (location : Files.Location) :
    Except Files.Cause Unit :=
  match machine.refusal? access location with
  | none => .ok ()
  | some refusal => .error (.refused refusal)

def openFile (machine : Machine) (path : Text) : Except Files.FileError Files.Location :=
  Except.mapError (⟨·, path⟩) do
    machine.allow .read (← machine.tree.locate machine.workingDirectory path)
    machine.tree.locateFile machine.workingDirectory path

def write (machine : Machine) (location : Files.Location) (content : List UInt8) : Machine :=
  { machine with tree := machine.tree.insert location (.file content) }

def grant (machine : Machine) (location : Files.Location) : Machine :=
  { machine with
    refusal? := fun access other =>
      if other = location then none else machine.refusal? access other }

/-- The machine with an empty file at a location. One that was not there belongs to its maker. -/
def emptied (machine : Machine) (location : Files.Location) : Machine :=
  if (machine.tree.get? location).isSome then machine.write location []
  else (machine.grant location).write location []

def writing (machine : Machine) (location : Files.Location) : Files.Access :=
  if (machine.tree.get? location).isSome then .write else .create

def createFile (machine : Machine) (path : Text) :
    Except Files.FileError (Machine × Files.Location) :=
  Except.mapError (⟨·, path⟩) do
    let location ← machine.tree.locateTarget machine.workingDirectory path
    machine.allow (machine.writing location) location
    return (machine.emptied location, location)

def removeFile (machine : Machine) (path : Text) : Except Files.FileError Machine :=
  Except.mapError (⟨·, path⟩) do
    machine.allow .remove (← machine.tree.locate machine.workingDirectory path)
    let tree ← machine.tree.remove machine.workingDirectory path
    return { machine with tree }

end Machine
end BuildLog
