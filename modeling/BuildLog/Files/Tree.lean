import BuildLog.Text.Quoted
import BuildLog.Text.Utf8

/-! A file system without links: directories and files, each at a location, and the ways in which
a path can lead to one of them or fail to. -/
namespace BuildLog.Files

abbrev Location := List Text

def Location.path (location : Location) : Text := '/' :: Text.join ['/'] location

inductive Node
  | directory
  | file (content : List UInt8)
deriving DecidableEq, Repr

inductive Access
  | read
  | write
  | create
  | remove
deriving DecidableEq, Repr

inductive Refusal
  | notPermitted
  | denied
  | readOnly
deriving DecidableEq, Repr

inductive Cause
  | noEntry
  | notDirectory
  | isDirectory
  | nameTooLong
  | refused (refusal : Refusal)
deriving DecidableEq, Repr

def Cause.number : Cause → Nat
  | .noEntry => 2
  | .notDirectory => 20
  | .isDirectory => 21
  | .nameTooLong => 36
  | .refused .notPermitted => 1
  | .refused .denied => 13
  | .refused .readOnly => 30

def Cause.message : Cause → Text
  | .noEntry => "No such file or directory".toList
  | .notDirectory => "Not a directory".toList
  | .isDirectory => "Is a directory".toList
  | .nameTooLong => "File name too long".toList
  | .refused .notPermitted => "Operation not permitted".toList
  | .refused .denied => "Permission denied".toList
  | .refused .readOnly => "Read-only file system".toList

structure FileError where
  cause : Cause
  path : Text
deriving DecidableEq, Repr

def FileError.message (error : FileError) : Text :=
  "[Errno ".toList ++ Text.decimal error.cause.number ++ "] ".toList ++ error.cause.message ++
    ": ".toList ++ Text.quoted error.path

/-- What is at each location. The root is a directory always. -/
structure Tree where
  entries : List (Location × Node)

namespace Tree

def get? (tree : Tree) (location : Location) : Option Node :=
  if location = [] then some .directory
  else (tree.entries.find? fun entry => entry.1 = location).map Prod.snd

def insert (tree : Tree) (location : Location) (node : Node) : Tree :=
  ⟨(location, node) :: tree.entries.filter fun entry => entry.1 ≠ location⟩

def erase (tree : Tree) (location : Location) : Tree :=
  ⟨tree.entries.filter fun entry => entry.1 ≠ location⟩

def maxName : Nat := 255
def maxPath : Nat := 4095

def step (tree : Tree) (location : Location) (component : Text) : Except Cause Location :=
  match tree.get? location with
  | none => .error .noEntry
  | some (.file _) => .error .notDirectory
  | some .directory =>
    if component = [] ∨ component = ".".toList then .ok location
    else if component = "..".toList then .ok location.dropLast
    else if maxName < (Utf8.encode component).length then .error .nameTooLong
    else
      let below := location ++ [component]
      if (tree.get? below).isSome then .ok below else .error .noEntry

def origin (workingDirectory : Location) (path : Text) : Location :=
  if path.head? = some '/' then [] else workingDirectory

def waypoints (location : Location) : List Text → List Location
  | [] => []
  | part :: rest =>
    let next :=
      if part = [] ∨ part = ".".toList then location
      else if part = "..".toList then location.dropLast
      else location ++ [part]
    next :: waypoints next rest

/-- Refuses the paths that are refused whatever the tree holds. -/
def checkPath (path : Text) : Except Cause Unit :=
  if path = [] then .error .noEntry
  else if maxPath < (Utf8.encode path).length then .error .nameTooLong
  else .ok ()

def locate (tree : Tree) (workingDirectory : Location) (path : Text) : Except Cause Location := do
  checkPath path
  (path.splitOn '/').foldlM tree.step (origin workingDirectory path)

def contains (tree : Tree) (workingDirectory : Location) (path : Text) : Bool :=
  (tree.locate workingDirectory path).toOption.isSome

def locateFile (tree : Tree) (workingDirectory : Location) (path : Text) :
    Except Cause Location := do
  let location ← tree.locate workingDirectory path
  match tree.get? location with
  | some (.file _) => .ok location
  | some .directory => .error .isDirectory
  | none => .error .noEntry

def isFile (tree : Tree) (workingDirectory : Location) (path : Text) : Bool :=
  (tree.locateFile workingDirectory path).toOption.isSome

def contentAt (tree : Tree) (location : Location) : List UInt8 :=
  match tree.get? location with
  | some (.file content) => content
  | _ => []

/-- The location at which a path lets a file be written. All but its last name must lead to a
directory; what the last one names may be a file or be missing. A slash after it asks for a
directory, which no file can be. -/
def locateTarget (tree : Tree) (workingDirectory : Location) (path : Text) :
    Except Cause Location := do
  checkPath path
  let parts := path.splitOn '/'
  let named := (parts.reverse.dropWhile (· = [])).reverse
  let directory ← named.dropLast.foldlM tree.step (origin workingDirectory path)
  match tree.get? directory, named.getLast? with
  | some .directory, some name =>
    if named.length < parts.length then .error .isDirectory
    else match tree.step directory name with
      | .ok location =>
        if tree.get? location = some .directory then .error .isDirectory else .ok location
      | .error .noEntry => .ok (directory ++ [name])
      | .error cause => .error cause
  | some .directory, none => .error .isDirectory
  | _, _ => .error .notDirectory

def remove (tree : Tree) (workingDirectory : Location) (path : Text) : Except Cause Tree := do
  let location ← tree.locateFile workingDirectory path
  return tree.erase location

end Tree
end BuildLog.Files
