import BuildLog.Text.Basic

/-! Paths with `/` between components, taken as texts: nothing here looks at a file system.
Normalizing removes empty components, `.`, and each `..` together with what it climbs out of. -/
namespace BuildLog.Path

def isAbsolute (path : Text) : Bool := path.head? == some '/'

def baseName (path : Text) : Text := (path.splitOn '/').getLastD []

def components (path : Text) : List Text :=
  (path.splitOn '/').filter fun part => part ≠ [] ∧ part ≠ ".".toList

/-- Takes one component to the components above it, the nearest first. A `..` climbs out of the
nearest one; at the root it goes nowhere, and before a relative path it stays. -/
def enter (absolute : Bool) (above : List Text) (component : Text) : List Text :=
  if component = "..".toList then
    match above with
    | [] => if absolute then [] else [component]
    | nearest :: others => if nearest = "..".toList then component :: above else others
  else component :: above

def reduce (absolute : Bool) (parts : List Text) : List Text :=
  (parts.foldl (enter absolute) []).reverse

/-- The shortest path of the same meaning, as far as the text tells. An absolute path starts with
exactly one slash; the empty path stays empty. -/
def normalize (path : Text) : Text :=
  if path = [] then []
  else
    let parts := reduce (isAbsolute path) (components path)
    if isAbsolute path then '/' :: Text.join ['/'] parts
    else if parts = [] then ".".toList
    else Text.join ['/'] parts

def resolve (directory path : Text) : Text :=
  if isAbsolute path then path
  else if directory = [] ∨ directory.getLast? = some '/' then directory ++ path
  else directory ++ '/' :: path

def absolute (workingDirectory path : Text) : Text := normalize (resolve workingDirectory path)

/-- Whether a normalized path is a directory itself or lies somewhere below it. -/
def isUnder (directory path : Text) : Bool :=
  path == directory || (Text.dropTrailing (· == '/') directory ++ ['/']).isPrefixOf path

@[simp] theorem normalize_nil : normalize [] = [] := rfl

end BuildLog.Path
