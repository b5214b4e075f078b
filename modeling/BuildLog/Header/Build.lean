import BuildLog.Text.Basic

/-! The build of a precompiled header. Its invocation names the header after `-c` and the file
that is written after `-o`. -/
namespace BuildLog.Header

structure Build where
  output : Text
  source : Text
deriving DecidableEq, Repr

namespace Build

def suffixes : List Text := [".pch.pth", ".pch.pch", ".h.pch"].map String.toList

def isOutput (argument : Text) : Bool := suffixes.any fun suffix => suffix.isSuffixOf argument

def neighbours (arguments : List Text) : List (Text × Text) := arguments.zip arguments.tail

def source? (arguments : List Text) : Option Text :=
  ((neighbours arguments).filter fun (flag, _) => flag = "-c".toList).getLast?.map Prod.snd

/-- The argument after the last `-o` that a precompiled header file follows. -/
def output? (arguments : List Text) : Option Text :=
  ((neighbours arguments).filter fun (flag, value) =>
    flag = "-o".toList ∧ isOutput value).getLast?.map Prod.snd

def ofArguments? (arguments : List Text) : Option Build :=
  match output? arguments, source? arguments with
  | some output, some source => if source = [] then none else some { output, source }
  | _, _ => none

@[simp] theorem ofArguments?_nil : ofArguments? [] = none := rfl

end Build
end BuildLog.Header
