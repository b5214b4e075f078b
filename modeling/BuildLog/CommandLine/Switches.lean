import BuildLog.Text.Basic

/-! Switches on a command line. A long switch may have its value behind an equals sign; short ones
may share a dash, and the last of them may be followed by its value at once. The value of a switch
is the next argument otherwise, whatever that is. `--` ends the switches. -/
namespace BuildLog.CommandLine

structure Switch where
  name : Text
  letter : Option Char
  takesValue : Bool
deriving DecidableEq, Repr

/-- A piece of a command line that has been understood. The value of a switch that takes none is
empty. -/
inductive Item
  | switch (which : Switch) (value : Text)
  | operand (text : Text)
deriving DecidableEq, Repr

/-- A word of switches: those it settles, and the one whose value is the next argument. -/
structure Group where
  settled : List Item
  open? : Option Switch

namespace Switch

def ofLong? (switches : List Switch) (body : Text) : Option Group :=
  let name := body.takeWhile (· ≠ '=')
  match switches.find? (·.name = name), body.dropWhile (· ≠ '=') with
  | none, _ => none
  | some switch, [] =>
    if switch.takesValue then some ⟨[], some switch⟩ else some ⟨[.switch switch []], none⟩
  | some switch, _ :: value =>
    if switch.takesValue then some ⟨[.switch switch value], none⟩ else none

def ofLetters? (switches : List Switch) : Text → Option Group
  | [] => some ⟨[], none⟩
  | c :: rest =>
    match switches.find? (·.letter = some c) with
    | none => none
    | some switch =>
      if switch.takesValue then
        if rest = [] then some ⟨[], some switch⟩ else some ⟨[.switch switch rest], none⟩
      else
        (ofLetters? switches rest).map fun group =>
          { group with settled := .switch switch [] :: group.settled }

end Switch

def switchesOf? (switches : List Switch) : Text → Option (Option Group)
  | '-' :: '-' :: body => some (Switch.ofLong? switches body)
  | '-' :: c :: body => some (Switch.ofLetters? switches (c :: body))
  | _ => none

/-- Understands the arguments of a command line. Where operands end the switches, all that follows
the first operand is an operand too. -/
def readItems (switches : List Switch) (operandsEnd : Bool) : List Text → Option (List Item)
  | [] => some []
  | argument :: rest =>
    if argument = "--".toList then some (rest.map .operand)
    else match switchesOf? switches argument with
      | none =>
        if operandsEnd then some ((argument :: rest).map .operand)
        else (readItems switches operandsEnd rest).map (.operand argument :: ·)
      | some none => none
      | some (some ⟨settled, none⟩) => (readItems switches operandsEnd rest).map (settled ++ ·)
      | some (some ⟨settled, some switch⟩) =>
        match rest with
        | [] => none
        | value :: rest =>
          (readItems switches operandsEnd rest).map (settled ++ .switch switch value :: ·)

namespace Item

def operand? : Item → Option Text
  | .operand text => some text
  | .switch _ _ => none

def valueOf? (name : Text) : Item → Option Text
  | .switch which value => if which.name = name then some value else none
  | .operand _ => none

end Item

def operands (items : List Item) : List Text := items.filterMap Item.operand?

def valueOf? (items : List Item) (name : Text) : Option Text :=
  (items.filterMap (Item.valueOf? name)).getLast?

def isSet (items : List Item) (name : Text) : Bool := (valueOf? items name).isSome

end BuildLog.CommandLine
