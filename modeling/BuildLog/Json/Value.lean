import BuildLog.Text.CodePoint

/-! JSON values. The members of an object keep their order and their repetitions; of members with
one name the last one counts. -/
namespace BuildLog

inductive Json
  | null
  | boolean (value : Bool)
  /-- A number, as it is written. -/
  | number (numeral : Text)
  | text (value : WideText)
  | array (items : List Json)
  | object (members : List (WideText × Json))

namespace Json

/-- The value of the last member of a name. -/
def lookup (members : List (WideText × Json)) (name : Text) : Option Json :=
  (members.reverse.find? fun member => member.1 = Text.widen name).map Prod.snd

@[simp] theorem lookup_nil (name : Text) : lookup [] name = none := rfl

end Json
end BuildLog
