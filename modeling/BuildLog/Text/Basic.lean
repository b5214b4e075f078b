/-! Texts are lists of characters, so that every rule below is a recursion on its input.
This module holds the few operations that all others share. -/
namespace BuildLog

abbrev Text := List Char

namespace Text

/-- What follows the earliest occurrence of a needle. -/
def after? (needle : Text) : Text → Option Text
  | [] => needle.isPrefixOf? []
  | c :: rest =>
    match needle.isPrefixOf? (c :: rest) with
    | some tail => some tail
    | none => after? needle rest

def has (needle text : Text) : Bool := (after? needle text).isSome

def dropTrailing (unwanted : Char → Bool) (text : Text) : Text :=
  (text.reverse.dropWhile unwanted).reverse

@[simp] theorem dropTrailing_nil (unwanted : Char → Bool) : dropTrailing unwanted [] = [] := rfl

def isWithin (ranges : List (Nat × Nat)) (c : Char) : Bool :=
  ranges.any fun (low, high) => low ≤ c.toNat && c.toNat ≤ high

def spaces (n : Nat) : Text := List.replicate n ' '

def join (separator : Text) (pieces : List Text) : Text := separator.intercalate pieces

end Text
end BuildLog
