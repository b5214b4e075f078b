import BuildLog.Header.Registry

/-! A registry in use. It is told of invocations and asked for headers, in any order, and what it
can not learn from leaves it as it is. -/
namespace BuildLog.Header

inductive Request
  | register (arguments : List Text)
  | contains (output : Text)
  | resolve (path : Text)
deriving DecidableEq, Repr

inductive Reply
  | registered (added : Bool)
  | contained (known : Bool)
  | resolved (source : Option Text)
deriving DecidableEq, Repr

namespace Registry

def register (registry : Registry) (arguments : List Text) : Registry :=
  (registry.register? arguments).getD registry

def answer (registry : Registry) : Request → Registry × Reply
  | .register arguments =>
    (registry.register arguments, .registered (registry.register? arguments).isSome)
  | .contains output => (registry, .contained (registry.contains output))
  | .resolve path => (registry, .resolved (registry.resolve path))

/-- The replies to requests, each with the size that the registry has then. -/
def answers (registry : Registry) : List Request → List (Reply × Nat)
  | [] => []
  | request :: rest =>
    let (next, reply) := registry.answer request
    (reply, next.size) :: next.answers rest

def ofCalls (calls : List (List Text)) : Registry := calls.foldl register .empty

end Registry
end BuildLog.Header
