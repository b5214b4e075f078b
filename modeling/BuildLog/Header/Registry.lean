import BuildLog.Header.Build

/-! The precompiled headers that a build has made so far. The registry leads from the file that is
included back to the header it was built from, so that a command can name the header instead. -/
namespace BuildLog.Header

/-- The builds so far, at most one for each output. -/
structure Registry where
  builds : List Build
  distinct : (builds.map Build.output).Nodup

namespace Registry

@[ext] theorem ext {r s : Registry} (h : r.builds = s.builds) : r = s := by
  cases r
  cases s
  cases h
  rfl

def empty : Registry := ⟨[], List.nodup_nil⟩

def size (registry : Registry) : Nat := registry.builds.length

def get? (registry : Registry) (output : Text) : Option Text :=
  (registry.builds.find? fun build => build.output = output).map Build.source

def contains (registry : Registry) (output : Text) : Bool := (registry.get? output).isSome

def insert (registry : Registry) (build : Build) : Registry where
  builds := build :: registry.builds.filter fun other => other.output ≠ build.output
  distinct := by
    rw [List.map_cons, List.nodup_cons]
    refine ⟨by simp, registry.distinct.sublist ?_⟩
    exact List.filter_sublist.map _

def register? (registry : Registry) (arguments : List Text) : Option Registry :=
  (Build.ofArguments? arguments).map registry.insert

/-- The header behind an included path. The path may lack the end of the file's name, and the
fuller name comes first. -/
def resolve (registry : Registry) (path : Text) : Option Text :=
  registry.get? (path ++ ".pth".toList) <|> registry.get? (path ++ ".pch".toList) <|>
    registry.get? path

@[simp] theorem get?_empty (output : Text) : empty.get? output = none := rfl

@[simp] theorem size_empty : empty.size = 0 := rfl

theorem get?_insert (registry : Registry) (build : Build) (output : Text) :
    (registry.insert build).get? output =
      if build.output = output then some build.source else registry.get? output := by
  unfold get? insert
  by_cases h : build.output = output
  · simp [h]
  · simp only [List.find?_cons, h, decide_false, if_false]
    rw [List.find?_filter]
    congr 2
    funext other
    by_cases h' : other.output = output <;> simp [h', Ne.symm h]

end Registry
end BuildLog.Header
