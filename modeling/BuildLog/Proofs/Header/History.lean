import BuildLog.Header.Session
import BuildLog.Proofs.Header.Build
import Mathlib.Data.List.Induction
import Mathlib.Data.Set.Card

/-! A registry and the history of its calls. What it knows of an output is what the latest build of
that output has told, so histories that agree on those builds make registries that no request tells
apart. -/
namespace BuildLog.Header

open Build (Describes)

def Builds (calls : List (List Text)) (output : Text) : Prop :=
  ∃ arguments ∈ calls, ∃ source, Describes arguments ⟨output, source⟩

/-- The latest call that has built an output has built it from a source. -/
def LatestSource (calls : List (List Text)) (output source : Text) : Prop :=
  ∃ before arguments after, calls = before ++ arguments :: after ∧
    Describes arguments ⟨output, source⟩ ∧ ¬ Builds after output

variable {calls : List (List Text)} {arguments : List Text} {output source : Text}

theorem builds_concat_iff : Builds (calls ++ [arguments]) output ↔
    Builds calls output ∨ ∃ source, Describes arguments ⟨output, source⟩ := by
  simp [Builds, or_and_right, exists_or]

theorem not_builds_nil : ¬ Builds [] output := by
  simp [Builds]

theorem cases_of_concat_eq {before after : List (List Text)} {found : List Text}
    (h : calls ++ [arguments] = before ++ found :: after) :
    after = [] ∧ found = arguments ∨
      ∃ rest, after = rest ++ [arguments] ∧ calls = before ++ found :: rest := by
  rcases List.eq_nil_or_concat' after with rfl | ⟨rest, last, rfl⟩
  · exact .inl ⟨rfl, (List.cons.inj (List.append_inj' h rfl).2).1.symm⟩
  · rw [← List.cons_append, ← List.append_assoc] at h
    obtain ⟨hcalls, hlast⟩ := List.append_inj' h rfl
    exact .inr ⟨rest, congrArg (rest ++ ·) hlast.symm, hcalls⟩

theorem latestSource_concat_of_describes (h : Describes arguments ⟨output, source⟩)
    {other : Text} :
    LatestSource (calls ++ [arguments]) output other ↔ other = source := by
  constructor
  · rintro ⟨before, found, after, hsplit, hfound, hafter⟩
    rcases cases_of_concat_eq hsplit with ⟨-, rfl⟩ | ⟨rest, rfl, -⟩
    · exact congrArg Build.source (h.unique hfound)
    · exact absurd (builds_concat_iff.mpr (.inr ⟨source, h⟩)) hafter
  · rintro rfl
    exact ⟨calls, arguments, [], rfl, h, not_builds_nil⟩

theorem latestSource_concat_of_not_describes
    (h : ∀ source, ¬ Describes arguments ⟨output, source⟩) :
    LatestSource (calls ++ [arguments]) output source ↔ LatestSource calls output source := by
  constructor
  · rintro ⟨before, found, after, hsplit, hfound, hafter⟩
    rcases cases_of_concat_eq hsplit with ⟨-, rfl⟩ | ⟨rest, rfl, hcalls⟩
    · exact absurd hfound (h source)
    · exact ⟨before, found, rest, hcalls, hfound,
        fun hbuilds => hafter (builds_concat_iff.mpr (.inl hbuilds))⟩
  · rintro ⟨before, found, after, rfl, hfound, hafter⟩
    refine ⟨before, found, after ++ [arguments], by simp, hfound, ?_⟩
    rw [builds_concat_iff, not_or, not_exists]
    exact ⟨hafter, h⟩

namespace Registry

variable {registry other : Registry} {build : Build}

theorem register?_of_describes (h : Describes arguments build) :
    registry.register? arguments = some (registry.insert build) := by
  unfold register?
  rw [Build.ofArguments?_eq_some_iff.mpr h]
  rfl

theorem register?_of_not_describes (h : ∀ build, ¬ Describes arguments build) :
    registry.register? arguments = none := by
  have hnone : Build.ofArguments? arguments = none :=
    Option.eq_none_iff_forall_ne_some.mpr fun build hbuild =>
      h build (Build.ofArguments?_eq_some_iff.mp hbuild)
  unfold register?
  rw [hnone]
  rfl

theorem register_of_describes (h : Describes arguments build) :
    registry.register arguments = registry.insert build := by
  unfold register
  rw [register?_of_describes h]
  rfl

theorem register_of_not_describes (h : ∀ build, ¬ Describes arguments build) :
    registry.register arguments = registry := by
  unfold register
  rw [register?_of_not_describes h]
  rfl

theorem describes_or_not (arguments : List Text) :
    (∃ build, Describes arguments build) ∨ ∀ build, ¬ Describes arguments build := by
  rw [← not_exists]
  exact em _

theorem answer_register (registry : Registry) (arguments : List Text) :
    (∃ build, Describes arguments build ∧
      registry.answer (.register arguments) = (registry.insert build, .registered true)) ∨
    (∀ build, ¬ Describes arguments build) ∧
      registry.answer (.register arguments) = (registry, .registered false) := by
  have hanswer : registry.answer (.register arguments) =
      (registry.register arguments, .registered (registry.register? arguments).isSome) := rfl
  rw [hanswer]
  rcases describes_or_not arguments with ⟨build, h⟩ | h
  · rw [register_of_describes h, register?_of_describes h]
    exact .inl ⟨build, h, rfl⟩
  · rw [register_of_not_describes h, register?_of_not_describes h]
    exact .inr ⟨h, rfl⟩

theorem ofCalls_concat (calls : List (List Text)) (arguments : List Text) :
    ofCalls (calls ++ [arguments]) = (ofCalls calls).register arguments := by
  simp [ofCalls, List.foldl_append]

theorem get?_ofCalls : (ofCalls calls).get? output = some source ↔
    LatestSource calls output source := by
  -- the last call alone decides on the output that it describes, and on no other
  induction calls using List.reverseRecOn generalizing source with
  | nil => simp [ofCalls, LatestSource]
  | append_singleton calls arguments ih =>
    rw [ofCalls_concat]
    rcases describes_or_not arguments with ⟨⟨output', source'⟩, h⟩ | h
    · rw [register_of_describes h, get?_insert]
      by_cases hsame : output' = output
      · cases hsame
        rw [if_pos rfl, latestSource_concat_of_describes h, Option.some.injEq, eq_comm]
      · rw [if_neg hsame, ih, latestSource_concat_of_not_describes (h.not_of_output_ne hsame)]
    · rw [register_of_not_describes h, ih,
        latestSource_concat_of_not_describes fun source => h ⟨output, source⟩]

theorem contains_ofCalls : (ofCalls calls).contains output = true ↔ Builds calls output := by
  induction calls using List.reverseRecOn with
  | nil => simp [ofCalls, contains, not_builds_nil]
  | append_singleton calls arguments ih =>
    rw [ofCalls_concat, builds_concat_iff, ← ih]
    unfold contains
    rcases describes_or_not arguments with ⟨⟨output', source'⟩, h⟩ | h
    · rw [register_of_describes h, get?_insert]
      by_cases hsame : output' = output
      · cases hsame
        simp only [if_true, Option.isSome_some, true_iff]
        exact .inr ⟨source', h⟩
      · simp [hsame, h.not_of_output_ne hsame]
    · simp [register_of_not_describes h, h]

theorem get?_ofCalls_eq_none : (ofCalls calls).get? output = none ↔ ¬ Builds calls output := by
  rw [← contains_ofCalls, contains, Option.not_isSome_iff_eq_none]

/-- The three names under which a path is looked for, the first one that was built counts. -/
theorem resolve_ofCalls {path : Text} : (ofCalls calls).resolve path = some source ↔
    LatestSource calls (path ++ ".pth".toList) source ∨
    ¬ Builds calls (path ++ ".pth".toList) ∧
      (LatestSource calls (path ++ ".pch".toList) source ∨
        ¬ Builds calls (path ++ ".pch".toList) ∧ LatestSource calls path source) := by
  simp only [resolve, Option.orElse_eq_orElse, Option.orElse_eq_or, Option.or_eq_some_iff,
    get?_ofCalls, get?_ofCalls_eq_none]

theorem resolve_ofCalls_eq_none {path : Text} : (ofCalls calls).resolve path = none ↔
    ¬ Builds calls (path ++ ".pth".toList) ∧ ¬ Builds calls (path ++ ".pch".toList) ∧
      ¬ Builds calls path := by
  simp only [resolve, Option.orElse_eq_none, get?_ofCalls_eq_none]

theorem size_eq_ncard (registry : Registry) :
    registry.size = Set.ncard {output | registry.contains output = true} := by
  have hmem (output : Text) : output ∈ registry.builds.map Build.output ↔
      registry.contains output = true := by
    simp [contains, get?, List.find?_isSome]
  have hset : {output | registry.contains output = true} =
      ((registry.builds.map Build.output).toFinset : Set Text) := by
    ext output
    simp [← hmem]
  rw [hset, Set.ncard_coe_finset, List.toFinset_card_of_nodup registry.distinct, List.length_map]
  rfl

def Alike (registry other : Registry) : Prop :=
  ∀ output, other.get? output = registry.get? output

namespace Alike

theorem refl (registry : Registry) : registry.Alike registry := fun _ => rfl

variable (h : registry.Alike other)

include h

theorem contains_eq (output : Text) : other.contains output = registry.contains output := by
  rw [contains, contains, h]

theorem resolve_eq (path : Text) : other.resolve path = registry.resolve path := by
  simp only [resolve, h _]

theorem size_eq : other.size = registry.size := by
  simp only [size_eq_ncard, h.contains_eq]

theorem insert (build : Build) : (registry.insert build).Alike (other.insert build) := by
  intro output
  rw [get?_insert, get?_insert, h]

theorem register (arguments : List Text) :
    (registry.register arguments).Alike (other.register arguments) := by
  rcases describes_or_not arguments with ⟨build, hbuild⟩ | hnot
  · rw [register_of_describes hbuild, register_of_describes hbuild]
    exact h.insert build
  · rw [register_of_not_describes hnot, register_of_not_describes hnot]
    exact h

theorem foldl_register (calls : List (List Text)) :
    (calls.foldl Registry.register registry).Alike (calls.foldl Registry.register other) := by
  induction calls generalizing registry other with
  | nil => exact h
  | cons arguments calls ih => exact ih (h.register arguments)

theorem answer (request : Request) :
    (registry.answer request).1.Alike (other.answer request).1 ∧
      (other.answer request).2 = (registry.answer request).2 := by
  cases request with
  | register arguments =>
    have hadded : (other.register? arguments).isSome = (registry.register? arguments).isSome := by
      simp only [register?, Option.isSome_map]
    exact ⟨h.register arguments, congrArg Reply.registered hadded⟩
  | contains output => exact ⟨h, congrArg Reply.contained (h.contains_eq output)⟩
  | resolve path => exact ⟨h, congrArg Reply.resolved (h.resolve_eq path)⟩

theorem answers_eq (requests : List Request) :
    other.answers requests = registry.answers requests := by
  induction requests generalizing registry other with
  | nil => rfl
  | cons request requests ih =>
    obtain ⟨hnext, hreply⟩ := h.answer request
    simp only [answers, hreply, hnext.size_eq, ih hnext]

end Alike

theorem alike_register_register {first second : List Text}
    (h : ∀ build other, Describes first build → Describes second other →
      build.output ≠ other.output) (registry : Registry) :
    ((registry.register first).register second).Alike
      ((registry.register second).register first) := by
  rcases describes_or_not first with ⟨build, hfirst⟩ | hfirst
  · rcases describes_or_not second with ⟨other, hsecond⟩ | hsecond
    · have hne := h build other hfirst hsecond
      intro output
      simp only [register_of_describes hfirst, register_of_describes hsecond, get?_insert]
      split_ifs with hbuild hother
      · exact absurd (hbuild.trans hother.symm) hne
      all_goals rfl
    · simp only [register_of_not_describes hsecond]
      exact .refl _
  · simp only [register_of_not_describes hfirst]
    exact .refl _

theorem alike_ofCalls {others : List (List Text)}
    (h : ∀ output source, LatestSource calls output source ↔ LatestSource others output source) :
    (ofCalls calls).Alike (ofCalls others) := by
  intro output
  ext source
  rw [get?_ofCalls, get?_ofCalls, h]

/-- What a registry replies to calls that build headers, and what it knows after any number of them.
A call is acknowledged exactly if it describes a build. An output is known if some call has built
it, a path leads to the source of the latest build under the first of its three names that was
built, and the size counts the outputs. Calls that agree on the latest source of each output can
not be told apart, and neither can the two orders of builds of different outputs. -/
theorem ofCalls_history (calls : List (List Text)) :
    let registry := ofCalls calls
    (∀ arguments,
      (∃ build, Describes arguments build ∧
        registry.answer (.register arguments) = (registry.insert build, .registered true)) ∨
      (∀ build, ¬ Describes arguments build) ∧
        registry.answer (.register arguments) = (registry, .registered false)) ∧
    (∀ output, registry.contains output = true ↔ Builds calls output) ∧
    (∀ path source, registry.resolve path = some source ↔
      LatestSource calls (path ++ ".pth".toList) source ∨
      ¬ Builds calls (path ++ ".pth".toList) ∧
        (LatestSource calls (path ++ ".pch".toList) source ∨
          ¬ Builds calls (path ++ ".pch".toList) ∧ LatestSource calls path source)) ∧
    (∀ path, registry.resolve path = none ↔
      ¬ Builds calls (path ++ ".pth".toList) ∧ ¬ Builds calls (path ++ ".pch".toList) ∧
        ¬ Builds calls path) ∧
    registry.size = Set.ncard {output | Builds calls output} ∧
    (∀ others,
      (∀ output source, LatestSource calls output source ↔ LatestSource others output source) →
      ∀ requests, (ofCalls others).answers requests = registry.answers requests) ∧
    ∀ first second,
      (∀ build other, Describes first build → Describes second other →
        build.output ≠ other.output) →
      ∀ after requests,
        (ofCalls (calls ++ second :: first :: after)).answers requests =
          (ofCalls (calls ++ first :: second :: after)).answers requests := by
  intro registry
  refine ⟨registry.answer_register, fun _ => contains_ofCalls, fun _ _ => resolve_ofCalls,
    fun _ => resolve_ofCalls_eq_none, ?_, ?_, ?_⟩
  · rw [size_eq_ncard]
    simp only [registry, contains_ofCalls]
  · intro others h requests
    exact (alike_ofCalls h).answers_eq requests
  · intro first second h after requests
    have hboth (one two : List Text) : ofCalls (calls ++ one :: two :: after) =
        after.foldl register ((registry.register one).register two) := by
      simp only [ofCalls, List.foldl_append, List.foldl_cons, registry]
    rw [hboth, hboth]
    exact ((alike_register_register h registry).foldl_register after).answers_eq requests

theorem ofCalls_history_of_rebuilt :
    let old := ["clang", "-c", "-c", "old.h", "-o", "p.pch.pth", "-o", "p.o"].map String.toList
    let other := ["clang", "-c", "q.h", "-o", "q.h.pch", "-c"].map String.toList
    let new := ["-c", "new.h", "-o", "p.pch.pth"].map String.toList
    let registry := ofCalls [old, other, new]
    registry.resolve "p.pch".toList = some "new.h".toList ∧
      LatestSource [old, other, new] "p.pch.pth".toList "new.h".toList ∧
      Set.ncard {output | Builds [old, other, new] output} = 2 ∧
      ∀ requests, (ofCalls [other, new]).answers requests = registry.answers requests ∧
        (ofCalls [other, old, new]).answers requests = registry.answers requests := by
  intro old other new registry
  have hold : Build.ofArguments? old = some ⟨"p.pch.pth".toList, "old.h".toList⟩ := by decide
  have hother : Build.ofArguments? other = some ⟨"q.h.pch".toList, "q.h".toList⟩ := by decide
  have hbuilds : (ofCalls [other, new]).builds = registry.builds := by decide
  have hsame : ∀ output source, LatestSource [old, other, new] output source ↔
      LatestSource [other, new] output source := by
    intro output source
    rw [← get?_ofCalls, ← get?_ofCalls, Registry.ext hbuilds]
  have hapart : ∀ build build', Describes old build → Describes other build' →
      build.output ≠ build'.output := by
    intro build build' h h'
    rw [← Build.ofArguments?_eq_some_iff, hold] at h
    rw [← Build.ofArguments?_eq_some_iff, hother] at h'
    cases h
    cases h'
    decide
  have hresolve : registry.resolve "p.pch".toList = some "new.h".toList := by decide
  have hsize : registry.size = 2 := by decide
  obtain ⟨-, -, -, -, hcount, hagree, -⟩ := ofCalls_history [old, other, new]
  obtain ⟨-, -, -, -, -, -, hswap⟩ := ofCalls_history []
  refine ⟨hresolve, get?_ofCalls.mp (by decide), hcount.symm.trans hsize, fun requests => ⟨?_, ?_⟩⟩
  · exact hagree _ hsame requests
  · exact hswap old other hapart [new] requests

end Registry
end BuildLog.Header
