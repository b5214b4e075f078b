import BuildLog.Proofs.Header.Names
import BuildLog.Proofs.Transcript.Failure

/-! Included files that no precompiled header stands for. Whatever a log has built before, its
registry is one that builds have filled, so it knows no file of another name than that of a header;
an invocation that includes such a file fails unless the file is there. -/
namespace BuildLog

open Header.Build (EndsAsIncluded)

def Header.Registry.Reachable (registry : Header.Registry) : Prop :=
  ∃ calls, registry = ofCalls calls

namespace Header.Registry.Reachable

variable {registry larger : Header.Registry}

theorem register? (h : registry.Reachable) {arguments : List Text}
    (hlarger : registry.register? arguments = some larger) : larger.Reachable := by
  obtain ⟨calls, rfl⟩ := h
  refine ⟨calls ++ [arguments], ?_⟩
  rw [ofCalls_concat, register, hlarger]
  rfl

theorem resolve_eq_none (h : registry.Reachable) {path : Text} (hpath : ¬ EndsAsIncluded path) :
    registry.resolve path = none := by
  obtain ⟨calls, rfl⟩ := h
  refine Option.eq_none_iff_forall_ne_some.mpr fun source hsource => ?_
  exact hpath (exists_resolve_iff.mp ⟨calls, hsource⟩).1

end Header.Registry.Reachable

namespace Invocation

variable {setting : Setting} {registry : Header.Registry} {line path : Text}

def Includes (setting : Setting) (line path : Text) : Prop :=
  ∃ operands, Operand.Walk (keptArguments setting line) operands ∧ .header path ∈ operands

theorem exists_error_of_includes (h : Includes setting line path)
    (hpath : isUnresolved setting registry path = true) (directory : Text) :
    ∃ error, record setting registry directory line = .error error := by
  obtain ⟨operands, hwalk, hmem⟩ := h
  rw [record_eq, ← hwalk.eq_ofArguments]
  dsimp only
  split
  next first _ => exact ⟨⟨first⟩, rfl⟩
  next hnone =>
    rw [List.find?_eq_none] at hnone
    exact absurd hpath (hnone path (List.mem_filterMap.mpr ⟨_, hmem, rfl⟩))

end Invocation

namespace Transcript

variable {setting : Setting} {scanner next : Scanner} {line : Text} {event : Event}

theorem Step.reachable (h : Step setting scanner line next event)
    (hregistry : scanner.registry.Reachable) : next.registry.Reachable := by
  cases h with
  | registered hi hr => exact hregistry.register? hr
  | stray | begins | directory | passed | abandoned | rejected | compiled | failed =>
    exact hregistry

theorem reachable_feedAll (h : scanner.registry.Reachable) (lines : List Text) :
    (scanner.feedAll setting lines).scanner.registry.Reachable :=
  kept_feedAll (fun _ _ _ _ _ hstep => hstep.reachable) h

theorem reachable_run (setting : Setting) (calls : List (List Text)) (requests : List Call) :
    (Session.run setting (.ofCalls calls) requests).scanner.registry.Reachable := by
  refine Session.kept_run (fun _ _ _ _ hstep => hstep.reachable) ?_ ⟨calls, rfl⟩ requests
  intro scanner h
  rw [Scanner.finish_eq]
  exact h

/-- Exactly the paths that end as the name of a precompiled header does, whole or without its last
suffix, can lead to a header, and that can be any one but the empty one. So at every point of a
session, behind some calls and some lines of a pass, a compiling block fails at an invocation that
includes an absent file of another name, whatever headers were built before. Nothing is made of it,
alone or in its pass, and all that was made before stays. -/
theorem fails_of_foreign_include (calls : List (List Text)) :
    (∀ path, ¬ EndsAsIncluded path → (Header.Registry.ofCalls calls).resolve path = none) ∧
    (∀ path source, (Header.Registry.ofCalls calls).resolve path = some source → source ≠ []) ∧
    (∀ path source, EndsAsIncluded path → source ≠ [] →
      ∃ others, (Header.Registry.ofCalls others).resolve path = some source) ∧
    ∀ (setting : Setting) (requests : List Call) (begun : List Text) (directory line path : Text),
      let before := Session.run setting (.ofCalls calls) requests
      let run := before.scanner.feedAll setting begun
      let session := before.receive run
      run.failure = none → run.scanner.phase = .awaitInvocation ⟨.compile, directory⟩ →
      Command.isInvocation line = true → Invocation.Includes setting line path →
      setting.present path = false → ¬ EndsAsIncluded path →
      ∃ error, ((Call.feed line).run setting session.scanner).failure = some error ∧
        session.take setting (.feed line) = session ∧
        ∀ lines rest, lines.map Text.trimLineEnd = begun ++ line :: rest →
          (Call.scan lines).run setting before.scanner = { run with failure := some error } ∧
          before.take setting (.scan lines) = session := by
  refine ⟨?_, ?_, ?_, ?_⟩
  · intro path hpath
    exact Header.Registry.Reachable.resolve_eq_none ⟨calls, rfl⟩ hpath
  · intro path source hsource
    exact (Header.Registry.exists_resolve_iff.mp ⟨calls, hsource⟩).2
  · intro path source hpath hsource
    exact Header.Registry.exists_resolve_iff.mpr ⟨hpath, hsource⟩
  · intro setting requests begun directory line path before run session hok hphase hi hincludes
      habsent hpath
    have hregistry : run.scanner.registry.Reachable :=
      reachable_feedAll (reachable_run setting calls requests) begun
    have hunresolved : isUnresolved setting run.scanner.registry path = true := by
      rw [isUnresolved, habsent, hregistry.resolve_eq_none hpath]
      rfl
    obtain ⟨error, hr⟩ := Invocation.exists_error_of_includes hincludes hunresolved directory
    have hstep : Step setting run.scanner line run.scanner (.unresolved error) :=
      .of_error hphase hi hr
    have hscanner : session.scanner = run.scanner :=
      congrArg Session.scanner (Session.receive_eq before run)
    have hfeed : ((Call.feed line).run setting session.scanner).failure = some error := by
      rw [hscanner]
      exact failure_feed_iff.mpr hstep
    refine ⟨error, hfeed, Session.take_feed_of_failure hfeed, ?_⟩
    intro lines rest hlines
    have hpass : before.scanner.feedAll setting (lines.map Text.trimLineEnd) =
        { run with failure := some error } := by
      rw [hlines, Scanner.feedAll_append, Run.feedAll_of_none hok, hstep.feedAll_cons_unresolved]
      simp
    have hscan : (Call.scan lines).run setting before.scanner =
        { run with failure := some error } := by
      rw [← hpass]
      exact Scanner.scan_of_failure (by rw [hpass])
    refine ⟨hscan, ?_⟩
    rw [Session.take, hscan]
    rfl

theorem fails_of_foreign_include_behind_header :
    let header := ["-c", "p.h", "-o", "p.h.pch"].map String.toList
    let setting : Setting := ⟨fun _ => false, false⟩
    let lines := ["ProcessPCH".toList, "cd /w".toList, "gcc -c q.c -o q.c.pch.pch".toList,
      "CompileC".toList, "cd /w".toList]
    let line := "gcc -include p.h -include q.c -c a.c -o a.o".toList
    let before := Session.run setting (.ofCalls [header]) [.scan (lines.take 3)]
    Invocation.Includes setting line "q.c".toList ∧ ¬ EndsAsIncluded "q.c".toList ∧
      (before.scanner.registry.resolve "q.c.pch".toList).isSome = true ∧
      before.take setting (.scan (lines.drop 3 ++ [line])) =
        before.receive (before.scanner.feedAll setting (lines.drop 3)) := by
  intro header setting lines line before
  have hincludes : Invocation.Includes setting line "q.c".toList :=
    ⟨_, Operand.walk_ofArguments _, by decide⟩
  have hpath : ¬ EndsAsIncluded "q.c".toList := by
    rintro (h | h | h) <;> exact absurd h (by decide)
  obtain ⟨-, -, -, hfails⟩ := fails_of_foreign_include [header]
  obtain ⟨error, -, -, hscan⟩ := hfails setting [.scan (lines.take 3)] (lines.drop 3) "/w".toList
    line "q.c".toList (by decide) (by decide) (by decide) hincludes rfl hpath
  refine ⟨hincludes, hpath, by decide, ?_⟩
  exact (hscan (lines.drop 3 ++ [line]) [] (by decide)).2

end Transcript
end BuildLog
