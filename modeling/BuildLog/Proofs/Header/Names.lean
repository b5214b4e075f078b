import BuildLog.Proofs.Header.History

/-! The names under which a header can be found. A registry knows outputs of builds only, so a path
leads to a header only if one of the names that it stands for is fit for such an output. A build
tells of no empty source, so neither does a registry. -/
namespace BuildLog.Header

namespace Build

variable {path output source : Text}

/-- Whether a path has the name of a precompiled header, whole or without its last suffix. -/
def EndsAsIncluded (path : Text) : Prop :=
  ".pch".toList <:+ path ∨ ".h".toList <:+ path ∨ ".pch.pth".toList <:+ path

/-- The names that a path stands for when it is included. -/
def StandsFor (path output : Text) : Prop :=
  output = path ++ ".pth".toList ∨ output = path ++ ".pch".toList ∨ output = path

theorem endsAsOutput_append_pth :
    EndsAsOutput (path ++ ".pth".toList) ↔ ".pch".toList <:+ path := by
  simp [EndsAsOutput, ← List.reverse_prefix, List.cons_prefix_cons]

theorem endsAsOutput_append_pch :
    EndsAsOutput (path ++ ".pch".toList) ↔ ".pch".toList <:+ path ∨ ".h".toList <:+ path := by
  simp [EndsAsOutput, ← List.reverse_prefix, List.cons_prefix_cons]

theorem EndsAsOutput.endsAsIncluded (h : EndsAsOutput path) : EndsAsIncluded path := by
  obtain h | h | h := h
  · exact .inr (.inr h)
  · exact .inl (List.IsSuffix.trans (by decide) h)
  · exact .inl (List.IsSuffix.trans (by decide) h)

theorem endsAsIncluded_iff :
    EndsAsIncluded path ↔ ∃ output, StandsFor path output ∧ EndsAsOutput output := by
  constructor
  · rintro (h | h | h)
    · exact ⟨_, .inl rfl, endsAsOutput_append_pth.mpr h⟩
    · exact ⟨_, .inr (.inl rfl), endsAsOutput_append_pch.mpr (.inr h)⟩
    · exact ⟨_, .inr (.inr rfl), .inl h⟩
  · rintro ⟨output, rfl | rfl | rfl, h⟩
    · exact .inl (endsAsOutput_append_pth.mp h)
    · exact (endsAsOutput_append_pch.mp h).imp_right .inl
    · exact h.endsAsIncluded

theorem exists_describes (houtput : EndsAsOutput output) (hsource : source ≠ []) :
    ∃ arguments, Describes arguments ⟨output, source⟩ := by
  have hflag : output ≠ "-o".toList := by
    rintro rfl
    obtain h | h | h := houtput <;> exact absurd h (by decide)
  refine ⟨["-o".toList, output, "-c".toList, source],
    ⟨[], ["-c".toList, source], rfl, houtput, ?_⟩, ⟨["-o".toList, output], [], rfl, trivial, ?_⟩,
    hsource⟩
  · rintro (_ | ⟨first, _ | ⟨second, earlier⟩⟩) other later hlater
    · exact absurd (List.cons.inj hlater).1 hflag
    · exact absurd (List.cons.inj (List.cons.inj hlater).2).1 (by decide)
    · have hlength := congrArg List.length hlater
      simp at hlength
      omega
  · intro earlier other later hlater
    have hlength := congrArg List.length hlater
    simp at hlength
    omega

end Build

namespace Registry

variable {calls : List (List Text)} {path source : Text}

open Build (Describes EndsAsOutput EndsAsIncluded StandsFor)

theorem exists_describes_of_resolve (h : (ofCalls calls).resolve path = some source) :
    ∃ arguments ∈ calls, ∃ output,
      StandsFor path output ∧ Describes arguments ⟨output, source⟩ := by
  have hlatest {output : Text} (hname : StandsFor path output)
      (h : LatestSource calls output source) : ∃ arguments ∈ calls, ∃ output,
        StandsFor path output ∧ Describes arguments ⟨output, source⟩ := by
    obtain ⟨before, arguments, after, rfl, hdescribes, -⟩ := h
    exact ⟨arguments, by simp, output, hname, hdescribes⟩
  obtain h | ⟨-, h | ⟨-, h⟩⟩ := resolve_ofCalls.mp h
  · exact hlatest (.inl rfl) h
  · exact hlatest (.inr (.inl rfl)) h
  · exact hlatest (.inr (.inr rfl)) h

theorem isSome_resolve_of_builds {output : Text} (hname : StandsFor path output)
    (hbuilds : Builds calls output) : ∃ source, (ofCalls calls).resolve path = some source := by
  rw [← Option.ne_none_iff_exists', ne_eq, resolve_ofCalls_eq_none]
  rintro ⟨hpth, hpch, hself⟩
  obtain rfl | rfl | rfl := hname
  · exact hpth hbuilds
  · exact hpch hbuilds
  · exact hself hbuilds

/-- Which paths lead to which headers in some registry. -/
theorem exists_resolve_iff : (∃ calls, (ofCalls calls).resolve path = some source) ↔
    EndsAsIncluded path ∧ source ≠ [] := by
  constructor
  · rintro ⟨calls, h⟩
    obtain ⟨arguments, -, output, hname, hdescribes⟩ := exists_describes_of_resolve h
    have houtput : EndsAsOutput output := hdescribes.output.fit
    exact ⟨Build.endsAsIncluded_iff.mpr ⟨output, hname, houtput⟩, hdescribes.source_ne_nil⟩
  · rintro ⟨hpath, hsource⟩
    obtain ⟨output, hname, houtput⟩ := Build.endsAsIncluded_iff.mp hpath
    obtain ⟨arguments, hdescribes⟩ := Build.exists_describes houtput hsource
    have hbuilds : Builds [arguments] output := ⟨arguments, List.mem_cons_self, source, hdescribes⟩
    obtain ⟨found, hfound⟩ := isSome_resolve_of_builds hname hbuilds
    obtain ⟨call, hcall, other, -, hother⟩ := exists_describes_of_resolve hfound
    rw [List.mem_singleton.mp hcall] at hother
    have hsame : found = source := congrArg Build.source (hdescribes.unique hother)
    exact ⟨[arguments], hsame ▸ hfound⟩

end Registry
end BuildLog.Header
