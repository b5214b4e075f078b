import BuildLog.Proofs.Command.Recognition
import BuildLog.Proofs.Header.Registry
import BuildLog.Proofs.Invocation.Walk
import BuildLog.Proofs.Path
import BuildLog.Proofs.Transcript.Steps

/-! Where the characters of a record come from. Arguments are cut out of a line, headers are
arguments of earlier lines, and what quoting and normalizing add is plain punctuation. So a record
holds no line feed if no line does. -/
namespace BuildLog

variable {c : Char}

namespace Command

theorem mem_of_mem_escape {text : Text} (h : c ∈ escape text) : c ∈ text ∨ c = '\\' := by
  induction text with
  | nil => cases h
  | cons d text ih =>
    rw [escape] at h
    split at h
    · rcases List.mem_cons.mp h with h | h
      · exact .inr h
      rcases List.mem_cons.mp h with h | h
      · exact .inl (h ▸ List.mem_cons_self)
      · exact (ih h).imp_left (List.mem_cons_of_mem d)
    · rcases List.mem_cons.mp h with h | h
      · exact .inl (h ▸ List.mem_cons_self)
      · exact (ih h).imp_left (List.mem_cons_of_mem d)

theorem mem_of_mem_quote {argument : Text} (h : c ∈ quote argument) :
    c ∈ argument ∨ needsQuotes c = true := by
  unfold quote at h
  split at h
  · rcases List.mem_append.mp h with h | h
    · rcases List.mem_cons.mp h with rfl | h
      · exact .inr rfl
      · refine (mem_of_mem_escape h).imp_right ?_
        rintro rfl
        rfl
    · rw [List.mem_singleton.mp h]
      exact .inr rfl
  · exact .inl h

theorem mem_of_mem_render {arguments : List Text} (h : c ∈ render arguments) :
    (∃ argument ∈ arguments, c ∈ argument) ∨ needsQuotes c = true := by
  obtain h | ⟨quoted, hquoted, h⟩ := Text.exists_of_mem_join h
  · rw [List.mem_singleton.mp h]
    exact .inr rfl
  · obtain ⟨argument, hargument, rfl⟩ := List.mem_map.mp hquoted
    exact (mem_of_mem_quote h).imp_left fun h => ⟨argument, hargument, h⟩

theorem mem_of_mem_argument {line argument : Text} (h : c ∈ argument)
    (hargument : argument ∈ arguments line) : c ∈ line ∨ c = ' ' := by
  unfold arguments at hargument
  split at hargument
  · obtain ⟨piece, hpiece, rfl⟩ := List.mem_map.mp hargument
    obtain ⟨d, hd, rfl⟩ := List.mem_map.mp (Text.mem_of_mem_strip h)
    split
    · exact .inr rfl
    next hmark =>
      have hline := Text.mem_of_mem_piece hd (List.mem_filter.mp hpiece).1
      exact .inl ((mem_of_mem_markSpaces hline).resolve_right hmark)
  · unfold plainArguments at hargument
    dsimp only at hargument
    split at hargument
    · cases hargument
    · obtain ⟨piece, hpiece, rfl⟩ := List.mem_map.mp hargument
      exact .inl (Text.mem_of_mem_strip (Text.mem_of_mem_piece (Text.mem_of_mem_strip h) hpiece))

end Command

namespace Header

theorem Build.source_mem {arguments : List Text} {build : Build}
    (h : ofArguments? arguments = some build) : build.source ∈ arguments := by
  unfold ofArguments? at h
  split at h
  next output source _ hsource =>
    split at h
    · cases h
    · cases h
      obtain ⟨⟨flag, source⟩, hlast, rfl⟩ := Option.map_eq_some_iff.mp hsource
      have hneighbours := (List.mem_filter.mp (List.mem_of_getLast? hlast)).1
      exact List.mem_of_mem_tail (List.of_mem_zip hneighbours).2
  next => cases h

namespace Registry

def IsOneLine (registry : Registry) : Prop := ∀ build ∈ registry.builds, '\n' ∉ build.source

theorem isOneLine_empty : empty.IsOneLine := fun _ h => absurd h List.not_mem_nil

theorem IsOneLine.insert {registry : Registry} (h : registry.IsOneLine) {build : Build}
    (hbuild : '\n' ∉ build.source) : (registry.insert build).IsOneLine := by
  intro other hother
  rcases List.mem_cons.mp hother with rfl | hother
  · exact hbuild
  · exact h other (List.mem_filter.mp hother).1

theorem IsOneLine.resolve {registry : Registry} (h : registry.IsOneLine) {path source : Text}
    (hsource : registry.resolve path = some source) : '\n' ∉ source := by
  have hget {output : Text} (hget : registry.get? output = some source) : '\n' ∉ source := by
    obtain ⟨build, hfound, rfl⟩ := Option.map_eq_some_iff.mp hget
    exact h build (List.mem_of_find?_eq_some hfound)
  unfold Registry.resolve at hsource
  simp only [Option.orElse_eq_orElse, Option.orElse_eq_or, Option.or_eq_some_iff] at hsource
  obtain hsource | ⟨-, hsource | ⟨-, hsource⟩⟩ := hsource <;> exact hget hsource

end Registry
end Header

structure Record.IsOneLine (record : Record) : Prop where
  file : '\n' ∉ record.file
  command : '\n' ∉ record.command

namespace Invocation

variable {setting : Setting} {registry : Header.Registry} {directory line : Text} {record : Record}

theorem not_mem_of_mem_keptArguments (hline : '\n' ∉ line) {argument : Text}
    (h : argument ∈ keptArguments setting line) : '\n' ∉ argument := by
  have hkept : argument ∈ Command.arguments line := by
    unfold keptArguments at h
    split at h
    · cases h
    next first rest harguments =>
      rw [harguments]
      split at h
      · exact List.mem_cons_of_mem first h
      · exact h
  intro hc
  exact (Command.mem_of_mem_argument hc hkept).elim hline (by decide)

theorem not_mem_headerFor (hregistry : registry.IsOneLine) {path : Text} (hpath : '\n' ∉ path) :
    '\n' ∉ headerFor setting registry path := by
  unfold headerFor
  split
  · exact hpath
  · cases hsource : registry.resolve path with
    | none => exact hpath
    | some source => exact hregistry.resolve hsource

theorem isOneLine_resolvedRecord (hregistry : registry.IsOneLine) {operands : List Operand}
    (hoperands : ∀ operand ∈ operands, ∀ argument ∈ operand.arguments, '\n' ∉ argument) :
    (resolvedRecord setting registry directory operands).IsOneLine where
  file := by
    intro h
    obtain h | h | h := Path.mem_of_mem_normalize h
    · cases hlast : (operands.filterMap Operand.source?).getLast? with
      | none =>
        rw [hlast] at h
        cases h
      | some path =>
        rw [hlast] at h
        obtain ⟨operand, hoperand, hpath⟩ := List.mem_filterMap.mp (List.mem_of_getLast? hlast)
        cases operand with
        | source source =>
          cases hpath
          exact hoperands _ hoperand path (by simp [Operand.arguments]) h
        | header | other => cases hpath
    · cases h
    · cases h
  command := by
    intro h
    obtain ⟨argument, hargument, hc⟩ | h := Command.mem_of_mem_render h
    · obtain ⟨substituted, hsubstituted, hargument⟩ := List.mem_flatMap.mp hargument
      obtain ⟨operand, hoperand, rfl⟩ := List.mem_map.mp hsubstituted
      cases operand with
      | header path =>
        have hpath : '\n' ∉ path := hoperands _ hoperand path (by simp [Operand.arguments])
        rcases List.mem_cons.mp hargument with rfl | hargument
        · exact absurd hc (by decide)
        · rw [List.mem_singleton.mp hargument] at hc
          exact not_mem_headerFor hregistry hpath hc
      | source path => exact hoperands _ hoperand argument hargument hc
      | other other => exact hoperands _ hoperand argument hargument hc
    · cases h

theorem isOneLine_record (hline : '\n' ∉ line) (hregistry : registry.IsOneLine)
    (h : Invocation.record setting registry directory line = .ok record) : record.IsOneLine := by
  rw [record_eq] at h
  dsimp only at h
  split at h
  · cases h
  · cases h
    apply isOneLine_resolvedRecord hregistry
    intro operand hoperand argument hargument
    apply not_mem_of_mem_keptArguments hline
    exact (Operand.walk_ofArguments _).subset (List.mem_flatMap.mpr ⟨operand, hoperand, hargument⟩)

end Invocation

namespace Transcript

variable {setting : Setting} {scanner next : Scanner} {line : Text} {event : Event}

theorem Step.isOneLine (h : Step setting scanner line next event) (hline : '\n' ∉ line)
    (hregistry : scanner.registry.IsOneLine) :
    next.registry.IsOneLine ∧ ∀ record ∈ event.record?, record.IsOneLine := by
  cases h with
  | registered hi hr =>
    obtain ⟨build, hbuild, rfl⟩ := Header.Registry.exists_build_of_register? hr
    refine ⟨hregistry.insert ?_, nofun⟩
    intro hc
    have hsource := Header.Build.source_mem hbuild
    exact (Command.mem_of_mem_argument hc hsource).elim hline (by decide)
  | compiled hi hr =>
    refine ⟨hregistry, ?_⟩
    rintro record ⟨⟩
    exact Invocation.isOneLine_record hline hregistry hr
  | stray | begins | directory | passed | abandoned | rejected | failed => exact ⟨hregistry, nofun⟩

/-- No record of a run over lines holds a line feed. -/
theorem isOneLine_of_mem_records {lines : List Text} (hlines : ∀ line ∈ lines, '\n' ∉ line)
    (hregistry : scanner.registry.IsOneLine) {record : Record}
    (h : record ∈ (scanner.feedAll setting lines).records) : record.IsOneLine := by
  have hkept : ∀ line ∈ lines, ∀ before after event, Step setting before line after event →
      before.registry.IsOneLine → after.registry.IsOneLine := by
    intro line hline before after event hstep hbefore
    exact (hstep.isOneLine (hlines line hline) hbefore).1
  obtain ⟨line, hline, before, after, hstep, hbefore⟩ :=
    exists_step_of_mem_records hkept hregistry h
  exact (hstep.isOneLine (hlines line hline) hbefore).2 record rfl

end Transcript
end BuildLog
