import BuildLog.Header.Build
import Mathlib.Tactic.Common

/-! What the arguments of an invocation say about a build, told by rules. A flag may stand several
times, and may be the value of another flag; what counts is the last argument behind it that is
fit. -/
namespace BuildLog.Header.Build

/-- Of the arguments behind a flag the last one that is fit. -/
def LastValue (flag : Text) (fit : Text → Prop) (arguments : List Text) (value : Text) : Prop :=
  ∃ before after, arguments = before ++ flag :: value :: after ∧ fit value ∧
    ∀ earlier other later, value :: after = earlier ++ flag :: other :: later → ¬ fit other

theorem LastValue.isInfix {flag value : Text} {fit : Text → Prop} {arguments : List Text}
    (h : LastValue flag fit arguments value) : [flag, value] <:+: arguments := by
  obtain ⟨before, after, rfl, -⟩ := h
  exact ⟨before, after, by simp⟩

theorem LastValue.fit {flag value : Text} {fit : Text → Prop} {arguments : List Text}
    (h : LastValue flag fit arguments value) : fit value := by
  obtain ⟨-, -, -, hfit, -⟩ := h
  exact hfit

def EndsAsOutput (argument : Text) : Prop :=
  ".pch.pth".toList <:+ argument ∨ ".pch.pch".toList <:+ argument ∨ ".h.pch".toList <:+ argument

structure Describes (arguments : List Text) (build : Build) : Prop where
  output : LastValue "-o".toList EndsAsOutput arguments build.output
  source : LastValue "-c".toList (fun _ => True) arguments build.source
  source_ne_nil : build.source ≠ []

theorem isOutput_iff {argument : Text} : isOutput argument = true ↔ EndsAsOutput argument := by
  simp [isOutput, suffixes, EndsAsOutput]

theorem neighbours_append_cons_cons (before : List Text) (first second : Text)
    (after : List Text) :
    neighbours (before ++ first :: second :: after) =
      neighbours (before ++ [first]) ++ (first, second) :: neighbours (second :: after) := by
  induction before with
  | nil => rfl
  | cons argument before ih =>
    cases before with
    | nil => rfl
    | cons next before =>
      have hcons (rest : List Text) : neighbours (argument :: next :: rest) =
          (argument, next) :: neighbours (next :: rest) := rfl
      simp only [List.cons_append, hcons] at ih ⊢
      rw [ih]

theorem exists_of_neighbours_eq {arguments : List Text} {before after : List (Text × Text)}
    {first second : Text} (h : neighbours arguments = before ++ (first, second) :: after) :
    ∃ front rest, arguments = front ++ first :: second :: rest ∧
      after = neighbours (second :: rest) := by
  induction before generalizing arguments with
  | nil =>
    match arguments, h with
    | a :: b :: rest, h =>
      cases h
      exact ⟨[], rest, rfl, rfl⟩
  | cons pair before ih =>
    match arguments, h with
    | a :: b :: rest, h =>
      have hrest : neighbours (b :: rest) = before ++ (first, second) :: after :=
        (List.cons.inj h).2
      obtain ⟨front, rest', hsplit, hafter⟩ := ih hrest
      exact ⟨a :: front, rest', congrArg (a :: ·) hsplit, hafter⟩

theorem mem_neighbours_iff {arguments : List Text} {first second : Text} :
    (first, second) ∈ neighbours arguments ↔
      ∃ before after, arguments = before ++ first :: second :: after := by
  constructor
  · intro h
    obtain ⟨before, after, hsplit⟩ := List.append_of_mem h
    obtain ⟨front, rest, harguments, -⟩ := exists_of_neighbours_eq hsplit
    exact ⟨front, rest, harguments⟩
  · rintro ⟨before, after, rfl⟩
    rw [neighbours_append_cons_cons]
    exact List.mem_append_right _ List.mem_cons_self

theorem getLast?_filter_neighbours_iff {flag value : Text} {fit : Text → Prop}
    {chosen : Text × Text → Bool}
    (hchosen : ∀ pair, chosen pair = true ↔ pair.1 = flag ∧ fit pair.2) (arguments : List Text) :
    ((neighbours arguments).filter chosen).getLast?.map Prod.snd = some value ↔
      LastValue flag fit arguments value := by
  -- from behind, the last chosen pair is the first one that is met
  have hlast {pair : Text × Text} :
      ((neighbours arguments).filter chosen).getLast? = some pair ↔
        chosen pair = true ∧ ∃ before after, neighbours arguments = before ++ pair :: after ∧
          ∀ other ∈ after, chosen other = false := by
    rw [List.getLast?_filter, List.find?_eq_some_iff_append]
    refine and_congr_right fun _ => ⟨?_, ?_⟩
    · rintro ⟨after, before, hsplit, hafter⟩
      refine ⟨before.reverse, after.reverse, ?_, ?_⟩
      · rw [← List.reverse_reverse (neighbours arguments), hsplit]
        simp
      · simpa using hafter
    · rintro ⟨before, after, hsplit, hafter⟩
      refine ⟨after.reverse, before.reverse, ?_, ?_⟩
      · rw [hsplit]
        simp
      · simpa using hafter
  rw [Option.map_eq_some_iff]
  constructor
  · rintro ⟨⟨first, second⟩, h, rfl⟩
    obtain ⟨hpair, before, after, hsplit, hafter⟩ := hlast.mp h
    obtain ⟨hfirst, hfit⟩ := (hchosen _).mp hpair
    cases hfirst
    obtain ⟨front, rest, harguments, rfl⟩ := exists_of_neighbours_eq hsplit
    refine ⟨front, rest, harguments, hfit, ?_⟩
    intro earlier other later hlater hother
    have hmem : (first, other) ∈ neighbours (second :: rest) :=
      mem_neighbours_iff.mpr ⟨earlier, later, hlater⟩
    exact Bool.eq_false_iff.mp (hafter _ hmem) ((hchosen _).mpr ⟨rfl, hother⟩)
  · rintro ⟨before, after, rfl, hfit, hlater⟩
    refine ⟨(flag, value), hlast.mpr ⟨(hchosen _).mpr ⟨rfl, hfit⟩, _, _,
      neighbours_append_cons_cons before flag value after, ?_⟩, rfl⟩
    rintro ⟨first, other⟩ hmem
    refine Bool.eq_false_iff.mpr fun hother => ?_
    obtain ⟨rfl, hother⟩ := (hchosen _).mp hother
    obtain ⟨earlier, later, hsplit⟩ := mem_neighbours_iff.mp hmem
    exact hlater earlier other later hsplit hother

theorem output?_eq_some_iff {arguments : List Text} {output : Text} :
    output? arguments = some output ↔ LastValue "-o".toList EndsAsOutput arguments output :=
  getLast?_filter_neighbours_iff (by simp [isOutput_iff]) arguments

theorem exists_output? {arguments : List Text} {output : Text}
    (hflag : ["-o".toList, output] <:+: arguments) (houtput : EndsAsOutput output) :
    ∃ last, output? arguments = some last := by
  obtain ⟨before, after, rfl⟩ := hflag
  have hmem : ("-o".toList, output) ∈ neighbours (before ++ ["-o".toList, output] ++ after) :=
    mem_neighbours_iff.mpr ⟨before, after, by simp⟩
  cases hlast : output? (before ++ ["-o".toList, output] ++ after) with
  | some last => exact ⟨last, rfl⟩
  | none =>
    rw [output?, Option.map_eq_none_iff, List.getLast?_eq_none_iff, List.filter_eq_nil_iff] at hlast
    exact absurd (decide_eq_true ⟨rfl, isOutput_iff.mpr houtput⟩) (hlast _ hmem)

theorem source?_eq_some_iff {arguments : List Text} {source : Text} :
    source? arguments = some source ↔
      LastValue "-c".toList (fun _ => True) arguments source :=
  getLast?_filter_neighbours_iff (by simp) arguments

theorem ofArguments?_eq_some_iff {arguments : List Text} {build : Build} :
    ofArguments? arguments = some build ↔ Describes arguments build := by
  constructor
  · intro h
    unfold ofArguments? at h
    split at h
    next output source houtput hsource =>
      split at h
      · cases h
      next hne =>
        cases h
        exact ⟨output?_eq_some_iff.mp houtput, source?_eq_some_iff.mp hsource, hne⟩
    next => cases h
  · rintro ⟨houtput, hsource, hne⟩
    unfold ofArguments?
    rw [output?_eq_some_iff.mpr houtput, source?_eq_some_iff.mpr hsource]
    exact if_neg hne

theorem Describes.unique {arguments : List Text} {build other : Build}
    (h : Describes arguments build) (hother : Describes arguments other) : other = build := by
  rw [← ofArguments?_eq_some_iff] at h hother
  exact Option.some.inj (hother.symm.trans h)

theorem Describes.not_of_output_ne {arguments : List Text} {build : Build} {output : Text}
    (h : Describes arguments build) (hne : build.output ≠ output) (source : Text) :
    ¬ Describes arguments ⟨output, source⟩ :=
  fun hother => hne (congrArg Build.output (hother.unique h))

end BuildLog.Header.Build
