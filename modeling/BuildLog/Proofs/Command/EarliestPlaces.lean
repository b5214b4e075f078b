import BuildLog.Proofs.Command.Pattern
import BuildLog.Proofs.Text.Matching
import Mathlib.Order.Nat

/-! The recognizer of invocations, as a pattern for a matcher that backtracks and as a search that
never goes back. The pattern lets a matcher choose among all driver's names and all flags behind
them; the search commits itself to the first place of each. It loses nothing: what can stand behind
a later place can stand behind an earlier one. -/
namespace BuildLog.Command

open Text (Pattern)

/-- A driver's name and a space, whatever ends in a space or nothing at all, the flag of the source,
whatever follows, and the flag of the output. -/
def invocationPattern : Pattern :=
  .followedBy (.oneOf driverNames) <| .followedBy (.literal [' ']) <|
    .followedBy (.optional (.followedBy .anything (.literal [' ']))) <|
      .followedBy (.literal "-c ".toList) <|
        .followedBy .anything (.literal " -o ".toList)

def HoldsInvocation (text : Text) : Prop :=
  ∃ before, ∃ name ∈ driverNames, ∃ between operands after,
    text =
      before ++ name ++ [' '] ++ between ++ "-c ".toList ++ operands ++ " -o ".toList ++ after ∧
    (between = [] ∨ between.getLast? = some ' ') ∧ '\n' ∉ between ∧ '\n' ∉ operands

/-- Whether a driver's name ends at a place and a space follows. A place is the number of characters
before it. -/
def EndsDriver (text : Text) (place : Nat) : Prop :=
  ∃ before, ∃ name ∈ driverNames, ∃ rest,
    text = before ++ name ++ ' ' :: rest ∧ (before ++ name).length = place

def BeginsSource (text : Text) (place : Nat) : Prop :=
  ∃ before rest, text = before ++ [' '] ++ "-c ".toList ++ rest ∧ (before ++ [' ']).length = place

def BeginsOutput (text : Text) (place : Nat) : Prop :=
  ∃ before rest, text = before ++ " -o ".toList ++ rest ∧ before.length = place

/-- Places at which a search without going back finds what it looks for: the first end of a driver's
name, the first flag of the source from there on, and some flag of the output that does not share a
space with it. -/
structure FoundInOrder (text : Text) (nameEnd flag output : Nat) : Prop where
  name : IsLeast {place | EndsDriver text place} nameEnd
  source : IsLeast {place | nameEnd ≤ place ∧ BeginsSource text place} flag
  output : flag + "-c ".toList.length ≤ output ∧ BeginsOutput text output

theorem matches_between_iff {text : Text} :
    (Pattern.optional (.followedBy .anything (.literal [' ']))).Matches text ↔
      (text = [] ∨ text.getLast? = some ' ') ∧ '\n' ∉ text := by
  simp only [Pattern.Matches, Pattern.matches_literal, List.getLast?_eq_some_iff]
  constructor
  · rintro (⟨front, _, rfl, hfree, rfl⟩ | rfl)
    · exact ⟨.inr ⟨front, rfl⟩, by simp [hfree]⟩
    · simp
  · rintro ⟨rfl | ⟨front, rfl⟩, hfree⟩
    · exact .inr rfl
    · exact .inl ⟨front, [' '], rfl, fun h => hfree (List.mem_append_left _ h), rfl⟩

theorem occursIn_invocationPattern_iff {text : Text} :
    invocationPattern.occursIn text = true ↔ HoldsInvocation text := by
  rw [Pattern.occursIn_iff]
  unfold invocationPattern HoldsInvocation
  constructor
  · rintro ⟨_, ⟨name, _, rfl, hname, _, _, rfl, hspace, between, _, rfl, hbetween, _, _, rfl,
      hsource, operands, _, rfl, hoperands, houtput⟩, before, after, rfl⟩
    obtain ⟨hend, hfree⟩ := matches_between_iff.mp hbetween
    rw [Pattern.matches_literal] at hspace hsource houtput
    refine ⟨before, name, hname, between, operands, after, ?_, hend, hfree, hoperands⟩
    simp only [hspace, hsource, houtput, List.append_assoc]
  · rintro ⟨before, name, hname, between, operands, after, rfl, hend, hfree, hoperands⟩
    refine ⟨name ++ ([' '] ++ (between ++ ("-c ".toList ++ (operands ++ " -o ".toList)))), ?_,
      before, after, by simp only [List.append_assoc]⟩
    exact ⟨_, _, rfl, hname, _, _, rfl, Pattern.matches_literal.mpr rfl, _, _, rfl,
      matches_between_iff.mpr ⟨hend, hfree⟩, _, _, rfl, Pattern.matches_literal.mpr rfl,
      _, _, rfl, hoperands, Pattern.matches_literal.mpr rfl⟩

theorem isInvocation_iff_holdsInvocation {text : Text} :
    isInvocation text = true ↔ HoldsInvocation text := by
  rw [isInvocation_iff]
  unfold HoldsInvocation
  simp only [List.append_assoc, List.cons_append, List.nil_append]

theorem HoldsInvocation.of_isInfix {part text : Text} (h : HoldsInvocation part)
    (hpart : part <:+: text) : HoldsInvocation text := by
  rw [← occursIn_invocationPattern_iff, Pattern.occursIn_iff] at *
  obtain ⟨taken, htaken, hinfix⟩ := h
  exact ⟨taken, htaken, hinfix.trans hpart⟩

section
variable {text : Text} {nameEnd flag output : Nat}

theorem exists_foundInOrder (hname : EndsDriver text nameEnd) (hflag : BeginsSource text flag)
    (houtput : BeginsOutput text output) (hbehind : nameEnd ≤ flag)
    (hapart : flag + "-c ".toList.length ≤ output) :
    ∃ firstEnd firstFlag, FoundInOrder text firstEnd firstFlag output := by
  classical
  obtain ⟨firstEnd, hend⟩ : ∃ firstEnd, IsLeast {place | EndsDriver text place} firstEnd :=
    ⟨_, Nat.isLeast_find ⟨nameEnd, hname⟩⟩
  have hstill : firstEnd ≤ flag ∧ BeginsSource text flag := ⟨(hend.2 hname).trans hbehind, hflag⟩
  obtain ⟨firstFlag, hfirst⟩ :
      ∃ firstFlag, IsLeast {place | firstEnd ≤ place ∧ BeginsSource text place} firstFlag :=
    ⟨_, Nat.isLeast_find ⟨flag, hstill⟩⟩
  have hearlier : firstFlag ≤ flag := hfirst.2 hstill
  exact ⟨firstEnd, firstFlag, hend, hfirst, (Nat.add_le_add_right hearlier _).trans hapart,
    houtput⟩

theorem exists_between {before rest front behind : Text}
    (h : before ++ ' ' :: rest = front ++ [' '] ++ "-c ".toList ++ behind)
    (hlength : before.length ≤ (front ++ [' ']).length) :
    ∃ between, rest = between ++ "-c ".toList ++ behind ∧
      (between = [] ∨ between.getLast? = some ' ') := by
  have hprefix : front ++ [' '] <+: before ++ ' ' :: rest := by
    rw [h, List.append_assoc (front ++ [' '])]
    exact List.prefix_append _ _
  obtain ⟨skipped, hskipped⟩ :=
    List.prefix_of_prefix_length_le (List.prefix_append before _) hprefix hlength
  rw [← hskipped, List.append_assoc, List.append_assoc, List.append_cancel_left_eq] at h
  cases skipped with
  | nil => cases (List.cons.inj h).1
  | cons c between =>
    obtain ⟨rfl, rfl⟩ := List.cons.inj h
    refine ⟨between, (List.append_assoc _ _ _).symm, or_iff_not_imp_left.mpr fun hne => ?_⟩
    have hlast := congrArg List.getLast? hskipped
    rw [List.getLast?_concat, List.append_cons, List.getLast?_append_of_ne_nil _ hne] at hlast
    exact hlast

/-- What the search has found is written in its order. -/
theorem FoundInOrder.exists_parts (h : FoundInOrder text nameEnd flag output) :
    ∃ before, ∃ name ∈ driverNames, ∃ between operands after,
      text = before ++ (name ++ ' ' ::
        (between ++ "-c ".toList ++ operands ++ " -o ".toList ++ after)) ∧
      (between = [] ∨ between.getLast? = some ' ') := by
  obtain ⟨before, name, hname, rest, htext, rfl⟩ := h.name.1
  obtain ⟨hbehind, front, behind, hsource, rfl⟩ := h.source.1
  obtain ⟨hapart, start, after, houtput, rfl⟩ := h.output
  obtain ⟨between, rfl, hbetween⟩ := exists_between (htext.symm.trans hsource) hbehind
  -- the flag of the output begins behind the other one, so what is before it begins with that one
  have hprefix : front ++ [' '] ++ "-c ".toList <+: start := by
    refine List.prefix_of_prefix_length_le (hsource ▸ List.prefix_append _ _)
      (houtput ▸ ?_) (by rwa [List.length_append])
    rw [List.append_assoc]
    exact List.prefix_append _ _
  obtain ⟨operands, rfl⟩ := hprefix
  have hrest : behind = operands ++ " -o ".toList ++ after := by
    have hboth := hsource.symm.trans houtput
    simpa only [List.append_assoc, List.append_cancel_left_eq] using hboth
  refine ⟨before, name, hname, between, operands, after, ?_, hbetween⟩
  rw [htext, hrest]
  simp only [List.append_assoc]

theorem runsDriver_iff_foundInOrder :
    runsDriver text = true ↔ ∃ nameEnd flag output, FoundInOrder text nameEnd flag output := by
  rw [runsDriver_iff]
  constructor
  · rintro ⟨before, name, hname, between, operands, after, htext, hbetween⟩
    obtain ⟨front, hfront⟩ := exists_concat_space hbetween
    have hend : EndsDriver text (before ++ name).length :=
      ⟨before, name, hname, _, by rw [htext, List.append_assoc before name], rfl⟩
    have hflag : BeginsSource text (before ++ name ++ front ++ [' ']).length := by
      refine ⟨before ++ name ++ front, operands ++ " -o ".toList ++ after, ?_, rfl⟩
      rw [List.append_assoc (before ++ name), ← hfront, htext]
      simp only [List.append_assoc, List.cons_append]
    have houtput : BeginsOutput text
        (before ++ name ++ front ++ [' '] ++ "-c ".toList ++ operands).length := by
      refine ⟨_, after, ?_, rfl⟩
      rw [List.append_assoc (before ++ name), ← hfront, htext]
      simp only [List.append_assoc, List.cons_append]
    obtain ⟨firstEnd, firstFlag, hfound⟩ := exists_foundInOrder hend hflag houtput
      (by simp only [List.length_append]; omega) (by simp only [List.length_append]; omega)
    exact ⟨firstEnd, firstFlag, _, hfound⟩
  · rintro ⟨nameEnd, flag, output, h⟩
    exact h.exists_parts

end

theorem isInvocation_iff_exists_segment {line : Text} :
    isInvocation line = true ↔
      ∃ segment ∈ line.splitOn '\n', ∃ nameEnd flag output,
        FoundInOrder segment nameEnd flag output := by
  simp only [isInvocation, List.any_eq_true, runsDriver_iff_foundInOrder]

/-- A line is an invocation if a matcher that backtracks finds the pattern in it, which is so if it
is written the pattern's way. The search that takes the first place of each part of the pattern
finds the same lines, be it made between the line feeds or in any part of a line without one. -/
theorem occursIn_invocationPattern (line : Text) :
    isInvocation line = invocationPattern.occursIn line ∧
      (invocationPattern.occursIn line = true ↔ HoldsInvocation line) ∧
      (HoldsInvocation line ↔ ∃ segment ∈ line.splitOn '\n', ∃ nameEnd flag output,
        FoundInOrder segment nameEnd flag output) ∧
      (HoldsInvocation line ↔ ∃ segment, segment <:+: line ∧ '\n' ∉ segment ∧
        ∃ nameEnd flag output, FoundInOrder segment nameEnd flag output) := by
  have hpieces : HoldsInvocation line ↔ _ :=
    isInvocation_iff_holdsInvocation.symm.trans isInvocation_iff_exists_segment
  refine ⟨?_, occursIn_invocationPattern_iff, hpieces, ?_, ?_⟩
  · rw [Bool.eq_iff_iff, isInvocation_iff_holdsInvocation, occursIn_invocationPattern_iff]
  · intro h
    obtain ⟨segment, hsegment, hfound⟩ := hpieces.mp h
    exact ⟨segment, Text.infix_of_mem_splitOn hsegment, Text.not_mem_of_mem_splitOn hsegment,
      hfound⟩
  · rintro ⟨segment, hsegment, hfree, hfound⟩
    have hpiece : segment ∈ segment.splitOn '\n' := by
      rw [List.splitOn_eq_singleton hfree]
      exact List.mem_singleton_self segment
    have hinvocation : isInvocation segment = true :=
      isInvocation_iff_exists_segment.mpr ⟨segment, hpiece, hfound⟩
    exact (isInvocation_iff_holdsInvocation.mp hinvocation).of_isInfix hsegment

example : isInvocation "cc -c -o a".toList = false ∧ isInvocation "cc -c  -o a".toList = true := by
  decide

end BuildLog.Command
