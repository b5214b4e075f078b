import BuildLog.Proofs.Command.Recognition
import BuildLog.Proofs.Command.Words
import BuildLog.Proofs.Path
import BuildLog.Proofs.Transcript.Steps

/-! Which program runs a recognized invocation. A driver's name is looked for in the text of a line,
where it may be the end of a longer word, and so it does not follow that the line has a driver among
its arguments. What follows is that an argument ends in a driver's name. -/
namespace BuildLog

namespace Command

/-- The argument that a driver's name was found at the end of. It is a driver if all of it is the
name, or if a slash comes before the name. -/
structure Recognizes (line front name : Text) : Prop where
  found : ∃ start tail, afterDriver? line = some tail ∧ line = start ++ (front ++ name) ++ tail
  name_mem : name ∈ driverNames
  argument_mem : front ++ name ∈ arguments line
  isDriver_iff : isDriver (front ++ name) = true ↔ front = [] ∨ front.getLast? = some '/'

theorem exists_word_of_afterDriver? {line tail : Text} (h : afterDriver? line = some tail) :
    ∃ start front, ∃ name ∈ driverNames, line = start ++ (front ++ name) ++ tail ∧
      front ++ name ∈ words line := by
  obtain ⟨before, name, hname, rest, rfl, rfl⟩ := exists_name_of_afterDriver? h
  obtain ⟨hspace, -, htight⟩ := of_mem_driverNames hname
  obtain ⟨others, last, ⟨start, rfl⟩, hlast, hwords⟩ := exists_last_piece before
  refine ⟨start ++ last.takeWhile Text.isBlank, last.dropWhile Text.isBlank, name, hname, ?_, ?_⟩
  · conv_lhs => rw [← List.takeWhile_append_dropWhile (p := Text.isBlank) (l := last)]
    simp only [List.append_assoc]
  · have hword : words (last ++ name) = [last.dropWhile Text.isBlank ++ name] := by
      rw [words_of_not_mem (by simp [hlast, hspace]), Text.strip_append_of_tight htight]
      simp [htight.ne_nil]
    rw [words_append_space, hwords, hword]
    simp

theorem exists_recognizes {line : Text} (hplain : line.any isQuoting = false)
    (hline : '\n' ∉ line) (h : isInvocation line = true) :
    ∃ front name, Recognizes line front name := by
  unfold isInvocation at h
  rw [List.splitOn_eq_singleton hline, List.any_cons, List.any_nil, Bool.or_false] at h
  unfold runsDriver at h
  split at h
  · cases h
  next tail htail =>
    obtain ⟨start, front, name, hname, hsplit, hword⟩ := exists_word_of_afterDriver? htail
    have hargument := mem_arguments_of_mem_words hplain hword
    obtain ⟨-, hslash, -⟩ := of_mem_driverNames hname
    by_cases hdriver : isDriver (front ++ name) = true
    · -- the whole base name is a driver's name, of which the one found may be the end
      obtain ⟨directory, hfront, hdirectory⟩ := Path.exists_front_of_baseName (front ++ name)
      refine ⟨directory, Path.baseName (front ++ name), ?_, isDriver_iff.mp hdriver, ?_, ?_⟩
      · exact ⟨start, tail, htail, hfront ▸ hsplit⟩
      · exact hfront ▸ hargument
      · exact hfront ▸ iff_of_true hdriver hdirectory
    · refine ⟨front, name, ⟨start, tail, htail, hsplit⟩, hname, hargument, ?_⟩
      refine iff_of_false hdriver fun hfront => hdriver ?_
      rw [isDriver_iff, Path.baseName_append hslash hfront]
      exact hname

end Command

namespace Transcript

variable {setting : Setting} {scanner next : Scanner} {line : Text} {record : Record}

theorem Step.of_record (h : Step setting scanner line next (.record record)) :
    Command.isInvocation line = true ∧ ∃ directory,
      scanner.phase = .awaitInvocation ⟨.compile, directory⟩ ∧
        Invocation.record setting scanner.registry directory line = .ok record := by
  cases h with
  | compiled hi hr => exact ⟨hi, _, rfl, hr⟩

/-- A line without escapes in which a driver is recognized has an argument that ends in the driver's
name, and the argument is a driver exactly if nothing or a slash comes before the name. Records come
from such lines and from no others. -/
theorem exists_recognizes_of_plain (setting : Setting) (scanner : Scanner) (lines : List Text)
    (hplain : ∀ line ∈ lines, line.any Command.isQuoting = false ∧ '\n' ∉ line) :
    (∀ line ∈ lines, Command.isInvocation line = true →
      ∃ front name, Command.Recognizes line front name) ∧
      ∀ record ∈ (scanner.feedAll setting lines).records, ∃ line ∈ lines,
        (∃ front name, Command.Recognizes line front name) ∧ ∃ registry directory,
          Invocation.record setting registry directory line = .ok record := by
  have hrecognizes : ∀ line ∈ lines, Command.isInvocation line = true →
      ∃ front name, Command.Recognizes line front name := by
    intro line hline h
    exact Command.exists_recognizes (hplain line hline).1 (hplain line hline).2 h
  refine ⟨hrecognizes, ?_⟩
  intro record hrecord
  have hany : ∀ line ∈ lines, ∀ before after event,
      Step setting before line after event → True → True := fun _ _ _ _ _ _ => id
  obtain ⟨line, hline, before, after, hstep, -⟩ :=
    exists_step_of_mem_records hany trivial hrecord
  obtain ⟨h, directory, -, hmade⟩ := hstep.of_record
  exact ⟨line, hline, hrecognizes line hline h, before.registry, directory, hmade⟩

theorem exists_recognizes_of_longer_name :
    let lines := ["nvcc -c a.cu -o a.o".toList]
    (∀ line ∈ lines, line.any Command.isQuoting = false ∧ '\n' ∉ line) ∧
      ∃ front name, Command.Recognizes "nvcc -c a.cu -o a.o".toList front name := by
  intro lines
  have hplain : ∀ line ∈ lines, line.any Command.isQuoting = false ∧ '\n' ∉ line := by decide
  obtain ⟨hrecognizes, -⟩ :=
    exists_recognizes_of_plain ⟨fun _ => false, false⟩ (.start .empty) lines hplain
  exact ⟨hplain, hrecognizes _ List.mem_cons_self (by decide)⟩

/-- A record can come from a program that is not one of the drivers, through the end of its name. -/
theorem exists_record_without_driver :
    let line := "/usr/local/cuda/bin/nvcc -c a.cu -o a.o".toList
    let scanner : Scanner := ⟨.awaitInvocation ⟨.compile, "/w".toList⟩, .empty, .zero⟩
    line.any Command.isQuoting = false ∧ '\n' ∉ line ∧ Command.isInvocation line = true ∧
      (∀ argument ∈ Command.arguments line, Command.isDriver argument = false) ∧
      (scanner.feed ⟨fun _ => false, false⟩ line).2 = .record ⟨"/w".toList, "a.cu".toList,
        "/usr/local/cuda/bin/nvcc -c a.cu -o a.o".toList⟩ := by
  decide

end Transcript
end BuildLog
