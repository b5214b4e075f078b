import BuildLog.Proofs.Database.Contents
import BuildLog.Proofs.Json.Nesting

/-! A database whose writer was interrupted. The bracket that opens the array stays open up to the
one that closes it, whatever the records hold, so what is written before that is never read as a
document. -/
namespace BuildLog.Database

open Json

variable {records : List Record} {text beginning : Text}

theorem eq_of_print_eq (h : print records = text ++ "]\n".toList) :
    text = '[' :: (layoutRecords records ++ ['\n']) := by
  have hprint : print records = '[' :: (layoutRecords records ++ ['\n']) ++ "]\n".toList := by
    rw [print_eq, List.cons_append, List.append_assoc]
    rfl
  exact List.append_cancel_right (h.symm.trans hprint)

theorem run_ne_of_beginning (h : beginning <+: layoutRecords records ++ ['\n']) :
    (Outline.outside 1).run beginning ≠ .outside 0 := by
  have hend : (Outline.outside 1).Passes ['\n'] true (.outside 1) :=
    Outline.passes_of_run rfl nofun nofun
  exact ((passes_layoutRecords records 0).append hend).staysOpen beginning h

/-- A database that stops before its array is closed is no document. -/
theorem exists_error_of_beginning (htext : print records = text ++ "]\n".toList)
    (h : beginning <+: text) : ∃ error, Json.read beginning = .error error := by
  rw [eq_of_print_eq htext] at h
  obtain rfl | ⟨rest, rfl, hrest⟩ := List.prefix_cons_iff.mp h
  · exact ⟨_, rfl⟩
  · cases hread : Json.read ('[' :: rest) with
    | error error => exact ⟨error, rfl⟩
    | ok document => exact absurd (run_of_read_array hread) (run_ne_of_beginning hrest)

/-! A database holds no carriage return, so that its line ends are not touched when it is read. -/

theorem not_mem_layoutRecord (record : Record) : '\r' ∉ layoutRecord record := by
  have hfront : '\r' ∉ "\n  ".toList := by decide
  rw [← flatMap_spread_printRecord]
  intro h
  rcases List.mem_append.mp (show '\r' ∈ "\n  ".toList ++ (printRecord record).flatMap Text.spread
    from h) with h | h
  · exact hfront h
  · obtain ⟨c, hc, h⟩ := List.mem_flatMap.mp h
    unfold Text.spread at h
    split at h
    · exact hfront h
    · rw [← List.mem_singleton.mp h] at hc
      exact not_mem_printRecord record hc

theorem not_mem_layoutRecords (records : List Record) : '\r' ∉ layoutRecords records := by
  have hothers (records : List Record) : '\r' ∉ layoutOthers records := by
    intro h
    obtain ⟨record, -, h⟩ := List.mem_flatMap.mp h
    rcases List.mem_cons.mp h with h | h
    · exact absurd h (by decide)
    · exact not_mem_layoutRecord record h
  cases records with
  | nil => exact List.not_mem_nil
  | cons record rest =>
    exact List.not_mem_append (not_mem_layoutRecord record) (hothers rest)

theorem not_mem_print (records : List Record) : '\r' ∉ print records := by
  rw [print_eq]
  intro h
  rcases List.mem_cons.mp h with h | h
  · exact absurd h (by decide)
  rcases List.mem_append.mp h with h | h
  · exact not_mem_layoutRecords records h
  · exact absurd h (by decide)

end BuildLog.Database
