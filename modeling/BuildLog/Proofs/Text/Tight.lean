import BuildLog.Proofs.Text.Pieces
import BuildLog.Text.Blank
import Mathlib.Data.List.DropRight

/-! Texts that stripping leaves alone, and how joined pieces inherit this from their ends. -/
namespace BuildLog.Text

theorem dropTrailing_eq_rdropWhile (unwanted : Char → Bool) (text : Text) :
    dropTrailing unwanted text = text.rdropWhile unwanted := rfl

theorem strip_cons_of_isBlank {c : Char} (h : isBlank c = true) (text : Text) :
    strip (c :: text) = strip text := by
  unfold strip
  rw [List.dropWhile_cons_of_pos h]

theorem ne_space_of_isBlank_eq_false {c : Char} (h : isBlank c = false) : c ≠ ' ' := by
  rintro rfl
  cases h

theorem isInfix_strip (text : Text) : strip text <:+: text :=
  (List.rdropWhile_prefix isBlank _).isInfix.trans (List.dropWhile_suffix isBlank).isInfix

theorem mem_of_mem_strip {c : Char} {text : Text} (h : c ∈ strip text) : c ∈ text :=
  (isInfix_strip text).subset h

theorem strip_ne_nil {c : Char} {text : Text} (hc : c ∈ text) (h : isBlank c = false) :
    strip text ≠ [] := by
  have hrest : c ∈ text.dropWhile isBlank := by
    rw [← List.takeWhile_append_dropWhile (p := isBlank) (l := text), List.mem_append] at hc
    refine hc.resolve_left fun hfirst => ?_
    rw [List.mem_takeWhile_imp hfirst] at h
    cases h
  intro hstrip
  rw [strip, dropTrailing_eq_rdropWhile, List.rdropWhile_eq_nil_iff] at hstrip
  rw [hstrip c hrest] at h
  cases h

/-- A text that is not empty and has no blank at either end. -/
structure Tight (text : Text) : Prop where
  head : ∃ c, text.head? = some c ∧ isBlank c = false
  last : ∃ c, text.getLast? = some c ∧ isBlank c = false

namespace Tight

theorem ne_nil {text : Text} (h : Tight text) : text ≠ [] := by
  rintro rfl
  obtain ⟨c, hc, -⟩ := h.head
  cases hc

theorem strip_eq {text : Text} (h : Tight text) : strip text = text := by
  obtain ⟨c, hc, hhead⟩ := h.head
  obtain ⟨d, hd, hlast⟩ := h.last
  obtain ⟨tail, rfl⟩ := List.head?_eq_some_iff.mp hc
  unfold strip
  rw [List.dropWhile_cons_of_neg (by simp [hhead]), dropTrailing_eq_rdropWhile,
    List.rdropWhile_eq_self_iff]
  intro hne
  rw [List.getLast?_eq_some_getLast hne, Option.some.injEq] at hd
  simp [hd, hlast]

theorem strip {text : Text} (hne : Text.strip text ≠ []) : Tight (Text.strip text) where
  head := by
    obtain ⟨c, rest, hstrip⟩ := List.exists_cons_of_ne_nil hne
    refine ⟨c, by rw [hstrip]; rfl, ?_⟩
    obtain ⟨tail, htail⟩ := List.rdropWhile_prefix isBlank (text.dropWhile isBlank)
    rw [← dropTrailing_eq_rdropWhile, ← Text.strip, hstrip, List.cons_append] at htail
    have hhead := List.head?_dropWhile_not isBlank text
    rw [← htail] at hhead
    simpa using hhead
  last := by
    refine ⟨_, List.getLast?_eq_some_getLast hne, ?_⟩
    exact Bool.eq_false_iff.mpr (List.rdropWhile_last_not isBlank (text.dropWhile isBlank) hne)

theorem of_strip_eq {text : Text} (hne : text ≠ []) (h : Text.strip text = text) : Tight text := by
  have htight : Tight (Text.strip text) := .strip (by rwa [h])
  rwa [h] at htight

theorem append {first last : Text} (hfirst : Tight first) (hlast : Tight last) (between : Text) :
    Tight (first ++ between ++ last) where
  head := by
    obtain ⟨c, hc, hblank⟩ := hfirst.head
    exact ⟨c, by simp [hc], hblank⟩
  last := by
    obtain ⟨c, hc, hblank⟩ := hlast.last
    exact ⟨c, by simp [hc], hblank⟩

theorem join_of_ends {pieces : List Text} {first last : Text} (hhead : pieces.head? = some first)
    (hlast : pieces.getLast? = some last) (hfirst : Tight first) (hend : Tight last)
    (separator : Text) : Tight (join separator pieces) := by
  obtain ⟨rest, rfl⟩ := List.head?_eq_some_iff.mp hhead
  cases rest with
  | nil => rwa [join_singleton]
  | cons second rest =>
    rw [List.getLast?_cons_cons] at hlast
    obtain ⟨middle, hmiddle⟩ := List.getLast?_eq_some_iff.mp hlast
    rw [join_cons_cons, hmiddle]
    by_cases hnone : middle = []
    · rw [hnone, List.nil_append, join_singleton]
      exact hfirst.append hend separator
    · have hsplit : first ++ separator ++ (join separator middle ++ separator ++ last) =
          first ++ (separator ++ join separator middle ++ separator) ++ last := by
        simp only [List.append_assoc]
      rw [join_append hnone (List.cons_ne_nil _ _), join_singleton, hsplit]
      exact hfirst.append hend _

theorem join {pieces : List Text} (hne : pieces ≠ []) (h : ∀ piece ∈ pieces, Tight piece)
    (separator : Text) : Tight (join separator pieces) :=
  join_of_ends (List.head?_eq_some_head hne) (List.getLast?_eq_some_getLast hne)
    (h _ (List.head_mem hne)) (h _ (List.getLast_mem hne)) separator

end Tight

theorem strip_strip (text : Text) : strip (strip text) = strip text := by
  by_cases h : strip text = []
  · rw [h, strip_nil]
  · exact (Tight.strip h).strip_eq

end BuildLog.Text
