import BuildLog.Proofs.Json.Completeness
import BuildLog.Text.Lines

/-! The line ends of a document. They stand between its tokens only, as blanks, so a document stays
one when they are made alike. -/
namespace BuildLog

namespace Text

/-- A text whose line ends are made alike, with or without a carriage return in front of it. -/
def unifyFrom (afterReturn : Bool) (text : Text) : Text :=
  (text.foldl NewlineReader.step ⟨afterReturn, []⟩).done.reverse

variable {c : Char} {afterReturn : Bool}

theorem step_append (afterReturn : Bool) (done : Text) (c : Char) :
    NewlineReader.step ⟨afterReturn, done⟩ c =
      ⟨(NewlineReader.step ⟨afterReturn, []⟩ c).afterReturn,
        (NewlineReader.step ⟨afterReturn, []⟩ c).done ++ done⟩ := by
  unfold NewlineReader.step
  split_ifs <;> rfl

theorem done_foldl_step (afterReturn : Bool) (done text : Text) :
    (text.foldl NewlineReader.step ⟨afterReturn, done⟩).done =
      (text.foldl NewlineReader.step ⟨afterReturn, []⟩).done ++ done := by
  induction text generalizing afterReturn done with
  | nil => rfl
  | cons c text ih =>
    obtain ⟨after, taken, hstep⟩ : ∃ after taken,
      NewlineReader.step ⟨afterReturn, []⟩ c = ⟨after, taken⟩ := ⟨_, _, rfl⟩
    rw [List.foldl_cons, List.foldl_cons, step_append, hstep, ih, ih after taken, List.append_assoc]

theorem unifyFrom_return (afterReturn : Bool) (text : Text) :
    unifyFrom afterReturn ('\r' :: text) = '\n' :: unifyFrom true text := by
  unfold unifyFrom
  rw [List.foldl_cons]
  change (text.foldl NewlineReader.step ⟨true, ['\n']⟩).done.reverse = _
  rw [done_foldl_step, List.reverse_append]
  rfl

theorem unifyFrom_lineFeed (text : Text) :
    unifyFrom true ('\n' :: text) = unifyFrom false text := rfl

theorem unifyFrom_cons (hreturn : c ≠ '\r') (h : c ≠ '\n' ∨ afterReturn = false) (text : Text) :
    unifyFrom afterReturn (c :: text) = c :: unifyFrom false text := by
  have hstep : NewlineReader.step ⟨afterReturn, []⟩ c = ⟨false, [c]⟩ := by
    unfold NewlineReader.step
    rw [if_neg hreturn, if_neg]
    rintro ⟨hc, hafter⟩
    exact h.elim (fun h => h hc) fun h => Bool.false_ne_true (h.symm.trans hafter)
  unfold unifyFrom
  rw [List.foldl_cons, hstep, done_foldl_step, List.reverse_append]
  rfl

def IsInLine (c : Char) : Prop := c ≠ '\r' ∧ c ≠ '\n'

instance : DecidablePred IsInLine := fun _ => inferInstanceAs (Decidable (_ ∧ _))

theorem unifyFrom_cons_of_isInLine (hc : IsInLine c) (afterReturn : Bool) (text : Text) :
    unifyFrom afterReturn (c :: text) = c :: unifyFrom false text :=
  unifyFrom_cons hc.1 (.inl hc.2) text

theorem unifyFrom_append {token : Text} (h : ∀ c ∈ token, IsInLine c) (afterReturn : Bool) :
    ∃ after, ∀ text, unifyFrom afterReturn (token ++ text) = token ++ unifyFrom after text := by
  induction token generalizing afterReturn with
  | nil => exact ⟨afterReturn, fun _ => rfl⟩
  | cons c token ih =>
    obtain ⟨hc, htoken⟩ := List.forall_mem_cons.mp h
    obtain ⟨after, hafter⟩ := ih htoken false
    refine ⟨after, fun text => ?_⟩
    rw [List.cons_append, unifyFrom_cons_of_isInLine hc, hafter, List.cons_append]

end Text

namespace Json

open Text

theorem isInLine_of_isDigit {c : Char} (h : c.isDigit = true) : IsInLine c :=
  ⟨ne_of_isDigit h rfl, ne_of_isDigit h rfl⟩

theorem isInLine_of_isNumeral {numeral : Text} (h : IsNumeral numeral) :
    ∀ c ∈ numeral, IsInLine c := by
  obtain ⟨sign, whole, fraction, power, rfl, hsign, hwhole, hfraction, hpower⟩ := h
  have hdigits {digits : Text} (h : IsDigits digits) : ∀ c ∈ digits, IsInLine c :=
    fun c hc => isInLine_of_isDigit (h.2 c hc)
  simp only [List.forall_mem_append]
  refine ⟨⟨⟨?_, ?_⟩, ?_⟩, ?_⟩
  · rcases hsign with rfl | rfl
    · exact List.forall_mem_nil _
    · exact List.forall_mem_singleton.mpr (by decide)
  · obtain rfl | ⟨hwhole, -⟩ := hwhole
    · exact List.forall_mem_singleton.mpr (by decide)
    · exact hdigits hwhole
  · obtain rfl | ⟨digits, rfl, hfraction⟩ := hfraction
    · exact List.forall_mem_nil _
    · exact List.forall_mem_cons.mpr ⟨by decide, hdigits hfraction⟩
  · obtain rfl | ⟨mark, sign, digits, rfl, hletter, hsign, hpower⟩ := hpower
    · exact List.forall_mem_nil _
    · have hs : ∀ c ∈ sign, IsInLine c := by
        rcases hsign with rfl | rfl | rfl
        · exact List.forall_mem_nil _
        · exact List.forall_mem_singleton.mpr (by decide)
        · exact List.forall_mem_singleton.mpr (by decide)
      refine List.forall_mem_cons.mpr ⟨?_, List.forall_mem_append.mpr ⟨hs, hdigits hpower⟩⟩
      rcases hletter with rfl | rfl <;> decide

theorem isInLine_of_isHexDigit {c : Char} (h : isHexDigit c = true) : IsInLine c := by
  constructor <;> rintro rfl <;> exact absurd h (by decide)

theorem isInLine_of_le {c : Char} (h : 0x20 ≤ c.toNat) : IsInLine c := by
  constructor <;> rintro rfl <;> exact absurd h (by decide)

/-- What a symbol stands for, it stands for with line ends made alike. -/
theorem Derives.exists_unifyFrom {symbol : Symbol} {text rest : Text} (h : Derives symbol text rest)
    (afterReturn : Bool) :
    ∃ after, Derives symbol (unifyFrom afterReturn text) (unifyFrom after rest) := by
  induction h generalizing afterReturn with
  | noBlank => exact ⟨afterReturn, .noBlank⟩
  | @blank c text rest h more ih =>
    by_cases hreturn : c = '\r'
    · obtain ⟨after, hmore⟩ := ih true
      rw [hreturn, unifyFrom_return]
      exact ⟨after, .blank (by simp) hmore⟩
    · obtain ⟨after, hmore⟩ := ih false
      by_cases hskipped : c = '\n' ∧ afterReturn = true
      · rw [hskipped.1, hskipped.2, unifyFrom_lineFeed]
        exact ⟨after, hmore⟩
      · rw [not_and_or, Bool.not_eq_true] at hskipped
        rw [unifyFrom_cons hreturn hskipped]
        exact ⟨after, .blank h hmore⟩
  | quote =>
    rw [unifyFrom_cons_of_isInLine (by decide)]
    exact ⟨false, .quote⟩
  | char hquote hbackslash hcontrol more ih =>
    obtain ⟨after, hmore⟩ := ih false
    rw [unifyFrom_cons_of_isInLine (isInLine_of_le hcontrol)]
    exact ⟨after, .char hquote hbackslash hcontrol hmore⟩
  | @escape c text rest h more ih =>
    obtain ⟨after, hmore⟩ := ih false
    have hletters : ∀ c ∈ ['"', '\\', '/', 'b', 'f', 'n', 'r', 't'], 0x20 ≤ c.toNat := by simp
    rw [unifyFrom_cons_of_isInLine (by decide),
      unifyFrom_cons_of_isInLine (isInLine_of_le (hletters c h))]
    exact ⟨after, .escape h hmore⟩
  | unit h more ih =>
    obtain ⟨after, hmore⟩ := ih false
    have hdigits := fun d hd => isInLine_of_isHexDigit (h d hd)
    simp only [List.forall_mem_cons] at hdigits
    obtain ⟨h₀, h₁, h₂, h₃, -⟩ := hdigits
    rw [unifyFrom_cons_of_isInLine (by decide), unifyFrom_cons_of_isInLine (by decide),
      unifyFrom_cons_of_isInLine h₀, unifyFrom_cons_of_isInLine h₁,
      unifyFrom_cons_of_isInLine h₂, unifyFrom_cons_of_isInLine h₃]
    exact ⟨after, .unit h hmore⟩
  | @word word rest h =>
    have hwords : ∀ word ∈ ["null", "true", "false"].map String.toList, ∀ c ∈ word,
      0x20 ≤ c.toNat := by simp
    obtain ⟨after, happend⟩ :=
      unifyFrom_append (fun c hc => isInLine_of_le (hwords word h c hc)) afterReturn
    rw [happend]
    exact ⟨after, .word h⟩
  | number h =>
    obtain ⟨after, happend⟩ := unifyFrom_append (isInLine_of_isNumeral h) afterReturn
    rw [happend]
    exact ⟨after, .number h⟩
  | text chars ih =>
    obtain ⟨after, hchars⟩ := ih false
    rw [unifyFrom_cons_of_isInLine (by decide)]
    exact ⟨after, .text hchars⟩
  | emptyArray blanks ih =>
    obtain ⟨after, hblanks⟩ := ih false
    rw [unifyFrom_cons_of_isInLine (by decide)] at hblanks ⊢
    exact ⟨false, .emptyArray hblanks⟩
  | array items ih =>
    obtain ⟨after, hitems⟩ := ih false
    rw [unifyFrom_cons_of_isInLine (by decide)] at hitems ⊢
    exact ⟨false, .array hitems⟩
  | emptyObject blanks ih =>
    obtain ⟨after, hblanks⟩ := ih false
    rw [unifyFrom_cons_of_isInLine (by decide)] at hblanks ⊢
    exact ⟨false, .emptyObject hblanks⟩
  | object members ih =>
    obtain ⟨after, hmembers⟩ := ih false
    rw [unifyFrom_cons_of_isInLine (by decide)] at hmembers ⊢
    exact ⟨false, .object hmembers⟩
  | lastItem before item after hb hi ha =>
    obtain ⟨_, hbefore⟩ := hb afterReturn
    obtain ⟨_, hitem⟩ := hi _
    obtain ⟨last, hafter⟩ := ha _
    exact ⟨last, .lastItem hbefore hitem hafter⟩
  | item before item after more hb hi ha hm =>
    obtain ⟨_, hbefore⟩ := hb afterReturn
    obtain ⟨_, hitem⟩ := hi _
    obtain ⟨_, hafter⟩ := ha _
    obtain ⟨last, hmore⟩ := hm false
    rw [unifyFrom_cons_of_isInLine (by decide)] at hafter
    exact ⟨last, .item hbefore hitem hafter hmore⟩
  | lastMember before chars between between' member after hb hc hbt hbt' hm ha =>
    obtain ⟨_, hbefore⟩ := hb afterReturn
    obtain ⟨_, hchars⟩ := hc false
    obtain ⟨_, hbetween⟩ := hbt _
    obtain ⟨_, hbetween'⟩ := hbt' false
    obtain ⟨_, hmember⟩ := hm _
    obtain ⟨last, hafter⟩ := ha _
    rw [unifyFrom_cons_of_isInLine (by decide)] at hbefore hbetween
    exact ⟨last, .lastMember hbefore hchars hbetween hbetween' hmember hafter⟩
  | member before chars between between' member after more hb hc hbt hbt' hm ha hmore =>
    obtain ⟨_, hbefore⟩ := hb afterReturn
    obtain ⟨_, hchars⟩ := hc false
    obtain ⟨_, hbetween⟩ := hbt _
    obtain ⟨_, hbetween'⟩ := hbt' false
    obtain ⟨_, hmember⟩ := hm _
    obtain ⟨_, hafter⟩ := ha _
    obtain ⟨last, hmore⟩ := hmore false
    rw [unifyFrom_cons_of_isInLine (by decide)] at hbefore hbetween hafter
    exact ⟨last, .member hbefore hchars hbetween hbetween' hmember hafter hmore⟩

theorem IsArrayDocument.unifyNewlines {text : Text} (h : IsArrayDocument text) :
    IsArrayDocument (Text.unifyNewlines text) := by
  obtain ⟨inside, behind, before, hvalue, after⟩ := h
  obtain ⟨front, hbefore⟩ := before.exists_unifyFrom false
  obtain ⟨back, hvalue⟩ := hvalue.exists_unifyFrom front
  obtain ⟨_, hafter⟩ := after.exists_unifyFrom back
  rw [unifyFrom_cons_of_isInLine (by decide)] at hbefore hvalue
  exact ⟨_, _, hbefore, hvalue, hafter⟩

end Json
end BuildLog
