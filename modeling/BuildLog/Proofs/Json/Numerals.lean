import BuildLog.Proofs.Json.Grammar
import BuildLog.Proofs.Json.Reading

/-! What the reader makes of a numeral. It takes all of it, part by part, and then it is in a phase
in which the number may end. -/
namespace BuildLog.Json

def Counting (stack : List Frame) (sofar : Text) (phases : List NumberPhase) (reader : Reader) :
    Prop :=
  reader.stack = stack ∧ ∃ phase ∈ phases, reader.mode = .number sofar phase

/-- The next digit is read, and more of them may follow it. -/
def AwaitsDigit (stack : List Frame) (sofar : Text) (phase : NumberPhase) (reader : Reader) :
    Prop :=
  reader.stack = stack ∧ ∀ c : Char, c.isDigit = true →
    reader.step c = .ok (reader.next (.number (c :: sofar) phase))

variable {stack : List Frame} {sofar : Text} {phase : NumberPhase} {phases more : List NumberPhase}

theorem Takes.weaken {P Q R : Reader → Prop} {text : Text} (h : Takes P text Q)
    (hweak : ∀ reader, Q reader → R reader) : Takes P text R := by
  intro reader hreader
  obtain ⟨behind, hfold, hbehind⟩ := h reader hreader
  exact ⟨behind, hfold, hweak behind hbehind⟩

theorem Counting.mono (h : phases ⊆ more) (reader : Reader)
    (hcounting : Counting stack sofar phases reader) :
    Counting stack sofar more reader :=
  ⟨hcounting.1, hcounting.2.imp fun _ hphase => ⟨h hphase.1, hphase.2⟩⟩

theorem counting_of_at (h : phase ∈ phases) (reader : Reader)
    (hreader : At stack (.number sofar phase) reader) : Counting stack sofar phases reader :=
  ⟨hreader.1, phase, h, hreader.2⟩

theorem awaitsDigit_of_at (h : phase ∈ [.whole, .fraction, .power]) (reader : Reader)
    (hreader : At stack (.number sofar phase) reader) : AwaitsDigit stack sofar phase reader := by
  obtain ⟨position, _, _⟩ := reader
  obtain ⟨rfl, rfl⟩ := hreader
  refine ⟨rfl, fun c hc => ?_⟩
  simp only [List.mem_cons, List.not_mem_nil, or_false] at h
  rcases h with rfl | rfl | rfl <;> exact if_pos hc

theorem takes_moreDigits (h : phase ∈ [.whole, .fraction, .power]) {digits : Text}
    (hdigits : ∀ c ∈ digits, c.isDigit = true) :
    Takes (At stack (.number sofar phase)) digits
      (At stack (.number (digits.reverse ++ sofar) phase)) := by
  induction digits generalizing sofar with
  | nil => exact Takes.nil
  | cons c digits ih =>
    obtain ⟨hc, hrest⟩ := List.forall_mem_cons.mp hdigits
    rw [List.reverse_cons, List.append_assoc]
    refine Takes.cons (fun reader hreader => ?_) (ih hrest)
    obtain ⟨rfl, hstep⟩ := awaitsDigit_of_at h reader hreader
    exact ⟨_, hstep c hc, rfl, rfl⟩

theorem takes_digits (h : phase ∈ [.whole, .fraction, .power]) {digits : Text}
    (hdigits : IsDigits digits) :
    Takes (AwaitsDigit stack sofar phase) digits
      (At stack (.number (digits.reverse ++ sofar) phase)) := by
  obtain ⟨c, rest, rfl⟩ := List.exists_cons_of_ne_nil hdigits.1
  obtain ⟨hc, hrest⟩ := List.forall_mem_cons.mp hdigits.2
  rw [List.reverse_cons, List.append_assoc]
  refine Takes.cons (fun reader hreader => ?_) (takes_moreDigits h hrest)
  obtain ⟨rfl, hstep⟩ := hreader
  exact ⟨_, hstep c hc, rfl, rfl⟩

theorem ne_of_isDigit {c d : Char} (h : c.isDigit = true) (hd : d.isDigit = false) : c ≠ d := by
  rintro rfl
  rw [h] at hd
  cases hd

theorem takes_sign {sign : Text} (hsign : sign = [] ∨ sign = ['-']) :
    Takes (At stack .value) sign fun reader => reader.stack = stack ∧
      ∀ c : Char, c.isDigit = true → reader.step c =
        .ok (reader.next (.number (c :: sign.reverse) (if c = '0' then .zero else .whole))) := by
  obtain rfl | rfl := hsign
  · rintro ⟨position, stack, _⟩ ⟨rfl, rfl⟩
    refine ⟨_, rfl, rfl, fun c hc => ?_⟩
    have hother (d : Char) (hd : d.isDigit = false) : c ≠ d := ne_of_isDigit hc hd
    have hblank : Reader.isBlank c = false := by
      simp only [Reader.isBlank, Bool.or_eq_false_iff, beq_eq_false_iff_ne]
      exact ⟨⟨⟨hother _ rfl, hother _ rfl⟩, hother _ rfl⟩, hother _ rfl⟩
    simp only [Reader.step, Reader.beginValue, hblank, Bool.false_eq_true, if_false,
      hother '"' rfl, hother '[' rfl, hother '\x7b' rfl, hother '-' rfl, hc, if_true]
    split
    next hzero => rw [hzero]; rfl
    next => rfl
  · apply Takes.single
    rintro ⟨position, stack, _⟩ ⟨rfl, rfl⟩
    refine ⟨_, rfl, rfl, fun c hc => ?_⟩
    change (if c = '0' then _ else if c.isDigit = true then _ else _) = _
    rw [if_pos hc]
    split <;> rfl

theorem takes_whole {sign whole : Text} (hsign : sign = [] ∨ sign = ['-'])
    (hwhole : whole = ['0'] ∨ IsDigits whole ∧ whole.head? ≠ some '0') :
    Takes (At stack .value) (sign ++ whole)
      (Counting stack (sign ++ whole).reverse [.zero, .whole]) := by
  rw [List.reverse_append]
  apply (takes_sign hsign).append
  obtain rfl | ⟨⟨hne, hall⟩, hzero⟩ := hwhole
  · apply Takes.single
    rintro reader ⟨rfl, hstep⟩
    exact ⟨_, hstep '0' rfl, rfl, .zero, by simp, rfl⟩
  · obtain ⟨c, digits, rfl⟩ := List.exists_cons_of_ne_nil hne
    obtain ⟨hc, hdigits⟩ := List.forall_mem_cons.mp hall
    have hzero : c ≠ '0' := fun hc => hzero (congrArg some hc)
    have hfirst : Takes (fun reader => reader.stack = stack ∧ ∀ c : Char, c.isDigit = true →
        reader.step c =
          .ok (reader.next (.number (c :: sign.reverse) (if c = '0' then .zero else .whole))))
        [c] (At stack (.number (c :: sign.reverse) .whole)) := by
      apply Takes.single
      rintro reader ⟨rfl, hstep⟩
      refine ⟨_, hstep c hc, rfl, ?_⟩
      rw [if_neg hzero]
      rfl
    have hrest := hfirst.append (takes_moreDigits (by simp) hdigits)
    rw [List.reverse_cons, List.append_assoc]
    exact hrest.weaken (counting_of_at (by simp))

theorem takes_fraction {fraction : Text}
    (h : fraction = [] ∨ ∃ digits, fraction = '.' :: digits ∧ IsDigits digits) :
    Takes (Counting stack sofar [.zero, .whole]) fraction
      (Counting stack (fraction.reverse ++ sofar) [.zero, .whole, .fraction]) := by
  obtain rfl | ⟨digits, rfl, hdigits⟩ := h
  · exact Takes.nil.weaken (Counting.mono (by simp))
  · have hpoint : Takes (Counting stack sofar [.zero, .whole]) ['.']
        (AwaitsDigit stack ('.' :: sofar) .fraction) := by
      apply Takes.single
      rintro ⟨position, stack, _⟩ ⟨rfl, phase, hphase, rfl⟩
      simp only [List.mem_cons, List.not_mem_nil, or_false] at hphase
      rcases hphase with rfl | rfl <;> exact ⟨_, rfl, rfl, fun c hc => if_pos hc⟩
    have hfraction := hpoint.append (takes_digits (by simp) hdigits)
    rw [List.reverse_cons, List.append_assoc]
    exact hfraction.weaken (counting_of_at (by simp))

theorem takes_power {power : Text}
    (h : power = [] ∨ ∃ mark sign digits, power = mark :: (sign ++ digits) ∧
      (mark = 'e' ∨ mark = 'E') ∧ (sign = [] ∨ sign = ['+'] ∨ sign = ['-']) ∧ IsDigits digits) :
    Takes (Counting stack sofar [.zero, .whole, .fraction]) power
      (Counting stack (power.reverse ++ sofar) [.zero, .whole, .fraction, .power]) := by
  obtain rfl | ⟨mark, sign, digits, rfl, hmark, hsign, hdigits⟩ := h
  · exact Takes.nil.weaken (Counting.mono (by simp))
  · have hexponent : Takes (Counting stack sofar [.zero, .whole, .fraction]) (mark :: sign)
        (AwaitsDigit stack (sign.reverse ++ mark :: sofar) .power) := by
      have hbegin : Takes (Counting stack sofar [.zero, .whole, .fraction]) [mark]
          fun reader => reader.stack = stack ∧
            ∃ position, reader.mode = .number (mark :: sofar) (.exponent position) := by
        apply Takes.single
        rintro ⟨position, stack, _⟩ ⟨rfl, phase, hphase, rfl⟩
        simp only [List.mem_cons, List.not_mem_nil, or_false] at hphase
        rcases hphase with rfl | rfl | rfl <;> rcases hmark with rfl | rfl <;>
          exact ⟨_, rfl, rfl, position, rfl⟩
      apply hbegin.append
      rcases hsign with rfl | rfl | rfl
      · rintro ⟨position, stack, _⟩ ⟨rfl, before, rfl⟩
        exact ⟨_, rfl, rfl, fun c hc => if_pos hc⟩
      all_goals
        apply Takes.single
        rintro ⟨position, stack, _⟩ ⟨rfl, before, rfl⟩
        exact ⟨_, rfl, rfl, fun c hc => if_pos hc⟩
    have hpower := hexponent.append (takes_digits (by simp) hdigits)
    rw [← List.cons_append, List.reverse_append, List.reverse_cons, List.append_assoc,
      List.append_assoc]
    exact hpower.weaken (counting_of_at (by simp))

/-- A numeral is read to its end, wherever a value is due. -/
theorem takes_numeral {numeral : Text} (h : IsNumeral numeral) :
    Takes (At stack .value) numeral
      (Counting stack numeral.reverse [.zero, .whole, .fraction, .power]) := by
  obtain ⟨sign, whole, fraction, power, rfl, hsign, hwhole, hfraction, hpower⟩ := h
  rw [List.reverse_append, List.reverse_append]
  exact ((takes_whole hsign hwhole).append (takes_fraction hfraction)).append (takes_power hpower)

end BuildLog.Json
