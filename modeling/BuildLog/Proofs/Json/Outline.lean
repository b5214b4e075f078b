import BuildLog.Proofs.Json.Grammar

/-! The outline of a text that starts with an open bracket: how many brackets are open, and whether
a point lies in a quoted text. A document comes back to depth zero at its end and not before, so a
text whose outline does anything else is no document. -/
namespace BuildLog.Json

inductive Outline
  /-- Between or in the tokens inside of some brackets. -/
  | outside (depth : Nat)
  /-- Between the quotes of a text. -/
  | inside (depth : Nat)
  /-- Behind a backslash in a text. -/
  | escape (depth : Nat)
  /-- Behind a character that no document has there. -/
  | fault
deriving DecidableEq, Repr

namespace Outline

def step : Outline → Char → Outline
  | .outside 0, c => if c = ' ' ∨ c = '\t' ∨ c = '\n' ∨ c = '\r' then .outside 0 else .fault
  | .outside (depth + 1), c =>
    if c = '"' then .inside (depth + 1)
    else if c = '[' ∨ c = '\x7b' then .outside (depth + 2)
    else if c = ']' ∨ c = '\x7d' then .outside depth
    else .outside (depth + 1)
  | .inside depth, c =>
    if c = '"' then .outside depth
    else if c = '\\' then .escape depth
    else if c.toNat < 0x20 then .fault
    else .inside depth
  | .escape depth, _ => .inside depth
  | .fault, _ => .fault

def run (outline : Outline) (text : Text) : Outline := text.foldl step outline

@[simp] theorem run_nil (outline : Outline) : outline.run [] = outline := rfl

@[simp] theorem run_cons (outline : Outline) (c : Char) (text : Text) :
    outline.run (c :: text) = (outline.step c).run text := rfl

theorem run_append (outline : Outline) (text more : Text) :
    outline.run (text ++ more) = (outline.run text).run more := List.foldl_append

@[simp] theorem run_fault (text : Text) : fault.run text = fault := by
  induction text with
  | nil => rfl
  | cons c text ih => exact ih

def keepIf (kept : Bool) (outline : Outline) : Outline := if kept then outline else fault

@[simp] theorem run_keepIf (kept : Bool) (outline : Outline) (text : Text) :
    (outline.keepIf kept).run text = (outline.run text).keepIf kept := by
  cases kept with
  | true => rfl
  | false => exact run_fault text

@[simp] theorem keepIf_keepIf (kept kept' : Bool) (outline : Outline) :
    (outline.keepIf kept).keepIf kept' = outline.keepIf (kept' && kept) := by
  cases kept <;> cases kept' <;> rfl

theorem run_outside_zero (text : Text) :
    (outside 0).run text = outside 0 ∨ (outside 0).run text = fault := by
  induction text with
  | nil => exact .inl rfl
  | cons c text ih =>
    rw [run_cons, step]
    split
    · exact ih
    · exact .inr (run_fault text)

/-- A text leads from an outline to another one, or without the condition to a fault, and on the
way the brackets are never all closed. -/
structure Passes (before : Outline) (text : Text) (kept : Bool) (after : Outline) : Prop where
  run_eq : before.run text = after.keepIf kept
  staysOpen : ∀ beginning, beginning <+: text → before.run beginning ≠ outside 0

section Passes

variable {before between after : Outline} {c : Char} {text more : Text} {kept kept' : Bool}

theorem passes_of_run (hrun : before.run text = after) (hopen : after ≠ outside 0)
    (hfault : after ≠ fault) : Passes before text true after where
  run_eq := hrun
  staysOpen := by
    rintro beginning ⟨rest, rfl⟩ hclosed
    rw [run_append, hclosed] at hrun
    obtain hstays | hfails := run_outside_zero rest
    · exact hopen (hrun.symm.trans hstays)
    · exact hfault (hrun.symm.trans hfails)

theorem passes_of_fault (hstep : before.step c = fault) (hopen : before ≠ outside 0) :
    Passes before (c :: text) false after where
  run_eq := by rw [run_cons, hstep, run_fault, keepIf, if_neg Bool.false_ne_true]
  staysOpen := by
    intro beginning hbeginning
    obtain rfl | ⟨rest, rfl, -⟩ := List.prefix_cons_iff.mp hbeginning
    · exact hopen
    · rw [run_cons, hstep, run_fault]
      nofun

theorem Passes.append (h : Passes before text kept between)
    (hmore : Passes between more kept' after) :
    Passes before (text ++ more) (kept && kept') after where
  run_eq := by rw [run_append, h.run_eq, run_keepIf, hmore.run_eq, keepIf_keepIf]
  staysOpen := by
    rintro beginning ⟨behind, hbehind⟩
    obtain ⟨left, htext, -⟩ | ⟨rest, rfl, hrest⟩ := List.append_eq_append_iff.mp hbehind
    · exact h.staysOpen beginning ⟨left, htext.symm⟩
    · rw [run_append, h.run_eq, run_keepIf]
      cases kept with
      | true => exact hmore.staysOpen rest ⟨behind, hrest.symm⟩
      | false => nofun

end Passes

def isPlain (c : Char) : Bool := ! ['"', '[', ']', '\x7b', '\x7d'].contains c

theorem step_outside_of_isPlain {c : Char} (h : isPlain c = true) (depth : Nat) :
    (outside (depth + 1)).step c = outside (depth + 1) := by
  simp only [isPlain, Bool.not_eq_true', List.contains_eq_mem, List.mem_cons, List.not_mem_nil,
    or_false, decide_eq_false_iff_not, not_or] at h
  simp [step, h]

theorem run_outside_of_isPlain {text : Text} (h : text.all isPlain = true) (depth : Nat) :
    (outside (depth + 1)).run text = outside (depth + 1) := by
  induction text with
  | nil => rfl
  | cons c text ih =>
    rw [List.all_cons, Bool.and_eq_true] at h
    rw [run_cons, step_outside_of_isPlain h.1, ih h.2]

theorem step_inside_of_le {c : Char} (hquote : c ≠ '"') (hbackslash : c ≠ '\\')
    (hcontrol : 0x20 ≤ c.toNat) (depth : Nat) : (inside depth).step c = inside depth := by
  simp [step, hquote, hbackslash, Nat.not_lt.mpr hcontrol]

theorem step_blank {c : Char} (h : c ∈ [' ', '\t', '\n', '\r']) (depth : Nat) :
    (outside depth).step c = outside depth := by
  simp only [List.mem_cons, List.not_mem_nil, or_false] at h
  cases depth with
  | zero => exact if_pos h
  | succ depth => rcases h with rfl | rfl | rfl | rfl <;> rfl

end Outline

theorem IsDigits.all_isPlain {text : Text} (h : IsDigits text) :
    text.all Outline.isPlain = true := by
  rw [List.all_eq_true]
  intro c hc
  have hdigit := h.2 c hc
  unfold Outline.isPlain
  rw [Bool.not_eq_true', List.contains_eq_mem, decide_eq_false_iff_not]
  simp only [List.mem_cons, List.not_mem_nil, or_false]
  rintro (rfl | rfl | rfl | rfl | rfl) <;> exact absurd hdigit (by decide)

theorem IsNumeral.all_isPlain {numeral : Text} (h : IsNumeral numeral) :
    numeral.all Outline.isPlain = true := by
  obtain ⟨sign, whole, fraction, power, rfl, hsign, hwhole, hfraction, hpower⟩ := h
  have hs : sign.all Outline.isPlain = true := by
    rcases hsign with rfl | rfl <;> rfl
  have hw : whole.all Outline.isPlain = true := by
    rcases hwhole with rfl | ⟨hdigits, -⟩
    · rfl
    · exact hdigits.all_isPlain
  have hf : fraction.all Outline.isPlain = true := by
    rcases hfraction with rfl | ⟨digits, rfl, hdigits⟩
    · rfl
    · exact hdigits.all_isPlain
  have hp : power.all Outline.isPlain = true := by
    rcases hpower with rfl | ⟨mark, sign, digits, rfl, hmark, hsign, hdigits⟩
    · rfl
    · have hm : Outline.isPlain mark = true := by
        rcases hmark with rfl | rfl <;> rfl
      have hs : sign.all Outline.isPlain = true := by
        rcases hsign with rfl | rfl | rfl <;> rfl
      rw [List.all_cons, List.all_append, hm, hs, hdigits.all_isPlain]
      rfl
  rw [List.all_append, List.all_append, List.all_append, hs, hw, hf, hp]
  rfl

theorem IsNumeral.ne_nil {numeral : Text} (h : IsNumeral numeral) : numeral ≠ [] := by
  obtain ⟨sign, whole, fraction, power, rfl, -, hwhole, -⟩ := h
  have hne : whole ≠ [] := by
    rcases hwhole with rfl | ⟨hdigits, -⟩
    · decide
    · exact hdigits.1
  simp [hne]

theorem toNat_of_isHexDigit {c : Char} (h : isHexDigit c = true) :
    0x30 ≤ c.toNat ∧ c.toNat ≤ 0x66 := by
  simp only [isHexDigit, Char.isDigit, Bool.or_eq_true, Bool.and_eq_true, decide_eq_true_eq,
    ge_iff_le, Char.le_def, UInt32.le_iff_toNat_le] at h
  have hdigit : '0'.val.toNat = 0x30 ∧ '9'.val.toNat = 0x39 := ⟨rfl, rfl⟩
  have hsmall : 'a'.val.toNat = 0x61 ∧ 'f'.val.toNat = 0x66 := ⟨rfl, rfl⟩
  have hlarge : 'A'.val.toNat = 0x41 ∧ 'F'.val.toNat = 0x46 := ⟨rfl, rfl⟩
  have hcode : c.toNat = c.val.toNat := rfl
  omega

theorem step_inside_of_isHexDigit {c : Char} (h : isHexDigit c = true) (depth : Nat) :
    (Outline.inside depth).step c = .inside depth := by
  have hquote : c ≠ '"' := by
    rintro rfl
    exact absurd h (by decide)
  have hbackslash : c ≠ '\\' := by
    rintro rfl
    exact absurd h (by decide)
  have hcontrol : 0x20 ≤ c.toNat := by
    have hrange := toNat_of_isHexDigit h
    omega
  exact Outline.step_inside_of_le hquote hbackslash hcontrol depth

def Symbol.outline (symbol : Symbol) (depth : Nat) : Outline :=
  match symbol with
  | .chars => .inside depth
  | _ => .outside depth

/-- Whatever a symbol stands for, the outline behind it is the one of the brackets around it. -/
theorem Derives.run_eq {symbol : Symbol} {text rest : Text} (h : Derives symbol text rest)
    (depth : Nat) :
    (symbol.outline (depth + 1)).run text = (Outline.outside (depth + 1)).run rest := by
  induction h generalizing depth with
  | noBlank => rfl
  | blank h more ih => exact (congrArg (Outline.run · _) (Outline.step_blank h _)).trans (ih depth)
  | quote => rfl
  | char hquote hbackslash hcontrol more ih =>
    exact (congrArg (Outline.run · _)
      (Outline.step_inside_of_le hquote hbackslash hcontrol _)).trans (ih depth)
  | escape h more ih => exact ih depth
  | @unit d₀ d₁ d₂ d₃ text rest h more ih =>
    have hdigits : ∀ d ∈ [d₀, d₁, d₂, d₃],
        (Outline.inside (depth + 1)).step d = .inside (depth + 1) := by
      intro d hd
      exact step_inside_of_isHexDigit (h d hd) (depth + 1)
    simp only [List.forall_mem_cons] at hdigits
    obtain ⟨h₀, h₁, h₂, h₃, -⟩ := hdigits
    change (((((Outline.inside (depth + 1)).step d₀).step d₁).step d₂).step d₃).run text = _
    rw [h₀, h₁, h₂, h₃]
    exact ih depth
  | @word word rest h =>
    have hplain : ∀ word ∈ ["null", "true", "false"].map String.toList,
      word.all Outline.isPlain = true := by decide
    rw [Outline.run_append]
    exact congrArg (Outline.run · _) (Outline.run_outside_of_isPlain (hplain word h) depth)
  | number h =>
    rw [Outline.run_append]
    exact congrArg (Outline.run · _) (Outline.run_outside_of_isPlain h.all_isPlain depth)
  | text chars ih => exact ih depth
  | emptyArray blanks ih => exact ih (depth + 1)
  | array items ih => exact ih (depth + 1)
  | emptyObject blanks ih => exact ih (depth + 1)
  | object members ih => exact ih (depth + 1)
  -- what stands for several symbols is run symbol by symbol
  | lastItem before item after hb hi ha => exact (hb depth).trans ((hi depth).trans (ha depth))
  | item before item after more hb hi ha hm =>
    exact (hb depth).trans ((hi depth).trans ((ha depth).trans (hm depth)))
  | lastMember before chars between between' member after hb hc hbt hbt' hm ha =>
    exact (hb depth).trans ((hc depth).trans ((hbt depth).trans ((hbt' depth).trans
      ((hm depth).trans (ha depth)))))
  | member before chars between between' member after more hb hc hbt hbt' hm ha hmore =>
    exact (hb depth).trans ((hc depth).trans ((hbt depth).trans ((hbt' depth).trans
      ((hm depth).trans ((ha depth).trans (hmore depth))))))

theorem Derives.run_blanks {text rest : Text} (h : Derives .blanks text rest) (depth : Nat) :
    (Outline.outside depth).run text = (Outline.outside depth).run rest := by
  generalize hs : Symbol.blanks = symbol at h
  induction h with
  | noBlank => rfl
  | blank h more ih =>
    rw [Outline.run_cons, Outline.step_blank h]
    exact ih hs
  | _ => cases hs

theorem ne_append_of_isPlain {token rest text : Text} (hne : token ≠ [])
    (h : token.all Outline.isPlain = true) : '[' :: text ≠ token ++ rest := by
  cases token with
  | nil => exact absurd rfl hne
  | cons c token =>
    intro heq
    rw [List.all_cons, Bool.and_eq_true, ← (List.cons.inj heq).1] at h
    exact absurd h.1 (by decide)

theorem Derives.run_array {text rest : Text} (h : Derives .value ('[' :: text) rest) :
    (Outline.outside 1).run text = (Outline.outside 0).run rest := by
  generalize hv : '[' :: text = value at h
  cases h with
  | @word word rest h =>
    have hplain : ∀ word ∈ ["null", "true", "false"].map String.toList,
      word ≠ [] ∧ word.all Outline.isPlain = true := by decide
    exact absurd hv (ne_append_of_isPlain (hplain word h).1 (hplain word h).2)
  | number h => exact absurd hv (ne_append_of_isPlain h.ne_nil h.all_isPlain)
  | text chars => cases hv
  | emptyArray blanks =>
    cases hv
    exact blanks.run_eq 0
  | array items =>
    cases hv
    exact items.run_eq 0
  | emptyObject blanks => cases hv
  | object members => cases hv

theorem IsDocument.run_array {text : Text} (h : IsDocument ('[' :: text)) :
    (Outline.outside 1).run text = .outside 0 := by
  obtain ⟨value, behind, before, hvalue, after⟩ := h
  cases before with
  | noBlank => rw [hvalue.run_array, after.run_blanks, Outline.run_nil]
  | blank h more => exact absurd h (by decide)

end BuildLog.Json
