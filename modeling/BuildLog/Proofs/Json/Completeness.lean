import BuildLog.Proofs.Json.Numerals

/-! What the grammar derives, the reader takes, but for integers that are too long. The proof goes
over a derivation, with one statement for each symbol: the reader comes from a place in front of
what the symbol stands for to the place behind it. -/
namespace BuildLog.Json

theorem Derives.suffix {symbol : Symbol} {text rest : Text} (h : Derives symbol text rest) :
    rest <:+ text := by
  have hcons {c : Char} {text rest : Text} (h : rest <:+ text) : rest <:+ c :: text :=
    h.trans (List.suffix_cons c text)
  have htail {c : Char} {text rest : Text} (h : c :: rest <:+ text) : rest <:+ text :=
    (List.suffix_cons c rest).trans h
  induction h with
  | noBlank => exact List.suffix_rfl
  | blank _ _ ih | char _ _ _ _ ih | text _ ih => exact hcons ih
  | quote => exact List.suffix_cons _ _
  | escape _ _ ih => exact hcons (hcons ih)
  | unit _ _ ih => exact hcons (hcons (hcons (hcons (hcons (hcons ih)))))
  | word _ | number _ => exact List.suffix_append _ _
  | emptyArray _ ih | array _ ih | emptyObject _ ih | object _ ih => exact hcons (htail ih)
  | lastItem _ _ _ before item after => exact (after.trans item).trans before
  | item _ _ _ _ before item after more =>
    exact ((more.trans (htail after)).trans item).trans before
  | lastMember _ _ _ _ _ _ before chars between between' member after =>
    exact ((((after.trans member).trans between').trans (htail between)).trans chars).trans
      (htail before)
  | member _ _ _ _ _ _ _ before chars between between' member after more =>
    exact (((((more.trans (htail after)).trans member).trans between').trans
      (htail between)).trans chars).trans (htail before)

def readOn (reader : Reader) (text : Text) : Except ReadError Json := do
  (← text.foldlM Reader.step reader).finish

def digitsOf (numeral : Text) : Text := numeral.filter (· ≠ '-')

/-- Whether a text is an integer that is too long for the reader. -/
structure IsLongInteger (numeral : Text) : Prop where
  is_numeral : IsNumeral numeral
  is_integer : ∀ c ∈ numeral, c = '-' ∨ c.isDigit = true
  long : maxDigits < (digitsOf numeral).length

def IsRefused (text : Text) (outcome : Except ReadError Json) : Prop :=
  ∃ numeral position, numeral <:+: text ∧ IsLongInteger numeral ∧
    outcome = .error ⟨.longInteger (digitsOf numeral).length, position⟩

theorem IsRefused.of_suffix {text rest : Text} {outcome : Except ReadError Json}
    (h : IsRefused rest outcome) (hrest : rest <:+ text) : IsRefused text outcome := by
  obtain ⟨numeral, position, hnumeral, hlong, houtcome⟩ := h
  exact ⟨numeral, position, hnumeral.trans hrest.isInfix, hlong, houtcome⟩

/-- From a reader in front of a text one comes to a reader in front of the rest of it, and both make
the same of what they read, unless the text is refused. -/
def Reaches (reader : Reader) (text rest : Text) (Q : Reader → Prop) : Prop :=
  (∃ behind, Q behind ∧ readOn reader text = readOn behind rest) ∨
    IsRefused text (readOn reader text)

section

variable {P Q R : Reader → Prop} {reader behind : Reader} {text mid rest : Text} {c : Char}

theorem readOn_nil (reader : Reader) : readOn reader [] = reader.finish := rfl

theorem readOn_cons (reader : Reader) (c : Char) (rest : Text) :
    readOn reader (c :: rest) = reader.step c >>= (readOn · rest) := by
  unfold readOn
  rw [List.foldlM_cons, bind_assoc]

theorem Takes.exists_readOn_eq (h : Takes P text Q) (hreader : P reader) (rest : Text) :
    ∃ behind, Q behind ∧ readOn reader (text ++ rest) = readOn behind rest := by
  obtain ⟨behind, hfold, hbehind⟩ := h reader hreader
  refine ⟨behind, hbehind, ?_⟩
  unfold readOn
  rw [List.foldlM_append, hfold]
  rfl

namespace Reaches

theorem refl (h : Q reader) (text : Text) : Reaches reader text text Q := .inl ⟨reader, h, rfl⟩

theorem trans (h : Reaches reader text mid Q) (hmid : mid <:+ text)
    (hmore : ∀ behind, Q behind → Reaches behind mid rest R) : Reaches reader text rest R := by
  obtain ⟨behind, hbehind, hread⟩ | hrefused := h
  · obtain ⟨last, hlast, hsame⟩ | hrefused := hmore behind hbehind
    · exact .inl ⟨last, hlast, hread.trans hsame⟩
    · rw [← hread] at hrefused
      exact .inr (hrefused.of_suffix hmid)
  · exact .inr hrefused

theorem step (h : reader.step c = .ok behind) (hmore : Reaches behind text rest Q) :
    Reaches reader (c :: text) rest Q :=
  trans (.inl ⟨behind, rfl, by rw [readOn_cons, h]; rfl⟩) (List.suffix_cons c text)
    fun _ heq => heq ▸ hmore

theorem mono (h : Reaches reader text rest Q) (hweak : ∀ reader, Q reader → R reader) :
    Reaches reader text rest R :=
  h.imp_left fun ⟨behind, hbehind, hread⟩ => ⟨behind, hweak behind hbehind, hread⟩

end Reaches
end

/-! The reader behind a value. -/

def put (position : Nat) (stack : List Frame) (value : Json) : Reader :=
  (⟨position, stack, .ended⟩ : Reader).settle value

def IsValuePlace (stack : List Frame) : Prop := ∀ members outer, stack ≠ .object members :: outer

/-- The reader is behind a value of some kind. -/
def Behind (stack : List Frame) (kind : Json → Prop) (reader : Reader) : Prop :=
  ∃ position value, kind value ∧ reader = put position stack value

theorem Behind.any {stack : List Frame} {kind : Json → Prop} {reader : Reader}
    (h : Behind stack kind reader) : Behind stack (fun _ => True) reader :=
  h.imp fun _ ⟨value, _, hreader⟩ => ⟨value, trivial, hreader⟩

def Stops (rest : Text) : Prop :=
  ∀ c ∈ rest.head?, c ∈ [' ', '\t', '\n', '\r', ',', ']', '\x7d']

section

variable {stack : List Frame} {value : Json} {position : Nat} {text rest : Text}

theorem Stops.of_blanks (h : Derives .blanks text rest) (hrest : Stops rest) : Stops text := by
  cases h with
  | noBlank => exact hrest
  | blank hc _ =>
    rintro _ ⟨⟩
    exact List.mem_append_left [',', ']', '\x7d'] hc

theorem settle_eq_put (h : IsValuePlace stack) (mode : Mode) :
    (⟨position, stack, mode⟩ : Reader).settle value = put position stack value := by
  cases stack with
  | nil => rfl
  | cons frame outer =>
    cases frame with
    | object members => exact absurd rfl (h members outer)
    | array | member => rfl

theorem step_put (h : IsValuePlace stack) (c : Char) :
    (put position stack value).step c = (put position stack value).afterValue c := by
  cases stack with
  | nil => rfl
  | cons frame outer =>
    cases frame with
    | object members => exact absurd rfl (h members outer)
    | array | member => rfl

theorem finish_put (h : IsValuePlace stack) : (put position stack value).finish =
    if stack.isEmpty then .ok value else Reader.fail .commaDue position := by
  cases stack with
  | nil => rfl
  | cons frame outer =>
    cases frame with
    | object members => exact absurd rfl (h members outer)
    | array | member => rfl

/-- A word counts as read only when the next character comes. -/
theorem readOn_word (h : IsValuePlace stack) (start : Nat) (rest : Text) :
    readOn ⟨position, stack, .word start [] value⟩ rest =
      readOn (put position stack value) rest := by
  cases rest with
  | nil =>
    rw [readOn_nil, readOn_nil, finish_put h]
    rfl
  | cons c rest =>
    rw [readOn_cons, readOn_cons, step_put h, ← settle_eq_put h]
    rfl

theorem reaches_word (h : IsValuePlace stack) {word : Text}
    (hword : word ∈ ["null", "true", "false"].map String.toList) (rest : Text) :
    Reaches ⟨position, stack, .value⟩ (word ++ rest) rest (Behind stack fun _ => True) := by
  have hbehind (position : Nat) (value : Json) :
      Behind stack (fun _ => True) (put position stack value) := ⟨position, value, trivial, rfl⟩
  simp only [List.map_cons, List.map_nil, List.mem_cons, List.not_mem_nil, or_false] at hword
  rcases hword with rfl | rfl | rfl <;> exact .inl ⟨_, hbehind _ _, readOn_word h position rest⟩

theorem length_filter_reverse (numeral : Text) :
    (numeral.reverse.filter (· ≠ '-')).length = (digitsOf numeral).length := by
  rw [List.filter_reverse, List.length_reverse]
  rfl

theorem settleNumber_of_isLongInteger {numeral : Text} (h : IsLongInteger numeral) (mode : Mode) :
    (⟨position, stack, mode⟩ : Reader).settleNumber numeral.reverse =
      .error ⟨.longInteger (digitsOf numeral).length, position⟩ := by
  have hinteger : numeral.all (fun c => c == '-' || c.isDigit) = true := by
    rw [List.all_eq_true]
    intro c hc
    simpa using h.is_integer c hc
  unfold Reader.settleNumber
  simp only [length_filter_reverse, List.all_reverse, h.long, hinteger, and_self, if_true]
  rfl

theorem settleNumber_of_not_isLongInteger (hplace : IsValuePlace stack) {numeral : Text}
    (hnumeral : IsNumeral numeral) (h : ¬ IsLongInteger numeral) (mode : Mode) :
    (⟨position, stack, mode⟩ : Reader).settleNumber numeral.reverse =
      .ok (put position stack (.number numeral)) := by
  unfold Reader.settleNumber
  simp only [length_filter_reverse, List.all_reverse, List.reverse_reverse, settle_eq_put hplace]
  rw [if_neg]
  rintro ⟨hlong, hinteger⟩
  refine h ⟨hnumeral, fun c hc => ?_, hlong⟩
  simpa using List.all_eq_true.mp hinteger c hc

theorem finish_number {sofar : Text} {phase : NumberPhase}
    (hphase : phase ∈ [.zero, .whole, .fraction, .power]) :
    (⟨position, stack, .number sofar phase⟩ : Reader).finish =
      (⟨position, stack, .number sofar phase⟩ : Reader).settleNumber sofar >>= fun _ =>
        if stack.isEmpty then .ok (.number sofar.reverse)
        else Reader.fail .commaDue position := by
  simp only [List.mem_cons, List.not_mem_nil, or_false] at hphase
  rcases hphase with rfl | rfl | rfl | rfl <;> rfl

theorem step_number {sofar : Text} {phase : NumberPhase} {c : Char}
    (hphase : phase ∈ [.zero, .whole, .fraction, .power])
    (hc : c ∈ [' ', '\t', '\n', '\r', ',', ']', '\x7d']) :
    (⟨position, stack, .number sofar phase⟩ : Reader).step c =
      (⟨position, stack, .number sofar phase⟩ : Reader).settleNumber sofar >>=
        (Reader.afterValue · c) := by
  simp only [List.mem_cons, List.not_mem_nil, or_false] at hphase hc
  rcases hphase with rfl | rfl | rfl | rfl <;>
    rcases hc with rfl | rfl | rfl | rfl | rfl | rfl | rfl <;> rfl

theorem exists_readOn_of_isLongInteger {numeral : Text} (h : IsLongInteger numeral)
    (hrest : Stops rest) : ∃ behind, readOn ⟨position, stack, .value⟩ (numeral ++ rest) =
      .error ⟨.longInteger (digitsOf numeral).length, behind⟩ := by
  have hstart : At stack .value ⟨position, stack, .value⟩ := ⟨rfl, rfl⟩
  obtain ⟨⟨behind, stack, _⟩, ⟨rfl, phase, hphase, rfl⟩, hsame⟩ :=
    (takes_numeral h.is_numeral).exists_readOn_eq hstart rest
  refine ⟨behind, hsame.trans ?_⟩
  cases rest with
  | nil =>
    rw [readOn_nil, finish_number hphase, settleNumber_of_isLongInteger h]
    rfl
  | cons c rest =>
    rw [readOn_cons, step_number hphase (hrest c rfl), settleNumber_of_isLongInteger h]
    rfl

theorem reaches_number (hplace : IsValuePlace stack) {numeral : Text} (h : IsNumeral numeral)
    (hrest : Stops rest) :
    Reaches ⟨position, stack, .value⟩ (numeral ++ rest) rest (Behind stack fun _ => True) := by
  by_cases hlong : IsLongInteger numeral
  · obtain ⟨behind, herror⟩ := exists_readOn_of_isLongInteger hlong hrest
    exact .inr ⟨numeral, behind, List.infix_append [] numeral rest, hlong, herror⟩
  have hstart : At stack .value ⟨position, stack, .value⟩ := ⟨rfl, rfl⟩
  obtain ⟨⟨behind, _, _⟩, ⟨rfl, phase, hphase, rfl⟩, hsame⟩ :=
    (takes_numeral h).exists_readOn_eq hstart rest
  refine .inl ⟨put behind _ (.number numeral), ⟨_, _, trivial, rfl⟩, hsame.trans ?_⟩
  cases rest with
  | nil =>
    rw [readOn_nil, readOn_nil, finish_number hphase, finish_put hplace,
      settleNumber_of_not_isLongInteger hplace h hlong, List.reverse_reverse]
    rfl
  | cons c rest =>
    rw [readOn_cons, readOn_cons, step_number hphase (hrest c rfl), step_put hplace,
      settleNumber_of_not_isLongInteger hplace h hlong]
    rfl

end

/-! The characters of a text. -/

def Inside (stack : List Frame) (reader : Reader) : Prop :=
  reader.stack = stack ∧
    ∃ start sofar unit, ∀ c, reader.step c = reader.stepPlain start sofar unit c

def Escapes (stack : List Frame) (reader : Reader) : Prop :=
  reader.stack = stack ∧ ∃ start sofar position first,
    reader.mode = .text start sofar (.backslash position first)

section

variable {stack : List Frame}

theorem inside_plain {reader : Reader} (h : reader.stack = stack) (start : Nat) (sofar : WideText) :
    Inside stack (reader.next (.text start sofar .plain)) :=
  ⟨h, start, sofar, none, fun _ => rfl⟩

theorem inside_complete {reader : Reader} (h : reader.stack = stack) (start : Nat)
    (sofar : WideText) (position code : Nat) :
    Inside stack (reader.next (.text start sofar (.complete position code))) :=
  ⟨h, start, sofar, some code, fun _ => rfl⟩

theorem takes_char {c : Char} (hquote : c ≠ '"') (hbackslash : c ≠ '\\')
    (hcontrol : 0x20 ≤ c.toNat) :
    Takes (Inside stack) [c] (Inside stack) := by
  apply Takes.single
  rintro reader ⟨hstack, start, sofar, unit, hstep⟩
  refine ⟨_, ?_, inside_plain hstack start (.char c :: Reader.withUnit unit sofar)⟩
  simp only [hstep, Reader.stepPlain, hquote, hbackslash, Nat.not_lt.mpr hcontrol, if_false]

theorem takes_escape : Takes (Inside stack) ['\\'] (Escapes stack) := by
  apply Takes.single
  rintro reader ⟨hstack, start, sofar, unit, hstep⟩
  rw [hstep, Reader.stepPlain, if_pos rfl]
  split
  next high _ => exact ⟨_, rfl, hstack, start, sofar, reader.position, some high, rfl⟩
  next => exact ⟨_, rfl, hstack, start, _, reader.position, none, rfl⟩

theorem takes_escapedLetter {c : Char} (h : c ∈ ['"', '\\', '/', 'b', 'f', 'n', 'r', 't']) :
    Takes (Escapes stack) [c] (Inside stack) := by
  apply Takes.single
  rintro ⟨position, stack, _⟩ ⟨rfl, start, sofar, before, first, rfl⟩
  obtain ⟨meant, hmeant⟩ : ∃ meant, Reader.escaped? c = some meant := by
    simp only [List.mem_cons, List.not_mem_nil, or_false] at h
    rcases h with rfl | rfl | rfl | rfl | rfl | rfl | rfl | rfl <;> exact ⟨_, rfl⟩
  have hu : c ≠ 'u' := by
    rintro rfl
    cases hmeant
  refine ⟨_, ?_, inside_plain rfl start (.char meant :: Reader.withUnit first sofar)⟩
  simp only [Reader.step, Reader.stepText, hu, hmeant, if_false]

theorem exists_hexValue?_eq {c : Char} (h : isHexDigit c = true) :
    ∃ digit, Reader.hexValue? c = some digit := by
  simp only [isHexDigit, Bool.or_eq_true, Bool.and_eq_true, decide_eq_true_eq] at h
  unfold Reader.hexValue?
  dsimp only
  split_ifs with hdigit hsmall hlarge
  · exact ⟨_, rfl⟩
  · exact ⟨_, rfl⟩
  · exact ⟨_, rfl⟩
  · exact absurd h (by simp [hdigit, hsmall, hlarge])

theorem inside_endUnit {reader : Reader} (h : reader.stack = stack) (start : Nat) (sofar : WideText)
    (position : Nat) (first : Option Nat) (code : Nat) :
    Inside stack (reader.endUnit start sofar position first code) := by
  unfold Reader.endUnit
  cases first with
  | none => exact inside_complete h _ _ _ _
  | some high =>
    dsimp only
    split <;> exact inside_complete h _ _ _ _

theorem takes_escapedUnit {d₀ d₁ d₂ d₃ : Char} (h : ∀ d ∈ [d₀, d₁, d₂, d₃], isHexDigit d = true) :
    Takes (Escapes stack) ['u', d₀, d₁, d₂, d₃] (Inside stack) := by
  rintro ⟨position, stack, _⟩ ⟨rfl, start, sofar, before, first, rfl⟩
  simp only [List.forall_mem_cons] at h
  obtain ⟨h₀, h₁, h₂, h₃, -⟩ := h
  obtain ⟨v₀, hv₀⟩ := exists_hexValue?_eq h₀
  obtain ⟨v₁, hv₁⟩ := exists_hexValue?_eq h₁
  obtain ⟨v₂, hv₂⟩ := exists_hexValue?_eq h₂
  obtain ⟨v₃, hv₃⟩ := exists_hexValue?_eq h₃
  simp only [List.foldlM_cons, List.foldlM_nil, Reader.step, Reader.stepText, hv₀, hv₁, hv₂, hv₃,
    Reader.next, if_true, bind, Except.bind, pure, Except.pure]
  exact ⟨_, rfl, inside_endUnit rfl start sofar _ first _⟩

theorem exists_step_quote {reader : Reader} (h : Inside stack reader) :
    ∃ position value, reader.step '"' = .ok (put position stack (.text value)) := by
  obtain ⟨position, stack, mode⟩ := reader
  obtain ⟨rfl, start, sofar, unit, hstep⟩ := h
  refine ⟨position + 1, (Reader.withUnit unit sofar).reverse, (hstep '"').trans ?_⟩
  cases stack with
  | nil => rfl
  | cons frame outer => cases frame <;> rfl

end

/-! What begins a value. -/

theorem exists_cons_of_isNumeral {numeral : Text} (h : IsNumeral numeral) :
    ∃ c tail, numeral = c :: tail ∧ (c = '-' ∨ c.isDigit = true) := by
  obtain ⟨sign, whole, fraction, power, rfl, hsign, hwhole, -⟩ := h
  obtain ⟨d, digits, rfl, hd⟩ : ∃ d digits, whole = d :: digits ∧ d.isDigit = true := by
    obtain rfl | ⟨⟨hne, hdigits⟩, -⟩ := hwhole
    · exact ⟨'0', [], rfl, rfl⟩
    · obtain ⟨d, digits, rfl⟩ := List.exists_cons_of_ne_nil hne
      exact ⟨d, digits, rfl, hdigits d List.mem_cons_self⟩
  obtain rfl | rfl := hsign
  · exact ⟨d, _, rfl, .inr hd⟩
  · exact ⟨'-', _, rfl, .inl rfl⟩

theorem Derives.exists_cons_of_value {text rest : Text} (h : Derives .value text rest) :
    ∃ c tail, text = c :: tail ∧
      (c ∈ ['n', 't', 'f', '"', '[', '\x7b', '-'] ∨ c.isDigit = true) := by
  cases h with
  | word hword =>
    simp only [List.map_cons, List.map_nil, List.mem_cons, List.not_mem_nil, or_false] at hword
    rcases hword with rfl | rfl | rfl <;> exact ⟨_, _, rfl, .inl (by decide)⟩
  | number hnumeral =>
    obtain ⟨c, tail, rfl, hc⟩ := exists_cons_of_isNumeral hnumeral
    exact ⟨c, _, rfl, hc.imp_left fun hminus => by simp [hminus]⟩
  | text | emptyArray | array | emptyObject | object => exact ⟨_, _, rfl, .inl (by decide)⟩

theorem Derives.ne_of_value {c : Char} {text rest : Text} (h : Derives .value (c :: text) rest)
    {d : Char} (hd : d ∉ ['n', 't', 'f', '"', '[', '\x7b', '-']) (hdigit : d.isDigit = false) :
    c ≠ d := by
  obtain ⟨c', tail, heq, hc⟩ := h.exists_cons_of_value
  cases heq
  rintro rfl
  obtain hc | hc := hc
  · exact hd hc
  · rw [hdigit] at hc
    cases hc

theorem readOn_firstItem {text rest : Text} (h : Derives .value text rest) (position : Nat)
    (stack : List Frame) :
    readOn ⟨position, stack, .firstItem⟩ text = readOn ⟨position, stack, .value⟩ text := by
  obtain ⟨c, tail, rfl, -⟩ := h.exists_cons_of_value
  have hblank : Reader.isBlank c = false := by
    simp only [Reader.isBlank, Bool.or_eq_false_iff, beq_eq_false_iff_ne]
    exact ⟨⟨⟨h.ne_of_value (by decide) rfl, h.ne_of_value (by decide) rfl⟩,
      h.ne_of_value (by decide) rfl⟩, h.ne_of_value (by decide) rfl⟩
  have hclose : c ≠ ']' := h.ne_of_value (by decide) rfl
  rw [readOn_cons, readOn_cons]
  simp only [Reader.step, hblank, hclose, Bool.false_eq_true, if_false]
  rfl

/-! The symbols of the grammar. -/

def IsText (value : Json) : Prop := ∃ text, value = .text text

def IsArray (value : Json) : Prop := ∃ items, value = .array items

def BehindItem (outer : List Frame) (reader : Reader) : Prop :=
  ∃ items, At (.array items :: outer) .ended reader

def BehindMember (outer : List Frame) (reader : Reader) : Prop :=
  ∃ members, At (.object members :: outer) .ended reader

def Symbol.IsTaken (text rest : Text) : Symbol → Prop
  | .blanks => ∀ stack mode reader, mode.isBetween = true → At stack mode reader →
    Reaches reader text rest (At stack mode)
  | .chars => ∀ stack reader, Inside stack reader → Reaches reader text rest (Behind stack IsText)
  | .value => Stops rest → ∀ stack reader, IsValuePlace stack → At stack .value reader →
    Reaches reader text rest (Behind stack fun _ => True)
  | .items => Stops rest → ∀ items outer mode reader, mode = .firstItem ∨ mode = .value →
    At (.array items :: outer) mode reader → Reaches reader text rest (BehindItem outer)
  | .members => Stops rest → ∀ members outer mode reader, mode = .firstName ∨ mode = .name →
    At (.object members :: outer) mode reader → Reaches reader text rest (BehindMember outer)

section

variable {stack outer : List Frame} {reader : Reader} {text value behind rest : Text}

theorem stops_cons {c : Char} (hc : c ∈ [',', ']', '\x7d']) (rest : Text) : Stops (c :: rest) := by
  rintro _ ⟨⟩
  exact List.mem_append_right [' ', '\t', '\n', '\r'] hc

theorem isTaken_blank {c : Char} (hc : c ∈ [' ', '\t', '\n', '\r'])
    (h : Symbol.blanks.IsTaken text rest) : Symbol.blanks.IsTaken (c :: text) rest := by
  rintro stack mode ⟨position, _, _⟩ hbetween ⟨rfl, rfl⟩
  have hblank : Reader.isBlank c = true := by
    simpa [Reader.isBlank, or_assoc] using hc
  exact .step (step_blank hbetween hblank) (h _ _ _ hbetween ⟨rfl, rfl⟩)

theorem isTaken_chars {segment : Text}
    (hsegment : ∀ stack, Takes (Inside stack) segment (Inside stack))
    (h : Symbol.chars.IsTaken text rest) : Symbol.chars.IsTaken (segment ++ text) rest := by
  intro stack reader hreader
  obtain ⟨behind, hbehind, hsame⟩ := (hsegment stack).exists_readOn_eq hreader text
  exact .trans (.inl ⟨behind, hbehind, hsame⟩) (List.suffix_append _ _) (h stack)

theorem isTaken_quote (rest : Text) : Symbol.chars.IsTaken ('"' :: rest) rest := by
  intro stack reader hreader
  obtain ⟨position, value, hstep⟩ := exists_step_quote hreader
  exact .step hstep (.refl ⟨position, .text value, ⟨value, rfl⟩, rfl⟩ rest)

theorem reaches_text (h : Symbol.chars.IsTaken text rest) (hreader : At stack .value reader) :
    Reaches reader ('"' :: text) rest (Behind stack IsText) := by
  obtain ⟨position, stack, _⟩ := reader
  obtain ⟨rfl, rfl⟩ := hreader
  exact .step rfl (h _ _ (inside_plain rfl position []))

theorem reaches_arrayEnd (hreader : BehindItem stack reader) (rest : Text) :
    Reaches reader (']' :: rest) rest (Behind stack IsArray) := by
  obtain ⟨position, stack, _⟩ := reader
  obtain ⟨items, rfl, rfl⟩ := hreader
  exact .step rfl (.refl ⟨position + 1, .array items.reverse, ⟨_, rfl⟩, rfl⟩ rest)

theorem reaches_array (h : Symbol.items.IsTaken text (']' :: rest)) (hsuffix : ']' :: rest <:+ text)
    (hreader : At stack .value reader) :
    Reaches reader ('[' :: text) rest (Behind stack IsArray) := by
  obtain ⟨position, stack, _⟩ := reader
  obtain ⟨rfl, rfl⟩ := hreader
  have hitems := h (stops_cons (by simp) rest) [] stack .firstItem
    ⟨position + 1, .array [] :: stack, .firstItem⟩ (.inl rfl) ⟨rfl, rfl⟩
  exact .step rfl (hitems.trans hsuffix fun _ hbehind => reaches_arrayEnd hbehind rest)

theorem reaches_emptyArray (h : Symbol.blanks.IsTaken text (']' :: rest))
    (hsuffix : ']' :: rest <:+ text) (hreader : At stack .value reader) :
    Reaches reader ('[' :: text) rest (Behind stack IsArray) := by
  obtain ⟨position, stack, _⟩ := reader
  obtain ⟨rfl, rfl⟩ := hreader
  have hblanks := h (.array [] :: stack) .firstItem
    ⟨position + 1, .array [] :: stack, .firstItem⟩ rfl ⟨rfl, rfl⟩
  refine .step rfl (hblanks.trans hsuffix ?_)
  rintro ⟨position, _, _⟩ ⟨rfl, rfl⟩
  exact .step rfl (.refl ⟨position + 1, .array [], ⟨[], rfl⟩, rfl⟩ rest)

theorem reaches_objectEnd (hreader : BehindMember stack reader) (rest : Text) :
    Reaches reader ('\x7d' :: rest) rest (Behind stack fun _ => True) := by
  obtain ⟨position, stack, _⟩ := reader
  obtain ⟨members, rfl, rfl⟩ := hreader
  exact .step rfl (.refl ⟨position + 1, .object members.reverse, trivial, rfl⟩ rest)

theorem reaches_object (h : Symbol.members.IsTaken text ('\x7d' :: rest))
    (hsuffix : '\x7d' :: rest <:+ text) (hreader : At stack .value reader) :
    Reaches reader ('\x7b' :: text) rest (Behind stack fun _ => True) := by
  obtain ⟨position, stack, _⟩ := reader
  obtain ⟨rfl, rfl⟩ := hreader
  have hmembers := h (stops_cons (by simp) rest) [] stack .firstName
    ⟨position + 1, .object [] :: stack, .firstName⟩ (.inl rfl) ⟨rfl, rfl⟩
  exact .step rfl (hmembers.trans hsuffix fun _ hbehind => reaches_objectEnd hbehind rest)

theorem reaches_emptyObject (h : Symbol.blanks.IsTaken text ('\x7d' :: rest))
    (hsuffix : '\x7d' :: rest <:+ text) (hreader : At stack .value reader) :
    Reaches reader ('\x7b' :: text) rest (Behind stack fun _ => True) := by
  obtain ⟨position, stack, _⟩ := reader
  obtain ⟨rfl, rfl⟩ := hreader
  have hblanks := h (.object [] :: stack) .firstName
    ⟨position + 1, .object [] :: stack, .firstName⟩ rfl ⟨rfl, rfl⟩
  refine .step rfl (hblanks.trans hsuffix ?_)
  rintro ⟨position, _, _⟩ ⟨rfl, rfl⟩
  exact .step rfl (.refl ⟨position + 1, .object [], trivial, rfl⟩ rest)

theorem reaches_item (before : Derives .blanks text value)
    (hbefore : Symbol.blanks.IsTaken text value)
    (item : Derives .value value behind) (hitem : Symbol.value.IsTaken value behind)
    (after : Derives .blanks behind rest) (hafter : Symbol.blanks.IsTaken behind rest)
    (hrest : Stops rest) {items : List Json} {mode : Mode}
    (hmode : mode = .firstItem ∨ mode = .value)
    (hreader : At (.array items :: outer) mode reader) :
    Reaches reader text rest (BehindItem outer) := by
  have hbetween : mode.isBetween = true := by
    obtain rfl | rfl := hmode <;> rfl
  have hplace : IsValuePlace (.array items :: outer) := nofun
  refine (hbefore _ _ _ hbetween hreader).trans before.suffix ?_
  rintro ⟨position, _, mode⟩ ⟨rfl, rfl⟩
  have hvalue : Reaches ⟨position, .array items :: outer, mode⟩ value behind
      (Behind (.array items :: outer) fun _ => True) := by
    have hread := hitem (hrest.of_blanks after) _ ⟨position, _, .value⟩ hplace ⟨rfl, rfl⟩
    -- an item begins with no bracket that closes, so it does not matter that one might come first
    obtain rfl | rfl := hmode
    · unfold Reaches at hread ⊢
      rwa [readOn_firstItem item]
    · exact hread
  refine hvalue.trans item.suffix ?_
  rintro _ ⟨position, element, -, rfl⟩
  exact (hafter _ .ended _ rfl ⟨rfl, rfl⟩).mono fun _ hbehind => ⟨element :: items, hbehind⟩

theorem reaches_member {name colon blanks : Text} (before : Derives .blanks text ('"' :: name))
    (hbefore : Symbol.blanks.IsTaken text ('"' :: name)) (chars : Derives .chars name colon)
    (hchars : Symbol.chars.IsTaken name colon) (between : Derives .blanks colon (':' :: blanks))
    (hcolon : Symbol.blanks.IsTaken colon (':' :: blanks)) (between' : Derives .blanks blanks value)
    (hblanks : Symbol.blanks.IsTaken blanks value) (member : Derives .value value behind)
    (hmember : Symbol.value.IsTaken value behind) (after : Derives .blanks behind rest)
    (hafter : Symbol.blanks.IsTaken behind rest) (hrest : Stops rest)
    {members : List (WideText × Json)} {mode : Mode} (hmode : mode = .firstName ∨ mode = .name)
    (hreader : At (.object members :: outer) mode reader) :
    Reaches reader text rest (BehindMember outer) := by
  have hbetween : mode.isBetween = true := by
    obtain rfl | rfl := hmode <;> rfl
  refine (hbefore _ _ _ hbetween hreader).trans before.suffix ?_
  rintro ⟨position, _, mode⟩ ⟨rfl, rfl⟩
  have hquote : Reaches ⟨position, .object members :: outer, mode⟩ ('"' :: name) colon
      (Behind (.object members :: outer) IsText) := by
    have hinside : Inside (.object members :: outer)
        ⟨position + 1, .object members :: outer, .text position [] .plain⟩ :=
      ⟨rfl, position, [], none, fun _ => rfl⟩
    obtain rfl | rfl := hmode <;> exact .step rfl (hchars _ _ hinside)
  refine hquote.trans (chars.suffix.trans (List.suffix_cons _ _)) ?_
  rintro _ ⟨position, _, ⟨name, rfl⟩, rfl⟩
  refine (hcolon (.member members name :: outer) .colon _ rfl ⟨rfl, rfl⟩).trans between.suffix ?_
  rintro ⟨position, _, _⟩ ⟨rfl, rfl⟩
  have hplace : IsValuePlace (.member members name :: outer) := nofun
  refine .step rfl ((hblanks (.member members name :: outer) .value _ rfl ⟨rfl, rfl⟩).trans
    between'.suffix fun reader hreader => ?_)
  refine (hmember (hrest.of_blanks after) _ _ hplace hreader).trans member.suffix ?_
  rintro _ ⟨position, field, -, rfl⟩
  exact (hafter _ .ended _ rfl ⟨rfl, rfl⟩).mono fun _ hbehind => ⟨(name, field) :: members, hbehind⟩

theorem reaches_comma {text : Text} {frame : Frame} {mode : Mode}
    (hstep : ∀ position, (⟨position, frame :: outer, .ended⟩ : Reader).step ',' =
      .ok ⟨position + 1, frame :: outer, mode⟩) (hreader : At (frame :: outer) .ended reader)
    {Q : Reader → Prop}
    (hmore : ∀ reader, At (frame :: outer) mode reader → Reaches reader text rest Q) :
    Reaches reader (',' :: text) rest Q := by
  obtain ⟨position, _, _⟩ := reader
  obtain ⟨rfl, rfl⟩ := hreader
  exact .step (hstep position) (hmore _ ⟨rfl, rfl⟩)

/-- Whatever a symbol stands for is taken. -/
theorem Derives.isTaken {symbol : Symbol} {text rest : Text} (h : Derives symbol text rest) :
    symbol.IsTaken text rest := by
  induction h with
  | noBlank => exact fun stack mode reader _ hreader => .refl hreader _
  | blank hc _ ih => exact isTaken_blank hc ih
  | @quote rest => exact isTaken_quote rest
  | char hquote hbackslash hcontrol _ ih =>
    exact isTaken_chars (fun _ => takes_char hquote hbackslash hcontrol) ih
  | escape hc _ ih => exact isTaken_chars (fun _ => takes_escape.append (takes_escapedLetter hc)) ih
  | unit hd _ ih => exact isTaken_chars (fun _ => takes_escape.append (takes_escapedUnit hd)) ih
  | @word word rest hword =>
    rintro - stack ⟨position, _, _⟩ hplace ⟨rfl, rfl⟩
    exact reaches_word hplace hword rest
  | number hnumeral =>
    rintro hrest stack ⟨position, _, _⟩ hplace ⟨rfl, rfl⟩
    exact reaches_number hplace hnumeral hrest
  | text _ ih =>
    exact fun _ _ _ _ hreader => (reaches_text ih hreader).mono fun _ => Behind.any
  | emptyArray blanks ih =>
    exact fun _ _ _ _ hreader =>
      (reaches_emptyArray ih blanks.suffix hreader).mono fun _ => Behind.any
  | array items ih =>
    exact fun _ _ _ _ hreader => (reaches_array ih items.suffix hreader).mono fun _ => Behind.any
  | emptyObject blanks ih => exact fun _ _ _ _ => reaches_emptyObject ih blanks.suffix
  | object members ih => exact fun _ _ _ _ => reaches_object ih members.suffix
  | lastItem before item after hbefore hitem hafter =>
    exact fun hrest _ _ _ _ => reaches_item before hbefore item hitem after hafter hrest
  | item before item after more hbefore hitem hafter hmore =>
    intro hrest items outer mode reader hmode hreader
    refine (reaches_item before hbefore item hitem after hafter (stops_cons (by simp) _) hmode
      hreader).trans ((after.suffix.trans item.suffix).trans before.suffix) ?_
    rintro reader ⟨items, hbehind⟩
    exact reaches_comma (fun _ => rfl) hbehind fun reader =>
      hmore hrest items outer .value reader (.inr rfl)
  | lastMember before chars between between' member after hbefore hchars hcolon hblanks hmember
      hafter =>
    exact fun hrest _ _ _ _ => reaches_member before hbefore chars hchars between hcolon between'
      hblanks member hmember after hafter hrest
  | member before chars between between' member after more hbefore hchars hcolon hblanks hmember
      hafter hmore =>
    intro hrest members outer mode reader hmode hreader
    refine (reaches_member before hbefore chars hchars between hcolon between' hblanks member
      hmember after hafter (stops_cons (by simp) _) hmode hreader).trans ?_ ?_
    · exact ((((after.suffix.trans member.suffix).trans between'.suffix).trans
        ((List.suffix_cons _ _).trans between.suffix)).trans chars.suffix).trans
        ((List.suffix_cons _ _).trans before.suffix)
    · rintro reader ⟨members, hbehind⟩
      exact reaches_comma (fun _ => rfl) hbehind fun reader =>
        hmore hrest members outer .name reader (.inr rfl)

end

/-! Documents. -/

/-- Whether a text is a document that is an array. -/
def IsArrayDocument (text : Text) : Prop :=
  ∃ inside behind, Derives .blanks text ('[' :: inside) ∧ Derives .value ('[' :: inside) behind ∧
    Derives .blanks behind []

theorem reaches_of_array {inside behind : Text} (h : Derives .value ('[' :: inside) behind)
    {stack : List Frame} {reader : Reader} (hreader : At stack .value reader) :
    Reaches reader ('[' :: inside) behind (Behind stack IsArray) := by
  generalize hv : '[' :: inside = value at h ⊢
  cases h with
  | word hword =>
    simp only [List.map_cons, List.map_nil, List.mem_cons, List.not_mem_nil, or_false] at hword
    rcases hword with rfl | rfl | rfl <;> cases hv
  | number hnumeral =>
    obtain ⟨c, tail, rfl, hc⟩ := exists_cons_of_isNumeral hnumeral
    rw [← (List.cons.inj hv).1] at hc
    exact absurd hc (by decide)
  | text | emptyObject | object => cases hv
  | emptyArray blanks =>
    cases hv
    exact reaches_emptyArray blanks.isTaken blanks.suffix hreader
  | array items =>
    cases hv
    exact reaches_array items.isTaken items.suffix hreader

theorem read_of_reaches {text value behind : Text} {kind : Json → Prop}
    (before : Derives .blanks text value) (hvalue : Derives .value value behind)
    (after : Derives .blanks behind [])
    (hreaches : ∀ reader, At [] .value reader → Reaches reader value behind (Behind [] kind)) :
    (∃ document, kind document ∧ read text = .ok document) ∨ IsRefused text (read text) := by
  have hmark : text.head? ≠ some '\ufeff' := by
    intro h
    cases before with
    | noBlank =>
      obtain ⟨c, tail, rfl, hc⟩ := hvalue.exists_cons_of_value
      rw [Option.some.inj h] at hc
      exact absurd hc (by decide)
    | blank hc _ =>
      rw [Option.some.inj h] at hc
      exact absurd hc (by decide)
  have hread : read text = readOn .start text := if_neg hmark
  have hdocument : Reaches .start text [] fun reader =>
      ∃ document, kind document ∧ At [] (.done document) reader := by
    refine (before.isTaken [] .value .start rfl ⟨rfl, rfl⟩).trans before.suffix
      fun reader hreader => ?_
    refine (hreaches reader hreader).trans hvalue.suffix ?_
    rintro _ ⟨position, document, hkind, rfl⟩
    exact (after.isTaken [] (.done document) _ rfl ⟨rfl, rfl⟩).mono
      fun _ hbehind => ⟨document, hkind, hbehind⟩
  rw [hread]
  refine hdocument.imp_left ?_
  rintro ⟨⟨position, _, _⟩, ⟨document, hkind, rfl, rfl⟩, hsame⟩
  exact ⟨document, hkind, hsame⟩

/-- A document is read, unless it holds an integer that is too long. -/
theorem read_of_isDocument {text : Text} (h : IsDocument text) :
    (∃ document, read text = .ok document) ∨ IsRefused text (read text) := by
  obtain ⟨value, behind, before, hvalue, after⟩ := h
  have hread := read_of_reaches before hvalue after fun reader hreader =>
    hvalue.isTaken (Stops.of_blanks after (by simp [Stops])) [] reader nofun hreader
  exact hread.imp_left fun ⟨document, _, hdocument⟩ => ⟨document, hdocument⟩

theorem read_of_isArrayDocument {text : Text} (h : IsArrayDocument text) :
    (∃ items, read text = .ok (.array items)) ∨ IsRefused text (read text) := by
  obtain ⟨inside, behind, before, hvalue, after⟩ := h
  have hread := read_of_reaches before hvalue after fun _ => reaches_of_array hvalue
  refine hread.imp_left ?_
  rintro ⟨_, ⟨items, rfl⟩, hdocument⟩
  exact ⟨items, hdocument⟩

end BuildLog.Json
