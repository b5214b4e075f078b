import BuildLog.Text.Basic

/-! Control sequences of a terminal: an escape and an opening bracket, parameters, intermediates,
and one final character. A sequence takes no room on the screen and is left out of messages. What
only begins like a sequence is shown as it stands. -/
namespace BuildLog.Text

inductive Glyph
  | visible (c : Char)
  | sequence (text : Text)
deriving DecidableEq, Repr

def isParameter (c : Char) : Bool := '0' ≤ c && c ≤ '?'

def isIntermediate (c : Char) : Bool := ' ' ≤ c && c ≤ '/'

def isFinal (c : Char) : Bool := '@' ≤ c && c ≤ '~'

def sequence? : Text → Option (Text × Text)
  | '\x1b' :: '[' :: rest =>
    let parameters := rest.takeWhile isParameter
    let rest := rest.dropWhile isParameter
    let intermediates := rest.takeWhile isIntermediate
    match rest.dropWhile isIntermediate with
    | [] => none
    | last :: rest =>
      if isFinal last then
        some ('\x1b' :: '[' :: (parameters ++ intermediates ++ [last]), rest)
      else none
  | _ => none

inductive IsSequence : Text → Prop
  | intro {parameters intermediates : Text} {last : Char}
    (hparameters : ∀ c ∈ parameters, isParameter c = true)
    (hintermediates : ∀ c ∈ intermediates, isIntermediate c = true)
    (hlast : isFinal last = true) :
    IsSequence ('\x1b' :: '[' :: (parameters ++ intermediates ++ [last]))

theorem isParameter_eq_false_of_isIntermediate {c : Char} (h : isIntermediate c = true) :
    isParameter c = false := by
  simp only [isIntermediate, isParameter, Bool.and_eq_true, Bool.and_eq_false_iff,
    decide_eq_true_eq, decide_eq_false_iff_not] at *
  exact .inl fun hc => absurd (Char.le_trans hc h.2) (by decide)

theorem isParameter_eq_false_of_isFinal {c : Char} (h : isFinal c = true) :
    isParameter c = false := by
  simp only [isFinal, isParameter, Bool.and_eq_true, Bool.and_eq_false_iff,
    decide_eq_true_eq, decide_eq_false_iff_not] at *
  exact .inr fun hc => absurd (Char.le_trans h.1 hc) (by decide)

theorem isIntermediate_eq_false_of_isFinal {c : Char} (h : isFinal c = true) :
    isIntermediate c = false := by
  simp only [isFinal, isIntermediate, Bool.and_eq_true, Bool.and_eq_false_iff,
    decide_eq_true_eq, decide_eq_false_iff_not] at *
  exact .inr fun hc => absurd (Char.le_trans h.1 hc) (by decide)

theorem takeWhile_dropWhile_append {p : Char → Bool} {run rest : Text}
    (hrun : ∀ c ∈ run, p c = true) (hrest : ∀ c ∈ rest.head?, p c = false) :
    (run ++ rest).takeWhile p = run ∧ (run ++ rest).dropWhile p = rest := by
  rw [List.takeWhile_append_of_pos hrun, List.dropWhile_append_of_pos hrun]
  cases rest with
  | nil => simp
  | cons c rest =>
    have hc : p c = false := hrest c rfl
    simp [hc]

theorem sequence?_append {sequence : Text} (h : IsSequence sequence) (rest : Text) :
    sequence? (sequence ++ rest) = some (sequence, rest) := by
  obtain @⟨parameters, intermediates, last, hparameters, hintermediates, hlast⟩ := h
  have hend : ∀ c ∈ (last :: rest).head?, isIntermediate c = false := by
    simpa using isIntermediate_eq_false_of_isFinal hlast
  have hhead : ∀ c ∈ (intermediates ++ last :: rest).head?, isParameter c = false := by
    cases intermediates with
    | nil => simpa using isParameter_eq_false_of_isFinal hlast
    | cons c _ =>
      simpa using isParameter_eq_false_of_isIntermediate (hintermediates c List.mem_cons_self)
  obtain ⟨htake, hdrop⟩ := takeWhile_dropWhile_append hintermediates hend
  obtain ⟨htakeParameters, hdropParameters⟩ := takeWhile_dropWhile_append hparameters hhead
  have hall : parameters ++ intermediates ++ [last] ++ rest =
      parameters ++ (intermediates ++ last :: rest) := by
    simp
  rw [List.cons_append, List.cons_append, hall]
  unfold sequence?
  simp only [htakeParameters, hdropParameters, htake, hdrop, hlast, if_true]

/-- A sequence of numbers and one letter, as everything knows it that knows any. -/
inductive IsCommonSequence : Text → Prop
  | intro {parameters : Text} {last : Char}
    (hparameters : ∀ c ∈ parameters, c.isDigit = true ∨ c = ';' ∨ c = '?')
    (hlast : last.isAlpha = true) : IsCommonSequence ('\x1b' :: '[' :: (parameters ++ [last]))

theorem IsCommonSequence.isSequence {sequence : Text} (h : IsCommonSequence sequence) :
    IsSequence sequence := by
  obtain @⟨parameters, last, hparameters, hlast⟩ := h
  have hnumbers : ∀ c ∈ parameters, isParameter c = true := by
    intro c hc
    obtain hdigit | rfl | rfl := hparameters c hc
    · simp only [Char.isDigit, isParameter, Bool.and_eq_true, decide_eq_true_eq] at *
      exact ⟨hdigit.1, Char.le_trans hdigit.2 (by decide)⟩
    · rfl
    · rfl
  have hfinal : isFinal last = true := by
    simp only [isFinal, Bool.and_eq_true, decide_eq_true_eq]
    obtain h | h := Bool.or_eq_true_iff.mp (hlast : (last.isUpper || last.isLower) = true)
    · obtain ⟨hlow, hhigh⟩ : 'A' ≤ last ∧ last ≤ 'Z' := of_decide_eq_true h
      exact ⟨Char.le_trans (by decide) hlow, Char.le_trans hhigh (by decide)⟩
    · obtain ⟨hlow, hhigh⟩ :=
        Bool.and_eq_true_iff.mp (h : (decide ('a' ≤ last) && decide (last ≤ 'z')) = true)
      exact ⟨Char.le_trans (by decide) (of_decide_eq_true hlow),
        Char.le_trans (of_decide_eq_true hhigh) (by decide)⟩
  have hsequence := IsSequence.intro hnumbers (List.forall_mem_nil _) hfinal
  rwa [List.append_nil] at hsequence

theorem append_of_sequence? {text sequence rest : Text}
    (h : sequence? text = some (sequence, rest)) : sequence ++ rest = text := by
  unfold sequence? at h
  split at h
  next tail =>
    dsimp only at h
    split at h
    · simp at h
    next last rest' split =>
      split at h
      · obtain ⟨rfl, rfl⟩ := Prod.mk.inj (Option.some.inj h)
        have inner := List.takeWhile_append_dropWhile
          (p := isIntermediate) (l := tail.dropWhile isParameter)
        have outer := List.takeWhile_append_dropWhile (p := isParameter) (l := tail)
        rw [split] at inner
        simp only [List.cons_append, List.append_assoc, List.nil_append, inner, outer]
      · simp at h
  · simp at h

theorem length_of_sequence? {text sequence rest : Text}
    (h : sequence? text = some (sequence, rest)) : rest.length < text.length := by
  have whole := congrArg List.length (append_of_sequence? h)
  have nonempty : sequence ≠ [] := by
    rintro rfl
    unfold sequence? at h
    split at h
    · dsimp only at h
      repeat' split at h
      all_goals simp at h
    · simp at h
  have := List.length_pos_iff.2 nonempty
  simp only [List.length_append] at whole
  omega

def glyphs (text : Text) : List Glyph :=
  match text with
  | [] => []
  | c :: rest =>
    match h : sequence? (c :: rest) with
    | some (sequence, after) =>
      have : after.length ≤ rest.length := Nat.le_of_lt_succ (length_of_sequence? h)
      .sequence sequence :: glyphs after
    | none => .visible c :: glyphs rest
termination_by text.length

def Glyph.text : Glyph → Text
  | .visible c => [c]
  | .sequence text => text

def Glyph.seen : Glyph → Text
  | .visible c => [c]
  | .sequence _ => []

def withoutSequences (text : Text) : Text := (glyphs text).flatMap Glyph.seen

@[simp] theorem withoutSequences_nil : withoutSequences [] = [] := by
  unfold withoutSequences
  rw [glyphs.eq_def]
  rfl

theorem withoutSequences_of_sequence? {text sequence rest : Text}
    (h : sequence? text = some (sequence, rest)) :
    withoutSequences text = withoutSequences rest := by
  unfold withoutSequences
  cases text with
  | nil => simp [sequence?] at h
  | cons c text =>
    rw [glyphs.eq_def]
    dsimp only
    split
    next heq =>
      rw [h] at heq
      cases heq
      rfl
    next heq => simp [h] at heq

theorem withoutSequences_sequence_append {sequence : Text} (h : IsSequence sequence) (more : Text) :
    withoutSequences (sequence ++ more) = withoutSequences more :=
  withoutSequences_of_sequence? (sequence?_append h more)

theorem withoutSequences_of_none {c : Char} {text : Text} (h : sequence? (c :: text) = none) :
    withoutSequences (c :: text) = c :: withoutSequences text := by
  unfold withoutSequences
  rw [glyphs.eq_def]
  dsimp only
  split
  next heq => simp [h] at heq
  next => rfl

theorem withoutSequences_cons {c : Char} (h : c ≠ '\x1b') (text : Text) :
    withoutSequences (c :: text) = c :: withoutSequences text := by
  apply withoutSequences_of_none
  unfold sequence?
  split
  next heq => exact absurd (List.cons.inj heq).1 h
  next => rfl

theorem withoutSequences_append {text : Text} (h : '\x1b' ∉ text) (more : Text) :
    withoutSequences (text ++ more) = text ++ withoutSequences more := by
  induction text with
  | nil => rfl
  | cons c text ih =>
    rw [List.mem_cons, not_or] at h
    rw [List.cons_append, withoutSequences_cons (Ne.symm h.1), ih h.2, List.cons_append]

theorem withoutSequences_sublist (text : Text) : (withoutSequences text).Sublist text := by
  fun_induction glyphs text with
  | case1 => simp
  | case2 c rest sequence after h _ ih =>
    rw [withoutSequences_of_sequence? h, ← append_of_sequence? h]
    exact ih.trans (List.sublist_append_right sequence after)
  | case3 c rest h ih =>
    rw [withoutSequences_of_none h]
    exact ih.cons_cons c

def Glyph.width (places : List Glyph) : Nat := (places.flatMap Glyph.seen).length

/-- The shortest beginning that takes so much room, or all of the places if they take less, and
what is left. A sequence behind the last character that there is room for is left. -/
def Glyph.splitWidth : Nat → List Glyph → List Glyph × List Glyph
  | 0, places => ([], places)
  | _, [] => ([], [])
  | width + 1, .sequence text :: rest =>
    let (here, left) := splitWidth (width + 1) rest
    (.sequence text :: here, left)
  | width + 1, .visible c :: rest =>
    let (here, left) := splitWidth width rest
    (.visible c :: here, left)

theorem Glyph.append_splitWidth (width : Nat) (places : List Glyph) :
    (splitWidth width places).1 ++ (splitWidth width places).2 = places := by
  fun_induction splitWidth width places <;> simp_all

theorem Glyph.length_splitWidth {width : Nat} {places : List Glyph} (room : 0 < width)
    (nonempty : places ≠ []) : (splitWidth width places).2.length < places.length := by
  have whole := congrArg List.length (append_splitWidth width places)
  have taken : (splitWidth width places).1 ≠ [] := by
    cases width with
    | zero => omega
    | succ width =>
      cases places with
      | nil => exact absurd rfl nonempty
      | cons place rest => cases place <;> simp [splitWidth]
  have := List.length_pos_iff.2 taken
  simp only [List.length_append] at whole
  omega

end BuildLog.Text
