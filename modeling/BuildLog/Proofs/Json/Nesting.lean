import BuildLog.Proofs.Attempt
import BuildLog.Proofs.Json.Outline
import BuildLog.Proofs.Json.Reading

/-! The reader and the outline of what it reads. While the reader goes on, the brackets on its stack
are the ones that the outline counts, so it has a document at the end of an array only if the
outline has come back to depth zero. -/
namespace BuildLog.Json

def Frame.isValued : Frame → Bool
  | .object _ => false
  | _ => true

/-- Whether a reader can be in the middle of something inside of the innermost bracket. -/
def Mode.suits : Mode → Option Frame → Bool
  | .done _, none => true
  | .value, some frame | .number .., some frame => frame.isValued
  | .word _ rest _, some frame => frame.isValued && rest.all Outline.isPlain
  | .firstItem, some (.array _) => true
  | .firstName, some (.object _) | .name, some (.object _) => true
  | .colon, some (.member ..) => true
  | .ended, some (.array _) | .ended, some (.object _) => true
  | .text .., some _ => true
  | _, _ => false

inductive Mode.IsBehindValue : Mode → Prop
  | ended : IsBehindValue .ended
  | done (document : Json) : IsBehindValue (.done document)

namespace Reader

def outline (reader : Reader) : Outline :=
  match reader.mode with
  | .text _ _ (.backslash ..) => .escape reader.stack.length
  | .text .. => .inside reader.stack.length
  | _ => .outside reader.stack.length

/-- The reader stands where an outline is, and its brackets lie in one another. -/
structure Stands (outline : Outline) (reader : Reader) : Prop where
  outer : ∀ frame ∈ reader.stack.tail, frame.isValued = true
  suits : reader.mode.suits reader.stack.head? = true
  outline_eq : reader.outline = outline

variable {reader next : Reader} {frame : Frame} {outer : List Frame} {c : Char} {value : Json}

theorem isBlank_iff : isBlank c = true ↔ c ∈ [' ', '\t', '\n', '\r'] := by
  simp [isBlank, or_assoc]

theorem isPlain_of_isDigit (h : c.isDigit = true) : Outline.isPlain c = true := by
  have hdigits : IsDigits [c] := ⟨List.cons_ne_nil c [], by simpa using h⟩
  simpa using hdigits.all_isPlain

theorem isPlain_of_wordOf? {rest : Text} {meaning : Json} (h : wordOf? c = some (rest, meaning)) :
    Outline.isPlain c = true ∧ rest.all Outline.isPlain = true := by
  unfold wordOf? at h
  split_ifs at h with hn ht hf hN hI <;> (cases h; subst c; decide)

theorem isHexDigit_of_hexValue? {value : Nat} (h : hexValue? c = some value) :
    isHexDigit c = true := by
  unfold hexValue? at h
  dsimp only at h
  unfold isHexDigit
  split_ifs at h with hdigit hsmall hlarge
  · simp [hdigit]
  · simp [hsmall]
  · simp [hlarge]

theorem eq_settle_of_settleNumber {sofar : Text} {settled : Reader}
    (h : reader.settleNumber sofar = .ok settled) :
    settled = reader.settle (.number sofar.reverse) := by
  unfold settleNumber at h
  dsimp only at h
  split at h
  · cases h
  · exact (Except.ok.inj h).symm

theorem unfinishedMark_ne_ok {α : Type} {sofar : Text} {position : Nat} {result : α} :
    reader.unfinishedMark sofar position ≠ .ok result := by
  unfold unfinishedMark
  cases reader.settleNumber (sofar.drop (reader.position - position)) <;> nofun

theorem stands_settle (reader : Reader) (value : Json)
    (houter : ∀ frame ∈ reader.stack.tail, frame.isValued = true)
    (htop : ∀ frame ∈ reader.stack.head?, frame.isValued = true ∨ ∃ name, value = .text name) :
    (reader.settle value).Stands (.outside reader.stack.length) := by
  obtain ⟨position, stack, mode⟩ := reader
  cases stack with
  | nil => exact ⟨houter, rfl, rfl⟩
  | cons frame outer =>
    cases frame with
    | array items => exact ⟨houter, rfl, rfl⟩
    | member members name => exact ⟨houter, rfl, rfl⟩
    | object members =>
      obtain h | ⟨name, rfl⟩ := htop _ rfl
      · cases h
      · exact ⟨houter, rfl, rfl⟩

theorem isBehindValue_settle (htop : ∀ frame ∈ reader.stack.head?, frame.isValued = true) :
    (reader.settle value).mode.IsBehindValue := by
  obtain ⟨position, stack, mode⟩ := reader
  cases stack with
  | nil => exact .done value
  | cons frame outer =>
    cases frame with
    | array items => exact .ended
    | member members name => exact .ended
    | object members => cases htop _ rfl

section Bracket

variable (hstack : reader.stack = frame :: outer) (houter : ∀ frame ∈ outer, frame.isValued = true)

include hstack houter

theorem stands_close (hended : Mode.ended.suits (some frame) = true) :
    reader.close.Stands (.outside outer.length) := by
  have houter' : ∀ frame ∈ outer.tail, frame.isValued = true := by
    intro frame hframe
    exact houter frame (List.mem_of_mem_tail hframe)
  have htop (value : Json) :
      ∀ frame ∈ outer.head?, frame.isValued = true ∨ ∃ name, value = .text name := by
    intro frame hframe
    exact .inl (houter frame (List.mem_of_mem_head? hframe))
  unfold close
  rw [hstack]
  cases frame with
  | array items => exact stands_settle ⟨_, outer, .ended⟩ _ houter' (htop _)
  | object members => exact stands_settle ⟨_, outer, .ended⟩ _ houter' (htop _)
  | member members name => cases hended

theorem stands_beginValue (hframe : frame.isValued = true) (h : reader.beginValue c = .ok next) :
    next.Stands ((Outline.outside (outer.length + 1)).step c) := by
  obtain ⟨position, stack, mode⟩ := reader
  cases hstack
  have hnumber (hc : Outline.isPlain c = true) (sofar : Text) (phase : NumberPhase) :
      (Reader.next ⟨position, frame :: outer, mode⟩ (.number sofar phase)).Stands
        ((Outline.outside (outer.length + 1)).step c) :=
    ⟨houter, hframe, (Outline.step_outside_of_isPlain hc _).symm⟩
  unfold beginValue at h
  split_ifs at h with hquote hbracket hbrace hsign hzero hdigit
  · cases h
    subst hquote
    exact ⟨houter, rfl, rfl⟩
  · cases h
    subst hbracket
    exact ⟨List.forall_mem_cons.mpr ⟨hframe, houter⟩, rfl, rfl⟩
  · cases h
    subst hbrace
    exact ⟨List.forall_mem_cons.mpr ⟨hframe, houter⟩, rfl, rfl⟩
  · cases h
    exact hnumber (hsign ▸ rfl) _ _
  · cases h
    exact hnumber (hzero ▸ rfl) _ _
  · cases h
    exact hnumber (isPlain_of_isDigit hdigit) _ _
  · split at h
    next rest meaning hword =>
      obtain ⟨hc, hrest⟩ := isPlain_of_wordOf? hword
      cases h
      exact ⟨houter, Bool.and_eq_true_iff.mpr ⟨hframe, hrest⟩,
        (Outline.step_outside_of_isPlain hc _).symm⟩
    next => cases h

end Bracket

theorem stands_afterValue {depth : Nat} (hreader : reader.Stands (.outside depth))
    (hmode : reader.mode.IsBehindValue) (h : reader.afterValue c = .ok next) :
    next.Stands ((Outline.outside depth).step c) := by
  obtain ⟨houter, hsuits, houtline⟩ := hreader
  obtain ⟨position, stack, mode⟩ := reader
  have hdepth : stack.length = depth := by
    cases hmode <;> exact Outline.outside.inj houtline
  unfold afterValue at h
  split at h
  next hblank =>
    cases h
    rw [Outline.step_blank (isBlank_iff.mp hblank)]
    exact ⟨houter, hsuits, houtline⟩
  next =>
    subst hdepth
    split at h
    next => cases h
    next items outer hstack =>
      cases hstack
      split_ifs at h with hcomma hbracket
      · cases h
        subst hcomma
        exact ⟨houter, rfl, rfl⟩
      · cases h
        subst hbracket
        exact stands_close rfl houter rfl
      · cases h
    next hnil harray =>
      cases stack with
      | nil => exact absurd rfl hnil
      | cons frame outer =>
        cases hmode with
        | done => cases hsuits
        | ended =>
          cases frame with
          | array items => exact absurd rfl (harray items outer)
          | member members name => cases hsuits
          | object members =>
            split_ifs at h with hcomma hbrace
            · cases h
              subst hcomma
              exact ⟨houter, rfl, rfl⟩
            · cases h
              subst hbrace
              exact stands_close rfl houter rfl
            · cases h

/-! Numbers and texts. A number is a value in the innermost bracket, and its characters change
nothing about the outline; a text may be a value or a name. -/

section Token

variable (hstack : reader.stack = frame :: outer) (houter : ∀ frame ∈ outer, frame.isValued = true)

include hstack houter

theorem stands_afterSettle (hframe : frame.isValued = true)
    (h : (reader.settle value).afterValue c = .ok next) :
    next.Stands ((Outline.outside (outer.length + 1)).step c) := by
  have htop : ∀ frame ∈ reader.stack.head?, frame.isValued = true := by
    intro top htop
    rw [hstack, List.head?_cons, Option.mem_some_iff] at htop
    exact htop ▸ hframe
  have hsettle := stands_settle reader value (hstack ▸ houter) fun top h => .inl (htop top h)
  rw [hstack] at hsettle
  exact stands_afterValue hsettle (isBehindValue_settle htop) h

theorem stands_stepNumber (hframe : frame.isValued = true) {sofar : Text} {phase : NumberPhase}
    (h : reader.stepNumber sofar phase c = .ok next) :
    next.Stands ((Outline.outside (outer.length + 1)).step c) := by
  have hgoes (hc : Outline.isPlain c = true) {sofar : Text} {phase : NumberPhase}
      (h : Except.ok (reader.next (.number sofar phase)) = (.ok next : Except ReadError Reader)) :
      next.Stands ((Outline.outside (outer.length + 1)).step c) := by
    obtain ⟨position, stack, mode⟩ := reader
    cases hstack
    cases h
    exact ⟨houter, hframe, (Outline.step_outside_of_isPlain hc _).symm⟩
  have hfinished (h : (do (← reader.settleNumber sofar).afterValue c) = Except.ok next) :
      next.Stands ((Outline.outside (outer.length + 1)).step c) := by
    obtain ⟨settled, hsettled, h⟩ := exists_of_bind_eq_ok h
    rw [eq_settle_of_settleNumber hsettled] at h
    exact stands_afterSettle hstack houter hframe h
  have hexponent (hc : c = 'e' ∨ c = 'E') : Outline.isPlain c = true := by
    rcases hc with rfl | rfl <;> rfl
  unfold stepNumber at h
  cases phase with
  | sign position =>
    dsimp only at h
    split_ifs at h with hzero hdigit hword
    · exact hgoes (hzero ▸ rfl) h
    · exact hgoes (isPlain_of_isDigit hdigit) h
    · cases h
      obtain ⟨position, stack, mode⟩ := reader
      cases hstack
      exact ⟨houter, Bool.and_eq_true_iff.mpr ⟨hframe, rfl⟩, hword ▸ rfl⟩
    · cases h
  | zero =>
    dsimp only at h
    split_ifs at h with hpoint hmark
    · exact hgoes (hpoint ▸ rfl) h
    · exact hgoes (hexponent hmark) h
    · exact hfinished h
  | whole =>
    dsimp only at h
    split_ifs at h with hdigit hpoint hmark
    · exact hgoes (isPlain_of_isDigit hdigit) h
    · exact hgoes (hpoint ▸ rfl) h
    · exact hgoes (hexponent hmark) h
    · exact hfinished h
  | point position =>
    dsimp only at h
    split_ifs at h with hdigit
    · exact hgoes (isPlain_of_isDigit hdigit) h
    · exact absurd h unfinishedMark_ne_ok
  | fraction =>
    dsimp only at h
    split_ifs at h with hdigit hmark
    · exact hgoes (isPlain_of_isDigit hdigit) h
    · exact hgoes (hexponent hmark) h
    · exact hfinished h
  | exponent position =>
    dsimp only at h
    split_ifs at h with hdigit hsign
    · exact hgoes (isPlain_of_isDigit hdigit) h
    · refine hgoes ?_ h
      rcases hsign with rfl | rfl <;> rfl
    · exact absurd h unfinishedMark_ne_ok
  | exponentSign position =>
    dsimp only at h
    split_ifs at h with hdigit
    · exact hgoes (isPlain_of_isDigit hdigit) h
    · exact absurd h unfinishedMark_ne_ok
  | power =>
    dsimp only at h
    split_ifs at h with hdigit
    · exact hgoes (isPlain_of_isDigit hdigit) h
    · exact hfinished h

theorem stands_stepPlain {start : Nat} {sofar : WideText} {unit : Option Nat}
    (h : reader.stepPlain start sofar unit c = .ok next) :
    next.Stands ((Outline.inside (outer.length + 1)).step c) := by
  unfold stepPlain at h
  dsimp only at h
  split_ifs at h with hbackslash hquote hcontrol
  · subst hbackslash
    obtain ⟨position, stack, mode⟩ := reader
    cases hstack
    split at h
    · cases h
      exact ⟨houter, rfl, rfl⟩
    · cases h
      exact ⟨houter, rfl, rfl⟩
  · subst hquote
    have hsettle := stands_settle reader (.text (withUnit unit sofar).reverse) (hstack ▸ houter)
      fun _ _ => .inr ⟨_, rfl⟩
    rw [hstack] at hsettle
    cases h
    exact ⟨hsettle.outer, hsettle.suits, hsettle.outline_eq⟩
  · cases h
  · obtain ⟨position, stack, mode⟩ := reader
    cases hstack
    cases h
    exact ⟨houter, rfl,
      (Outline.step_inside_of_le hquote hbackslash (Nat.le_of_not_lt hcontrol) _).symm⟩

theorem stands_stepText {start : Nat} {sofar : WideText} {phase : TextPhase}
    (hmode : reader.mode = .text start sofar phase)
    (h : reader.stepText start sofar phase c = .ok next) :
    next.Stands (reader.outline.step c) := by
  obtain ⟨position, stack, mode⟩ := reader
  cases hstack
  cases hmode
  cases phase with
  | plain => exact stands_stepPlain rfl houter h
  | complete position code => exact stands_stepPlain rfl houter h
  | backslash position first =>
    unfold stepText at h
    dsimp only at h
    split_ifs at h with hunit
    · cases h
      exact ⟨houter, rfl, rfl⟩
    · split at h
      · cases h
        exact ⟨houter, rfl, rfl⟩
      · cases h
  | unit position first digits =>
    unfold stepText at h
    dsimp only at h
    split at h
    · cases h
    next digit hdigit =>
      have hinside := (step_inside_of_isHexDigit (isHexDigit_of_hexValue? hdigit)
        (outer.length + 1)).symm
      split at h
      · cases h
        unfold endUnit
        split
        · split <;> exact ⟨houter, rfl, hinside⟩
        · exact ⟨houter, rfl, hinside⟩
      · cases h
        exact ⟨houter, rfl, hinside⟩

end Token

theorem stands_blank {outline : Outline} (hreader : reader.Stands outline)
    (hmode : reader.mode.isBetween = true) (hc : isBlank c = true) :
    (reader.next reader.mode).Stands (outline.step c) := by
  obtain ⟨houter, hsuits, rfl⟩ := hreader
  refine ⟨houter, hsuits, ?_⟩
  obtain ⟨position, stack, mode⟩ := reader
  cases mode with
  | text | number | word => cases hmode
  | _ => exact (Outline.step_blank (isBlank_iff.mp hc) _).symm

theorem stands_step {outline : Outline} (hreader : reader.Stands outline)
    (h : reader.step c = .ok next) : next.Stands (outline.step c) := by
  by_cases hblank : reader.mode.isBetween = true ∧ isBlank c = true
  · rw [step_blank hblank.1 hblank.2] at h
    cases h
    exact stands_blank hreader hblank.1 hblank.2
  have hc (hmode : reader.mode.isBetween = true) : ¬ isBlank c = true := fun hc =>
    hblank ⟨hmode, hc⟩
  have hstands := hreader
  obtain ⟨houter, hsuits, rfl⟩ := hreader
  obtain ⟨position, _ | ⟨frame, outer⟩, mode⟩ := reader
  · cases mode with
    | done document => exact stands_afterValue hstands (.done document) h
    | _ => cases hsuits
  unfold step at h
  -- the modes that go with another bracket than the innermost one are not met
  cases mode with
  | value =>
    dsimp only at h
    rw [if_neg (hc rfl)] at h
    exact stands_beginValue rfl houter hsuits h
  | firstItem =>
    cases frame with
    | array items =>
      dsimp only at h
      rw [if_neg (hc rfl)] at h
      split_ifs at h with hbracket
      · cases h
        subst hbracket
        exact stands_close rfl houter rfl
      · exact stands_beginValue rfl houter rfl h
    | _ => cases hsuits
  | firstName =>
    cases frame with
    | object members =>
      dsimp only at h
      rw [if_neg (hc rfl)] at h
      split_ifs at h with hbrace hquote
      · cases h
        subst hbrace
        exact stands_close rfl houter rfl
      · cases h
        subst hquote
        exact ⟨houter, rfl, rfl⟩
      · cases h
    | _ => cases hsuits
  | name =>
    dsimp only at h
    rw [if_neg (hc rfl)] at h
    split_ifs at h with hquote
    · cases h
      subst hquote
      exact ⟨houter, rfl, rfl⟩
    · cases h
  | colon =>
    cases frame with
    | member members name =>
      dsimp only at h
      rw [if_neg (hc rfl)] at h
      split_ifs at h with hcolon
      · cases h
        subst hcolon
        exact ⟨houter, rfl, rfl⟩
      · cases h
    | _ => cases hsuits
  | ended => exact stands_afterValue hstands .ended h
  | done document => cases hsuits
  | text start sofar phase => exact stands_stepText rfl houter rfl h
  | number sofar phase => exact stands_stepNumber rfl houter hsuits h
  | word start rest meaning =>
    obtain ⟨hframe, hrest⟩ := Bool.and_eq_true_iff.mp hsuits
    cases rest with
    | nil => exact stands_afterSettle rfl houter hframe h
    | cons due rest =>
      rw [List.all_cons, Bool.and_eq_true] at hrest
      dsimp only at h
      split_ifs at h with hdue
      · cases h
        subst hdue
        exact ⟨houter, Bool.and_eq_true_iff.mpr ⟨hframe, hrest.2⟩,
          (Outline.step_outside_of_isPlain hrest.1 _).symm⟩
      · cases h

/-- The reader and the outline go through a text together. -/
theorem stands_foldlM {outline : Outline} (hreader : reader.Stands outline) {text : Text}
    (h : text.foldlM step reader = .ok next) : next.Stands (outline.run text) := by
  induction text generalizing reader outline with
  | nil =>
    cases h
    exact hreader
  | cons c text ih =>
    obtain ⟨behind, hstep, h⟩ := exists_of_foldlM_cons h
    exact ih (stands_step hreader hstep) h

theorem eq_nil_of_finish {document : Json} (hsuits : reader.mode.suits reader.stack.head? = true)
    (h : reader.finish = .ok document) : reader.stack = [] := by
  obtain ⟨position, _ | ⟨frame, outer⟩, mode⟩ := reader
  · rfl
  unfold finish at h
  cases mode with
  | done document => cases hsuits
  | number sofar phase =>
    cases phase with
    | sign position => cases h
    | point position => exact absurd h unfinishedMark_ne_ok
    | exponent position => exact absurd h unfinishedMark_ne_ok
    | exponentSign position => exact absurd h unfinishedMark_ne_ok
    | zero | whole | fraction | power =>
      obtain ⟨settled, -, h⟩ := exists_of_bind_eq_ok h
      cases h
  | word start rest meaning => cases rest <;> cases h
  | text start sofar phase => cases phase <;> cases h
  | _ => cases h

end Reader

/-- An array that the reader finds a document in comes back to depth zero. -/
theorem run_of_read_array {text : Text} {document : Json}
    (h : read ('[' :: text) = .ok document) : (Outline.outside 1).run text = .outside 0 := by
  have hmark : ('[' :: text).head? ≠ some '\ufeff' := by
    rw [List.head?_cons]
    decide
  unfold read at h
  rw [if_neg hmark] at h
  obtain ⟨behind, hfold, hfinish⟩ := exists_of_bind_eq_ok h
  obtain ⟨opened, hopen, hfold⟩ := exists_of_foldlM_cons hfold
  cases hopen
  have hopened : Reader.Stands (.outside 1) ⟨1, [.array []], .firstItem⟩ := ⟨nofun, rfl, rfl⟩
  obtain ⟨-, hsuits, houtline⟩ := Reader.stands_foldlM hopened hfold
  have hstack := Reader.eq_nil_of_finish hsuits hfinish
  rw [← houtline]
  obtain ⟨position, stack, mode⟩ := behind
  cases hstack
  cases mode with
  | done => rfl
  | _ => cases hsuits

end BuildLog.Json
