import BuildLog.Proofs.Text.Beginnings
import BuildLog.Proofs.Text.Utf8

/-! Bytes that arrive in chunks. A reader carries a pending character from one chunk to the next, so
what it reads without a fault does not depend on where the chunks are cut. -/
namespace BuildLog.Utf8

namespace Decoder

variable {pending : Option Pending} {byte : UInt8}

theorem begin_append (done more : List Piece) :
    begin (done ++ more) byte = ⟨(begin done byte).pending, (begin done byte).done ++ more⟩ := by
  unfold begin
  cases Utf8.begin byte <;> rfl

theorem step_append (done more : List Piece) :
    step ⟨pending, done ++ more⟩ byte =
      ⟨(step ⟨pending, done⟩ byte).pending, (step ⟨pending, done⟩ byte).done ++ more⟩ := by
  unfold step
  cases pending with
  | none => exact begin_append done more
  | some pending =>
    dsimp only
    split
    · rfl
    · rfl
    · rw [← List.cons_append, begin_append]

theorem foldl_step_append (bytes : List UInt8) (done more : List Piece) :
    bytes.foldl step ⟨pending, done ++ more⟩ =
      ⟨(bytes.foldl step ⟨pending, done⟩).pending,
        (bytes.foldl step ⟨pending, done⟩).done ++ more⟩ := by
  induction bytes generalizing pending done with
  | nil => rfl
  | cons byte bytes ih =>
    rw [List.foldl_cons, List.foldl_cons, step_append, ih]

theorem begin_cases (done : List Piece) :
    (begin done byte).done = done ∨ (∃ c, begin done byte = ⟨none, .char c :: done⟩) ∨
      ∃ fault, .fault fault ∈ (begin done byte).done := by
  unfold begin
  cases Utf8.begin byte with
  | inl piece =>
    cases piece with
    | char c => exact .inr (.inl ⟨c, rfl⟩)
    | fault fault => exact .inr (.inr ⟨fault, List.mem_cons_self⟩)
  | inr pending => exact .inl rfl

theorem step_cases (decoder : Decoder) (byte : UInt8) :
    (decoder.step byte).done = decoder.done ∨
      (∃ c, decoder.step byte = ⟨none, .char c :: decoder.done⟩) ∨
      ∃ fault, .fault fault ∈ (decoder.step byte).done := by
  obtain ⟨_ | pending, done⟩ := decoder
  · exact begin_cases done
  · unfold step
    dsimp only
    split
    next c _ => exact .inr (.inl ⟨c, rfl⟩)
    next => exact .inl rfl
    next =>
      have hbegin : begin (.fault ⟨.invalidContinuation, pending.bytes⟩ :: done) byte = _ :=
        begin_append [] (.fault ⟨.invalidContinuation, pending.bytes⟩ :: done)
      rw [hbegin]
      exact .inr (.inr ⟨_, List.mem_append_right _ List.mem_cons_self⟩)

def IsReached (pending : Option Pending) : Prop :=
  ∃ bytes : List UInt8, bytes.foldl step ⟨none, []⟩ = ⟨pending, []⟩

theorem isReached_none : IsReached none := ⟨[], rfl⟩

theorem isReached_begin (done : List Piece) : IsReached (begin done byte).pending := by
  cases h : Utf8.begin byte with
  | inl piece =>
    simp only [begin, h]
    exact isReached_none
  | inr pending =>
    simp only [begin, h]
    exact ⟨[byte], step_lead [] h⟩

theorem IsReached.step (h : IsReached pending) (done : List Piece) :
    IsReached (Decoder.step ⟨pending, done⟩ byte).pending := by
  cases pending with
  | none => exact isReached_begin done
  | some pending =>
    obtain ⟨bytes, hbytes⟩ := h
    unfold Decoder.step
    dsimp only
    split
    next => exact isReached_none
    next next hnext =>
      refine ⟨bytes ++ [byte], ?_⟩
      rw [List.foldl_append, hbytes]
      exact step_more [] hnext
    next => exact isReached_begin _

theorem IsReached.foldl (h : IsReached pending) (bytes : List UInt8) (done : List Piece) :
    IsReached (bytes.foldl Decoder.step ⟨pending, done⟩).pending := by
  induction bytes generalizing pending done with
  | nil => exact h
  | cons byte bytes ih => exact ih (h.step done) _

end Decoder

/-- Bytes behind a pending character are a text without a fault, up to what is pending then. -/
def Reads (pending : Option Pending) (bytes : List UInt8) (text : Text)
    (next : Option Pending) : Prop :=
  bytes.foldl Decoder.step ⟨pending, []⟩ = ⟨next, (text.map .char).reverse⟩

variable {pending next : Option Pending} {bytes more chunk : List UInt8} {text : Text}

theorem reads_encode (text : Text) : Reads none (encode text) text none := by
  unfold Reads
  rw [Decoder.foldl_encode, List.append_nil]

namespace Reads

theorem foldl_append (h : Reads pending bytes text next) (more : List UInt8) :
    (bytes ++ more).foldl Decoder.step ⟨pending, []⟩ =
      ⟨(more.foldl Decoder.step ⟨next, []⟩).pending,
        (more.foldl Decoder.step ⟨next, []⟩).done ++ (text.map .char).reverse⟩ := by
  rw [List.foldl_append, h, ← Decoder.foldl_step_append, List.nil_append]

theorem append {text' : Text} {last : Option Pending} (h : Reads pending bytes text next)
    (hmore : Reads next more text' last) : Reads pending (bytes ++ more) (text ++ text') last := by
  unfold Reads at hmore ⊢
  rw [h.foldl_append, hmore, List.map_append, List.reverse_append]

theorem exists_of_append (h : Reads pending (bytes ++ more) text next) :
    ∃ front behind between, text = front ++ behind ∧ Reads pending bytes front between ∧
      Reads between more behind next := by
  unfold Reads at h
  rw [List.foldl_append] at h
  obtain ⟨between, done, hbytes⟩ : ∃ between done,
    bytes.foldl Decoder.step ⟨pending, []⟩ = ⟨between, done⟩ := ⟨_, _, rfl⟩
  have hmore : more.foldl Decoder.step ⟨between, [] ++ done⟩ = _ :=
    Decoder.foldl_step_append more [] done
  rw [hbytes, ← List.nil_append done, hmore, Decoder.mk.injEq] at h
  have htext := congrArg List.reverse h.2
  rw [List.reverse_reverse, List.reverse_append] at htext
  obtain ⟨front, behind, rfl, hfront, hbehind⟩ := List.map_eq_append_iff.mp htext.symm
  refine ⟨front, behind, between, rfl, ?_, ?_⟩
  · unfold Reads
    rw [hbytes, hfront, List.reverse_reverse]
  · unfold Reads
    rw [hbehind, List.reverse_reverse, ← h.1]

theorem exists_beginning {beginning : Text} (h : Reads none bytes text next)
    (hbeginning : beginning <+: text) :
    ∃ raw, raw <+: bytes ∧ Reads none raw beginning none := by
  induction bytes using List.reverseRecOn generalizing text next with
  | nil =>
    have hdone : (text.map Piece.char).reverse = [] := (congrArg Decoder.done h).symm
    rw [List.reverse_eq_nil_iff, List.map_eq_nil_iff] at hdone
    rw [hdone, List.prefix_nil] at hbeginning
    exact ⟨[], List.prefix_rfl, hbeginning ▸ rfl⟩
  | append_singleton bytes byte ih =>
    have hearlier {text : Text} {next : Option Pending} (h : Reads none bytes text next)
        (hbeginning : beginning <+: text) :
        ∃ raw, raw <+: bytes ++ [byte] ∧ Reads none raw beginning none := by
      obtain ⟨raw, hraw, hreads⟩ := ih h hbeginning
      exact ⟨raw, hraw.trans (List.prefix_append _ _), hreads⟩
    have hstep : (bytes.foldl Decoder.step ⟨none, []⟩).step byte =
        ⟨next, (text.map .char).reverse⟩ := by
      rw [← h, List.foldl_append]
      rfl
    obtain hsame | ⟨c, hchar⟩ | ⟨fault, hfault⟩ :=
      Decoder.step_cases (bytes.foldl Decoder.step ⟨none, []⟩) byte
    · rw [hstep] at hsame
      exact hearlier (congrArg (Decoder.mk _) hsame.symm) hbeginning
    · rw [hstep, Decoder.mk.injEq] at hchar
      have htext := congrArg List.reverse hchar.2
      rw [List.reverse_reverse, List.reverse_cons] at htext
      obtain ⟨before, last, rfl, hbefore, hlast⟩ := List.map_eq_append_iff.mp htext
      obtain ⟨d, rfl, hd⟩ := List.map_eq_singleton_iff.mp hlast
      rw [List.prefix_concat_iff] at hbeginning
      obtain rfl | hbeginning := hbeginning
      · exact ⟨bytes ++ [byte], List.prefix_rfl, hchar.1 ▸ h⟩
      · refine hearlier (congrArg (Decoder.mk _) ?_) hbeginning
        rw [hbefore, List.reverse_reverse]
    · rw [hstep, List.mem_reverse] at hfault
      obtain ⟨c, -, hc⟩ := List.mem_map.mp hfault
      cases hc

end Reads

theorem readChunks_cons (h : Reads pending chunk text next) (rest : List (List UInt8)) :
    readChunks pending (chunk :: rest) =
      (text ++ (readChunks next rest).1, (readChunks next rest).2) := by
  have hdone : (text.map Piece.char).reverse.reverse = text.map .char := List.reverse_reverse _
  unfold Reads at h
  rw [readChunks, h]
  simp only [hdone, strictText_map_char]

theorem reads_or_error (pending : Option Pending) (chunk : List UInt8) :
    (∃ text next, Reads pending chunk text next) ∨
      (∀ text next, ¬ Reads pending chunk text next) ∧
        ∃ error, ∀ rest, readChunks pending (chunk :: rest) = ([], some error) := by
  cases hread : strictText (chunk.foldl Decoder.step ⟨pending, []⟩).done.reverse with
  | ok text =>
    rw [strictText_eq_ok_iff, List.reverse_eq_iff] at hread
    exact .inl ⟨text, (chunk.foldl Decoder.step ⟨pending, []⟩).pending, by rw [Reads, ← hread]⟩
  | error error =>
    refine .inr ⟨fun text next h => ?_, error, fun rest => ?_⟩
    · unfold Reads at h
      rw [h, List.reverse_reverse, strictText_map_char] at hread
      cases hread
    · rw [readChunks]
      simp only [hread]

theorem exists_reads_readChunks (pending : Option Pending) (chunks : List (List UInt8)) :
    ∃ bytes next, bytes <+: chunks.flatten ∧
      Reads pending bytes (readChunks pending chunks).1 next := by
  induction chunks generalizing pending with
  | nil => exact ⟨[], pending, List.prefix_rfl, rfl⟩
  | cons chunk rest ih =>
    obtain ⟨text, next, hreads⟩ | ⟨-, error, herror⟩ := reads_or_error pending chunk
    · obtain ⟨bytes, last, hbytes, hmore⟩ := ih next
      rw [readChunks_cons hreads]
      exact ⟨chunk ++ bytes, last, List.prefix_append_right_inj chunk |>.mpr hbytes,
        hreads.append hmore⟩
    · rw [herror]
      exact ⟨[], pending, List.nil_prefix, rfl⟩

theorem readChunks_eq_iff_reads (pending : Option Pending) (chunks : List (List UInt8))
    (text : Text) :
    readChunks pending chunks = (text, none) ↔ Reads pending chunks.flatten text none := by
  induction chunks generalizing pending text with
  | nil =>
    constructor
    · intro h
      rw [readChunks, Prod.mk.injEq, Option.map_eq_none_iff] at h
      rw [← h.1, h.2]
      rfl
    · intro h
      have hdone : (text.map Piece.char).reverse = [] := (congrArg Decoder.done h).symm
      rw [List.reverse_eq_nil_iff, List.map_eq_nil_iff] at hdone
      have hpending : pending = none := congrArg Decoder.pending h
      rw [hdone, hpending]
      rfl
  | cons chunk rest ih =>
    rw [List.flatten_cons]
    constructor
    · intro h
      obtain ⟨front, next, hreads⟩ | ⟨-, error, herror⟩ := reads_or_error pending chunk
      · rw [readChunks_cons hreads, Prod.mk.injEq] at h
        exact h.1 ▸ hreads.append ((ih next _).mp (Prod.ext rfl h.2))
      · rw [herror] at h
        cases h
    · intro h
      obtain ⟨front, behind, next, rfl, hfront, hbehind⟩ := h.exists_of_append
      rw [readChunks_cons hfront, (ih next behind).mpr hbehind]

/-- Chunks are read without a fault exactly if their bytes are a text, and then as that text. -/
theorem readChunks_eq_iff (chunks : List (List UInt8)) (text : Text) :
    readChunks none chunks = (text, none) ↔ decodeStrict chunks.flatten = .ok text := by
  rw [readChunks_eq_iff_reads]
  unfold decodeStrict decode
  rw [strictText_eq_ok_iff]
  unfold Reads Decoder.start
  constructor
  · intro h
    rw [h]
    exact List.reverse_reverse _
  · intro h
    obtain ⟨pending, done, hbytes⟩ : ∃ pending done,
      chunks.flatten.foldl Decoder.step ⟨none, []⟩ = ⟨pending, done⟩ := ⟨_, _, rfl⟩
    rw [hbytes] at h ⊢
    cases pending with
    | none => rw [← h, Decoder.finish, List.reverse_reverse]
    | some pending =>
      have hfault : .fault ⟨.unexpectedEnd, pending.bytes⟩ ∈ text.map Piece.char := by
        rw [← h]
        simp [Decoder.finish]
      obtain ⟨c, -, hc⟩ := List.mem_map.mp hfault
      cases hc

theorem readChunks_encode (text : Text) : readChunks none [encode text] = (text, none) := by
  rw [readChunks_eq_iff, List.flatten_singleton, decodeStrict_encode]

theorem exists_readChunks_of_prefix {chunks : List (List UInt8)} {beginning : Text}
    (h : beginning <+: (readChunks none chunks).1) :
    ∃ raw, raw <+: chunks.flatten ∧ readChunks none [raw] = (beginning, none) := by
  obtain ⟨bytes, next, hbytes, hreads⟩ := exists_reads_readChunks none chunks
  obtain ⟨raw, hraw, hbeginning⟩ := hreads.exists_beginning h
  refine ⟨raw, hraw.trans hbytes, ?_⟩
  rw [readChunks_eq_iff_reads, List.flatten_singleton]
  exact hbeginning

theorem exists_readChunks_eq_nil {pending : Option Pending} (h : Decoder.IsReached pending)
    (chunks : List (List UInt8)) :
    ∃ next rest, Decoder.IsReached next ∧
      readChunks next rest = ([], (readChunks pending chunks).2) := by
  induction chunks generalizing pending with
  | nil => exact ⟨pending, [], h, rfl⟩
  | cons chunk rest ih =>
    obtain ⟨text, next, hreads⟩ | ⟨-, error, herror⟩ := reads_or_error pending chunk
    · have hnext : Decoder.IsReached next := by
        have hfold := h.foldl chunk []
        rwa [hreads] at hfold
      rw [readChunks_cons hreads]
      exact ih hnext
    · refine ⟨pending, chunk :: rest, h, ?_⟩
      rw [herror]

theorem exists_readChunks_eq (chunks : List (List UInt8)) (text : Text) :
    ∃ other, readChunks none other = (text, (readChunks none chunks).2) := by
  obtain ⟨next, rest, ⟨bytes, hbytes⟩, hrest⟩ :=
    exists_readChunks_eq_nil Decoder.isReached_none chunks
  have hreads : Reads none (encode text ++ bytes) (text ++ []) next :=
    (reads_encode text).append hbytes
  refine ⟨(encode text ++ bytes) :: rest, ?_⟩
  rw [readChunks_cons hreads, hrest, List.append_nil, List.append_nil]

end BuildLog.Utf8
