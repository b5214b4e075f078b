import BuildLog.Text.Utf8
import Mathlib.Tactic.Common

/-! A text that is written as UTF-8 is read back without a fault, whatever its characters. -/
namespace BuildLog.Utf8

theorem toNat_ofNat_byte {n : Nat} (h : n < 0x100) : (UInt8.ofNat n).toNat = n := by
  rw [UInt8.toNat_ofNat']
  exact Nat.mod_eq_of_lt h

/-! What a byte at the start of a character means, by the class of its lead. -/

theorem begin_one {n : Nat} (h : n < 0x80) :
    begin (UInt8.ofNat n) = .inl (.char (Char.ofNat n)) := by
  unfold begin
  rw [toNat_ofNat_byte (by omega)]
  exact if_pos h

theorem begin_two {n : Nat} (hlow : 0xC2 ≤ n) (hhigh : n ≤ 0xDF) :
    begin (UInt8.ofNat n) = .inr ⟨[UInt8.ofNat n], n - 0xC0, 0, 0x80, 0xBF⟩ := by
  unfold begin
  rw [toNat_ofNat_byte (by omega)]
  simp only [Nat.not_lt.mpr (show 0x80 ≤ n by omega), hlow, hhigh, if_false, and_self, if_true]

theorem begin_three {n : Nat} (hlow : 0xE0 ≤ n) (hhigh : n ≤ 0xEF) :
    begin (UInt8.ofNat n) = .inr ⟨[UInt8.ofNat n], n - 0xE0, 1, if n = 0xE0 then 0xA0 else 0x80,
      if n = 0xED then 0x9F else 0xBF⟩ := by
  unfold begin
  rw [toNat_ofNat_byte (by omega)]
  have hone : ¬ n < 0x80 := by omega
  have htwo : ¬ (0xC2 ≤ n ∧ n ≤ 0xDF) := by omega
  simp only [hone, htwo, hlow, hhigh, if_false, and_self, if_true]

theorem begin_four {n : Nat} (hlow : 0xF0 ≤ n) (hhigh : n ≤ 0xF4) :
    begin (UInt8.ofNat n) = .inr ⟨[UInt8.ofNat n], n - 0xF0, 2, if n = 0xF0 then 0x90 else 0x80,
      if n = 0xF4 then 0x8F else 0xBF⟩ := by
  unfold begin
  rw [toNat_ofNat_byte (by omega)]
  have hone : ¬ n < 0x80 := by omega
  have htwo : ¬ (0xC2 ≤ n ∧ n ≤ 0xDF) := by omega
  have hthree : ¬ (0xE0 ≤ n ∧ n ≤ 0xEF) := by omega
  simp only [hone, htwo, hthree, hlow, hhigh, if_false, and_self, if_true]

namespace Pending

variable {pending : Pending} {k : Nat}

theorem next?_last (hafter : pending.after = 0) (hk : k < 0x40) (hlow : pending.low ≤ 0x80 + k)
    (hhigh : 0x80 + k ≤ pending.high) : pending.next? (UInt8.ofNat (0x80 + k)) =
      some (.inl (Char.ofNat (pending.value * 0x40 + k))) := by
  have hbits : 0x80 + k - 0x80 = k := by omega
  unfold next?
  simp only [toNat_ofNat_byte (show 0x80 + k < 0x100 by omega), hlow, hhigh, and_self, if_true,
    hafter, hbits]

theorem next?_more {after : Nat} (hafter : pending.after = after + 1) (hk : k < 0x40)
    (hlow : pending.low ≤ 0x80 + k) (hhigh : 0x80 + k ≤ pending.high) :
    pending.next? (UInt8.ofNat (0x80 + k)) =
      some (.inr ⟨pending.bytes ++ [UInt8.ofNat (0x80 + k)], pending.value * 0x40 + k, after, 0x80,
        0xBF⟩) := by
  have hbits : 0x80 + k - 0x80 = k := by omega
  unfold next?
  simp only [toNat_ofNat_byte (show 0x80 + k < 0x100 by omega), hlow, hhigh, and_self, if_true,
    hafter, hbits]

end Pending

namespace Decoder

variable {pending next : Pending} {byte : UInt8} {c : Char} (done : List Piece)

theorem step_one (h : Utf8.begin byte = .inl (.char c)) :
    step ⟨none, done⟩ byte = ⟨none, .char c :: done⟩ := by
  simp only [step, begin, h]

theorem step_lead (h : Utf8.begin byte = .inr pending) :
    step ⟨none, done⟩ byte = ⟨some pending, done⟩ := by
  simp only [step, begin, h]

theorem step_more (h : pending.next? byte = some (.inr next)) :
    step ⟨some pending, done⟩ byte = ⟨some next, done⟩ := by
  simp only [step, h]

theorem step_last (h : pending.next? byte = some (.inl c)) :
    step ⟨some pending, done⟩ byte = ⟨none, .char c :: done⟩ := by
  simp only [step, h]

theorem step_middle (bytes : List UInt8) (value after : Nat) {k : Nat} (hk : k < 0x40) :
    step ⟨some ⟨bytes, value, after + 1, 0x80, 0xBF⟩, done⟩ (UInt8.ofNat (0x80 + k)) =
      ⟨some ⟨bytes ++ [UInt8.ofNat (0x80 + k)], value * 0x40 + k, after, 0x80, 0xBF⟩, done⟩ := by
  apply step_more
  apply Pending.next?_more rfl hk
  · exact Nat.le_add_right 0x80 k
  · change 0x80 + k ≤ 0xBF
    omega

theorem step_tail (bytes : List UInt8) (value : Nat) {k : Nat} (hk : k < 0x40) :
    step ⟨some ⟨bytes, value, 0, 0x80, 0xBF⟩, done⟩ (UInt8.ofNat (0x80 + k)) =
      ⟨none, .char (Char.ofNat (value * 0x40 + k)) :: done⟩ := by
  apply step_last
  apply Pending.next?_last rfl hk
  · exact Nat.le_add_right 0x80 k
  · change 0x80 + k ≤ 0xBF
    omega

theorem isValid_toNat (c : Char) :
    c.toNat < 0xD800 ∨ 0xDFFF < c.toNat ∧ c.toNat < 0x110000 := c.valid

theorem foldl_encodeChar (c : Char) :
    (encodeChar c).foldl step ⟨none, done⟩ = ⟨none, .char c :: done⟩ := by
  -- the bounds of the second byte leave room for every code point that is no surrogate
  have hvalid := isValid_toNat c
  have hc {n : Nat} (h : n = c.toNat) : Char.ofNat n = c := h ▸ Char.ofNat_toNat c
  unfold encodeChar
  generalize hcode : c.toNat = code at hvalid hc
  dsimp only
  split_ifs with hone htwo hthree
  · rw [List.foldl_cons, step_one done (begin_one hone), hc rfl]
    rfl
  · have hlead : Utf8.begin (UInt8.ofNat (0xC0 + code / 0x40)) = .inr _ :=
      begin_two (by omega) (by omega)
    have hvalue : (0xC0 + code / 0x40 - 0xC0) * 0x40 + code / 1 % 0x40 = code := by omega
    rw [List.foldl_cons, step_lead done hlead, List.foldl_cons, step_tail done _ _ (by omega),
      hc hvalue]
    rfl
  · have hlead : Utf8.begin (UInt8.ofNat (0xE0 + code / 0x1000)) = .inr _ :=
      begin_three (by omega) (by omega)
    have hlow :
        (if 0xE0 + code / 0x1000 = 0xE0 then 0xA0 else 0x80) ≤ 0x80 + code / 0x40 % 0x40 := by
      split_ifs <;> omega
    have hhigh :
        0x80 + code / 0x40 % 0x40 ≤ if 0xE0 + code / 0x1000 = 0xED then 0x9F else 0xBF := by
      split_ifs <;> omega
    have hvalue : ((0xE0 + code / 0x1000 - 0xE0) * 0x40 + code / 0x40 % 0x40) * 0x40 +
        code / 1 % 0x40 = code := by omega
    rw [List.foldl_cons, step_lead done hlead, List.foldl_cons,
      step_more done (Pending.next?_more rfl (by omega) hlow hhigh), List.foldl_cons,
      step_tail done _ _ (by omega), hc hvalue]
    rfl
  · have hlead : Utf8.begin (UInt8.ofNat (0xF0 + code / 0x40000)) = .inr _ :=
      begin_four (by omega) (by omega)
    have hlow :
        (if 0xF0 + code / 0x40000 = 0xF0 then 0x90 else 0x80) ≤ 0x80 + code / 0x1000 % 0x40 := by
      split_ifs <;> omega
    have hhigh :
        0x80 + code / 0x1000 % 0x40 ≤ if 0xF0 + code / 0x40000 = 0xF4 then 0x8F else 0xBF := by
      split_ifs <;> omega
    have hvalue : (((0xF0 + code / 0x40000 - 0xF0) * 0x40 + code / 0x1000 % 0x40) * 0x40 +
        code / 0x40 % 0x40) * 0x40 + code / 1 % 0x40 = code := by omega
    rw [List.foldl_cons, step_lead done hlead, List.foldl_cons,
      step_more done (Pending.next?_more rfl (by omega) hlow hhigh), List.foldl_cons,
      step_middle done _ _ _ (by omega), List.foldl_cons, step_tail done _ _ (by omega), hc hvalue]
    rfl

theorem foldl_encode (text : Text) :
    (encode text).foldl step ⟨none, done⟩ = ⟨none, (text.map .char).reverse ++ done⟩ := by
  unfold encode
  induction text generalizing done with
  | nil => rfl
  | cons c text ih =>
    rw [List.flatMap_cons, List.foldl_append, foldl_encodeChar, ih, List.map_cons,
      List.reverse_cons, List.append_assoc]
    rfl

end Decoder

theorem decode_encode (text : Text) : decode (encode text) = text.map .char := by
  unfold decode
  rw [Decoder.start, Decoder.foldl_encode, List.append_nil]
  exact List.reverse_reverse _

theorem map_replaced_map_char (text : Text) : (text.map Piece.char).map Piece.replaced = text := by
  rw [List.map_map]
  exact List.map_id text

theorem decodeReplacing_encode (text : Text) : decodeReplacing (encode text) = text := by
  unfold decodeReplacing
  rw [decode_encode, map_replaced_map_char]

theorem strictText_map_char (text : Text) : strictText (text.map .char) = .ok text := by
  have hfault : (text.map Piece.char).findSome? Piece.fault? = none := by
    rw [List.findSome?_eq_none_iff]
    intro piece hpiece
    obtain ⟨c, -, rfl⟩ := List.mem_map.mp hpiece
    rfl
  unfold strictText
  simp only [hfault, map_replaced_map_char]

theorem exists_error_of_fault {pieces : List Piece} {fault : Fault} (h : .fault fault ∈ pieces) :
    ∃ error, strictText pieces = .error error := by
  unfold strictText
  cases hfound : pieces.findSome? Piece.fault? with
  | some found => exact ⟨_, rfl⟩
  | none => cases List.findSome?_eq_none_iff.mp hfound _ h

theorem strictText_eq_ok_iff {pieces : List Piece} {text : Text} :
    strictText pieces = .ok text ↔ pieces = text.map .char := by
  constructor
  · intro h
    have hchar : ∀ piece ∈ pieces, Piece.char piece.replaced = piece := by
      intro piece hpiece
      cases piece with
      | char c => rfl
      | fault fault =>
        obtain ⟨error, herror⟩ := exists_error_of_fault hpiece
        rw [h] at herror
        cases herror
    have hpieces : (pieces.map Piece.replaced).map Piece.char = pieces := by
      rw [List.map_map]
      exact (List.map_congr_left hchar).trans (List.map_id pieces)
    have hread := strictText_map_char (pieces.map Piece.replaced)
    rw [hpieces, h] at hread
    rw [Except.ok.inj hread, hpieces]
  · rintro rfl
    exact strictText_map_char text

theorem decodeStrict_encode (text : Text) : decodeStrict (encode text) = .ok text := by
  unfold decodeStrict
  rw [decode_encode, strictText_map_char]

/-! Bytes that break off. A character of which some bytes are missing is pending at the end, for
every byte that goes on with it begins no other piece. -/

namespace Decoder

def begun (decoder : Decoder) : Nat := decoder.done.length + decoder.pending.toList.length

theorem begun_begin (done : List Piece) (byte : UInt8) :
    (begin done byte).begun = done.length + 1 := by
  unfold begin
  cases Utf8.begin byte <;> rfl

theorem begun_le_step (decoder : Decoder) (byte : UInt8) :
    decoder.begun ≤ (decoder.step byte).begun := by
  obtain ⟨_ | pending, done⟩ := decoder
  · exact (begun_begin done byte).symm ▸ Nat.le_succ done.length
  · unfold step
    dsimp only
    split
    · exact Nat.le_refl _
    · exact Nat.le_refl _
    · rw [begun_begin]
      exact Nat.le_succ (done.length + 1)

theorem begun_le_foldl (decoder : Decoder) (bytes : List UInt8) :
    decoder.begun ≤ (bytes.foldl step decoder).begun := by
  induction bytes generalizing decoder with
  | nil => exact Nat.le_refl _
  | cons byte bytes ih => exact Nat.le_trans (begun_le_step decoder byte) (ih _)

theorem exists_pending_of_encodeChar {c : Char} {bytes more : List UInt8}
    (h : encodeChar c = bytes ++ more) (hbytes : bytes ≠ []) (hmore : more ≠ [])
    (done : List Piece) :
    ∃ pending done', bytes.foldl step ⟨none, done⟩ = ⟨some pending, done'⟩ := by
  obtain ⟨first, bytes, rfl⟩ := List.exists_cons_of_ne_nil hbytes
  obtain ⟨later, more, rfl⟩ := List.exists_cons_of_ne_nil hmore
  have hwhole := foldl_encodeChar done c
  have hfirst := begun_le_foldl (begin done first) bytes
  have hlater (decoder : Decoder) := begun_le_foldl (decoder.step later) more
  have hstart : step ⟨none, done⟩ first = begin done first := rfl
  rw [h, List.foldl_append, List.foldl_cons, List.foldl_cons, hstart] at hwhole
  rw [List.foldl_cons, hstart]
  rw [begun_begin] at hfirst
  generalize bytes.foldl step (begin done first) = decoder at hwhole hfirst
  obtain ⟨_ | pending, done'⟩ := decoder
  · -- with no character pending, the next byte would begin a second piece
    have hsecond := hlater ⟨none, done'⟩
    rw [hwhole] at hsecond
    have hbegun : (step ⟨none, done'⟩ later).begun = done'.length + 1 := begun_begin done' later
    rw [hbegun] at hsecond
    change done.length + 1 ≤ done'.length at hfirst
    change done'.length + 1 ≤ done.length + 1 at hsecond
    omega
  · exact ⟨pending, done', rfl⟩

/-- The induction takes off one whole character after the other. -/
theorem exists_encode_or_fault {text : Text} {bytes : List UInt8} (h : bytes <+: encode text)
    (done : List Piece) :
    (∃ beginning, beginning <+: text ∧ bytes = encode beginning) ∨
      ∃ fault, .fault fault ∈ (bytes.foldl step ⟨none, done⟩).finish := by
  induction text generalizing bytes done with
  | nil => exact .inl ⟨[], List.prefix_rfl, List.prefix_nil.mp h⟩
  | cons c text ih =>
    obtain ⟨rest, hrest⟩ := h
    obtain ⟨more, hchar, -⟩ | ⟨later, rfl, hlater⟩ := List.append_eq_append_iff.mp hrest
    · by_cases hbytes : bytes = []
      · exact .inl ⟨[], List.nil_prefix, hbytes⟩
      by_cases hmore : more = []
      · rw [hmore, List.append_nil] at hchar
        exact .inl ⟨[c], List.prefix_append [c] text, hchar ▸ (List.append_nil _).symm⟩
      obtain ⟨pending, done', hpending⟩ := exists_pending_of_encodeChar hchar hbytes hmore done
      rw [hpending]
      exact .inr ⟨⟨.unexpectedEnd, pending.bytes⟩, by simp [finish]⟩
    · rw [List.foldl_append, foldl_encodeChar]
      obtain ⟨beginning, hbeginning, rfl⟩ | hfault := ih ⟨rest, hlater.symm⟩ (.char c :: done)
      · exact .inl ⟨c :: beginning, List.cons_prefix_cons.mpr ⟨rfl, hbeginning⟩, rfl⟩
      · exact .inr hfault

end Decoder

/-- A beginning of the bytes of a text ends between two characters, or it can not be read back. -/
theorem decodeStrict_of_beginning {text : Text} {bytes : List UInt8} (h : bytes <+: encode text) :
    (∃ beginning, beginning <+: text ∧ decodeStrict bytes = .ok beginning) ∨
      ∃ error, decodeStrict bytes = .error error := by
  obtain ⟨beginning, hbeginning, rfl⟩ | ⟨fault, hfault⟩ := Decoder.exists_encode_or_fault h []
  · exact .inl ⟨beginning, hbeginning, decodeStrict_encode beginning⟩
  · exact .inr (exists_error_of_fault hfault)

end BuildLog.Utf8
