import BuildLog.Database.Writer
import BuildLog.Proofs.Json.Printing
import BuildLog.Proofs.Text.Tight

/-! How a record lies in the text of a database. Its object is cut at every break and indented
again, and some of the characters that count as breaks stand unescaped in its strings. -/
namespace BuildLog

namespace Text

theorem isBreak_iff (c : Char) : isBreak c = true ↔
    0x0A ≤ c.toNat ∧ c.toNat ≤ 0x0D ∨ 0x1C ≤ c.toNat ∧ c.toNat ≤ 0x1E ∨ c.toNat = 0x85 ∨
      c.toNat = 0x2028 ∨ c.toNat = 0x2029 := by
  simp only [isBreak, Bool.or_eq_true, Bool.and_eq_true, decide_eq_true_eq, beq_iff_eq, or_assoc]

def spread (c : Char) : Text := if isBreak c then "\n  ".toList else [c]

theorem flatMap_spread_of_not_break {text : Text} (h : ∀ c ∈ text, isBreak c = false) :
    text.flatMap spread = text := by
  induction text with
  | nil => rfl
  | cons c text ih =>
    obtain ⟨hc, htext⟩ := List.forall_mem_cons.mp h
    have hspread : spread c = [c] := by simp [spread, hc]
    rw [List.flatMap_cons, hspread, ih htext]
    rfl

theorem cut_cons {c : Char} (hc : c ≠ '\r') (rest : Text) :
    cut (c :: rest) = if isBreak c then [] :: cut rest
      else match cut rest with
        | [] => [[c]]
        | piece :: pieces => (c :: piece) :: pieces := by
  rw [cut.eq_def]
  split
  next heq => cases heq
  next heq => exact absurd (List.cons.inj heq).1 hc
  next heq =>
    cases heq
    rfl

theorem cut_ne_nil {text : Text} (h : text ≠ []) : cut text ≠ [] := by
  unfold cut
  split
  · exact absurd rfl h
  · simp
  · split
    · simp
    · split <;> simp

theorem join_append_cons (separator front piece : Text) (pieces : List Text) :
    join separator ((front ++ piece) :: pieces) = front ++ join separator (piece :: pieces) := by
  cases pieces with
  | nil => rw [join_singleton, join_singleton]
  | cons second rest => simp only [join_cons_cons, List.append_assoc]

end Text

namespace Database

open Text

variable {c : Char} {rest : Text}

theorem indent_cons_of_break (hc : c ≠ '\r') (hbreak : isBreak c = true) (hne : rest ≠ []) :
    indent (c :: rest) = "  \n".toList ++ indent rest := by
  obtain ⟨piece, pieces, hcut⟩ := List.exists_cons_of_ne_nil (cut_ne_nil hne)
  unfold indent
  rw [cut_cons hc, hbreak, hcut]
  exact join_cons_cons ['\n'] _ _ _

theorem indent_cons_of_not_break (hc : c ≠ '\r') (hbreak : isBreak c = false) {text : Text}
    (hrest : indent rest = ' ' :: ' ' :: text) : indent (c :: rest) = ' ' :: ' ' :: c :: text := by
  unfold indent at hrest ⊢
  rw [cut_cons hc, hbreak]
  cases hcut : cut rest with
  | nil =>
    rw [hcut] at hrest
    cases hrest
  | cons piece pieces =>
    rw [hcut] at hrest
    have hpiece := (join_append_cons ['\n'] [' ', ' '] piece _).symm.trans hrest
    have htext := (List.cons.inj (List.cons.inj hpiece).2).2
    exact (join_append_cons ['\n'] [' ', ' ', c] piece _).trans
      (congrArg (fun text => ' ' :: ' ' :: c :: text) htext)

theorem indent_eq_flatMap {text : Text} (hne : text ≠ []) (hreturn : '\r' ∉ text)
    (hlast : ∀ c, text.getLast? = some c → isBreak c = false) :
    indent text = ' ' :: ' ' :: text.flatMap spread := by
  induction text with
  | nil => exact absurd rfl hne
  | cons c rest ih =>
    rw [List.mem_cons, not_or] at hreturn
    have hc : c ≠ '\r' := Ne.symm hreturn.1
    rw [List.flatMap_cons]
    cases rest with
    | nil =>
      have hbreak := hlast c rfl
      simp [indent, cut_cons hc, hbreak, cut, spread]
    | cons d rest =>
      have hrest := ih (List.cons_ne_nil d rest) hreturn.2 (by simpa using hlast)
      cases hbreak : isBreak c with
      | true =>
        rw [indent_cons_of_break hc hbreak (List.cons_ne_nil d rest), hrest]
        simp [spread, hbreak]
      | false =>
        rw [indent_cons_of_not_break hc hbreak hrest]
        simp [spread, hbreak]

/-- The characters that are a break and yet stand in a printed text as they are. -/
def isCut (c : Char) : Bool := c == '\u0085' || c == '\u2028' || c == '\u2029'

theorem isBreak_of_not_isCut {c : Char} (hcut : isCut c = false) (h : ¬ c.toNat < 0x20) :
    isBreak c = false := by
  simp only [isCut, Bool.or_eq_false_iff, beq_eq_false_iff_ne] at hcut
  obtain ⟨⟨hnext, hline⟩, hparagraph⟩ := hcut
  have hne {d : Char} (hd : c ≠ d) : c.toNat ≠ d.toNat := fun heq => hd (Char.toNat_inj.mp heq)
  have hnext' : c.toNat ≠ 0x85 := hne hnext
  have hline' : c.toNat ≠ 0x2028 := hne hline
  have hparagraph' : c.toNat ≠ 0x2029 := hne hparagraph
  rw [← Bool.not_eq_true, isBreak_iff]
  omega

theorem mem_escapeChar {c d : Char} (hd : d ∈ Json.escapeChar c) :
    d = c ∧ ¬ c.toNat < 0x20 ∨ 0x20 ≤ d.toNat ∧ d.toNat < 0x80 := by
  have hescaped := Json.escaped_escapeChar c
  generalize Json.escapeChar c = escaped at hescaped hd
  cases hescaped with
  | @letter letter _ h =>
    have hletters : ['"', '\\', '/', 'b', 'f', 'n', 'r', 't'].all
      (fun d => 0x20 ≤ d.toNat ∧ d.toNat < 0x80) = true := rfl
    have hletter := List.all_eq_true.mp hletters letter (Json.mem_of_escaped? h)
    right
    rcases List.mem_cons.mp hd with rfl | hd
    · decide
    · rw [List.mem_singleton.mp hd]
      exact of_decide_eq_true hletter
  | unit h =>
    right
    rcases List.mem_cons.mp hd with rfl | hd
    · decide
    rcases List.mem_cons.mp hd with rfl | hd
    · decide
    · have hrange := Json.toNat_of_isHexDigit (Json.isHexDigit_of_mem hd)
      omega
  | plain hquote hbackslash hcontrol => exact .inl ⟨List.mem_singleton.mp hd, hcontrol⟩

theorem not_isBreak_of_mem_escapeChar {c d : Char} (hcut : isCut c = false)
    (hd : d ∈ Json.escapeChar c) : isBreak d = false := by
  rcases mem_escapeChar hd with ⟨rfl, hcontrol⟩ | hrange
  · exact isBreak_of_not_isCut hcut hcontrol
  · rw [← Bool.not_eq_true, isBreak_iff]
    omega

def layoutChar (c : Char) : Text := if isCut c then "\n  ".toList else Json.escapeChar c

theorem flatMap_spread_escapeChar (c : Char) :
    (Json.escapeChar c).flatMap spread = layoutChar c := by
  unfold layoutChar
  cases hcut : isCut c with
  | true =>
    simp only [isCut, Bool.or_eq_true, beq_iff_eq] at hcut
    rcases hcut with (rfl | rfl) | rfl <;> rfl
  | false => exact flatMap_spread_of_not_break fun d hd => not_isBreak_of_mem_escapeChar hcut hd

def layoutText (text : Text) : Text := '"' :: text.flatMap layoutChar ++ ['"']

theorem flatMap_spread_printText (text : Text) :
    (Json.printText text).flatMap spread = layoutText text := by
  have hquote : spread '"' = ['"'] := rfl
  simp only [Json.printText, layoutText, List.flatMap_cons, List.flatMap_append, hquote,
    List.flatMap_assoc, List.flatMap_nil, List.cons_append, List.nil_append,
    flatMap_spread_escapeChar]

def layoutMember (field : Field) (value : Text) : Text :=
  "\n    ".toList ++ Json.printText field.name ++ ": ".toList ++ layoutText value

def layoutRecord (record : Record) : Text :=
  "\n  \x7b".toList ++ layoutMember .directory record.directory ++
    ',' :: layoutMember .file record.file ++ ',' :: layoutMember .command record.command ++
    "\n  \x7d".toList

theorem flatMap_spread_printMember (field : Field) (value : Text) :
    (printMember field value).flatMap spread = layoutMember field value := by
  have hfront : "\n  ".toList.flatMap spread = "\n    ".toList := rfl
  have hcolon : ": ".toList.flatMap spread = ": ".toList := rfl
  have hname : (Json.printText field.name).flatMap spread = Json.printText field.name := by
    cases field <;> decide
  unfold printMember layoutMember
  rw [List.flatMap_append, List.flatMap_append, List.flatMap_append, hfront, hname, hcolon,
    flatMap_spread_printText]

theorem flatMap_spread_printRecord (record : Record) :
    '\n' :: ' ' :: ' ' :: (printRecord record).flatMap spread = layoutRecord record := by
  have hopen : spread '\x7b' = ['\x7b'] := rfl
  have hcomma : spread ',' = [','] := rfl
  have hclose : "\n\x7d".toList.flatMap spread = "\n  \x7d".toList := rfl
  unfold printRecord
  rw [List.flatMap_append, List.flatMap_append, List.flatMap_append, List.flatMap_cons,
    List.flatMap_cons, List.flatMap_cons, hopen, hcomma, hclose, flatMap_spread_printMember,
    flatMap_spread_printMember, flatMap_spread_printMember]
  rfl

theorem not_mem_printText (text : Text) : '\r' ∉ Json.printText text := by
  intro h
  rcases List.mem_append.mp h with h | h
  · rcases List.mem_cons.mp h with h | h
    · exact absurd h (by decide)
    · obtain ⟨c, -, hc⟩ := List.mem_flatMap.mp h
      rcases mem_escapeChar hc with ⟨rfl, hcontrol⟩ | hrange
      · exact absurd hcontrol (by decide)
      · exact absurd hrange (by decide)
  · exact absurd h (by decide)

theorem not_mem_printMember (field : Field) (value : Text) : '\r' ∉ printMember field value := by
  have hfront : '\r' ∉ "\n  ".toList := by decide
  have hcolon : '\r' ∉ ": ".toList := by decide
  unfold printMember
  rw [List.mem_append, List.mem_append, List.mem_append]
  rintro (((h | h) | h) | h)
  · exact hfront h
  · exact not_mem_printText _ h
  · exact hcolon h
  · exact not_mem_printText _ h

theorem not_mem_printRecord (record : Record) : '\r' ∉ printRecord record := by
  have hopen : '\r' ≠ '\x7b' := by decide
  have hcomma : '\r' ≠ ',' := by decide
  have hclose : '\r' ∉ "\n\x7d".toList := by decide
  unfold printRecord
  rw [List.mem_append, List.mem_append, List.mem_append]
  rintro (((h | h) | h) | h)
  · exact not_mem_printMember _ _ ((List.mem_cons.mp h).resolve_left hopen)
  · exact not_mem_printMember _ _ ((List.mem_cons.mp h).resolve_left hcomma)
  · exact not_mem_printMember _ _ ((List.mem_cons.mp h).resolve_left hcomma)
  · exact hclose h

/-- What a record adds to the text of a database. -/
theorem indent_printRecord (record : Record) :
    '\n' :: indent (printRecord record) = layoutRecord record := by
  have hlast : ∀ c, (printRecord record).getLast? = some c → isBreak c = false := by
    intro c hc
    unfold printRecord at hc
    rw [List.getLast?_append] at hc
    have hbrace : '\x7d' = c := Option.some.inj hc
    exact hbrace ▸ rfl
  have hne : printRecord record ≠ [] := List.cons_ne_nil _ _
  rw [indent_eq_flatMap hne (not_mem_printRecord record) hlast]
  exact flatMap_spread_printRecord record

end Database
end BuildLog
