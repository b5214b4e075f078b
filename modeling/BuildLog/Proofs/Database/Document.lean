import BuildLog.Proofs.Database.Layout

/-! The text of a database as a document. It is one exactly if none of its strings is cut, and
then the reader finds the records in it. -/
namespace BuildLog

namespace Database

open Json

/-- Whether a text keeps to one line when it is laid out in a string. -/
def isUncut (text : Text) : Bool := text.all fun c => !isCut c

end Database

def Record.isUncut (record : Record) : Bool :=
  Database.isUncut record.directory && Database.isUncut record.file &&
    Database.isUncut record.command

def Record.toJson (record : Record) : Json :=
  .object [(Database.Field.directory.name.widen, .text record.directory.widen),
    (Database.Field.file.name.widen, .text record.file.widen),
    (Database.Field.command.name.widen, .text record.command.widen)]

namespace Database

open Json

theorem layoutText_eq {text : Text} (h : isUncut text = true) :
    layoutText text = printText text := by
  have hchar : ∀ c ∈ text, layoutChar c = escapeChar c := by
    intro c hc
    have hcut := List.all_eq_true.mp h c hc
    rw [Bool.not_eq_true'] at hcut
    simp [layoutChar, hcut]
  unfold layoutText printText
  rw [List.flatMap_congr hchar]

def layoutOthers (records : List Record) : Text :=
  records.flatMap fun record => ',' :: layoutRecord record

def layoutRecords : List Record → Text
  | [] => []
  | record :: rest => layoutRecord record ++ layoutOthers rest

/-! The outline of a database. -/

theorem run_hexDigits {text : Text} (h : ∀ d ∈ text, isHexDigit d = true) (depth : Nat) :
    (Outline.inside depth).run text = .inside depth := by
  induction text with
  | nil => rfl
  | cons d text ih =>
    obtain ⟨hd, htext⟩ := List.forall_mem_cons.mp h
    rw [Outline.run_cons, step_inside_of_isHexDigit hd, ih htext]

theorem run_escaped {c : Char} {escaped : Text} (h : Escaped c escaped) (depth : Nat) :
    (Outline.inside depth).run escaped = .inside depth := by
  cases h with
  | letter h => rfl
  | unit h =>
    change (Outline.inside depth).run (Text.hexDigits 4 c.toNat) = _
    apply run_hexDigits
    intro d hd
    exact isHexDigit_of_mem hd
  | plain hquote hbackslash hcontrol =>
    exact Outline.step_inside_of_le hquote hbackslash (Nat.le_of_not_lt hcontrol) depth

theorem passes_layoutChar (c : Char) (depth : Nat) :
    (Outline.inside depth).Passes (layoutChar c) (!isCut c) (.inside depth) := by
  unfold layoutChar
  cases hcut : isCut c with
  | true => exact Outline.passes_of_fault rfl nofun
  | false => exact Outline.passes_of_run (run_escaped (escaped_escapeChar c) depth) nofun nofun

theorem passes_layoutChars (text : Text) (depth : Nat) :
    (Outline.inside depth).Passes (text.flatMap layoutChar) (isUncut text) (.inside depth) := by
  induction text with
  | nil => exact Outline.passes_of_run rfl nofun nofun
  | cons c text ih => exact (passes_layoutChar c depth).append ih

theorem passes_layoutText (text : Text) (depth : Nat) :
    (Outline.outside (depth + 1)).Passes (layoutText text) (isUncut text)
      (.outside (depth + 1)) := by
  have hopen : (Outline.outside (depth + 1)).Passes ['"'] true (.inside (depth + 1)) :=
    Outline.passes_of_run rfl nofun nofun
  have hclose : (Outline.inside (depth + 1)).Passes ['"'] true (.outside (depth + 1)) :=
    Outline.passes_of_run rfl nofun nofun
  have hquoted := (hopen.append (passes_layoutChars text (depth + 1))).append hclose
  rwa [Bool.true_and, Bool.and_true] at hquoted

theorem passes_layoutMember (field : Field) (value : Text) (depth : Nat) :
    (Outline.outside (depth + 1)).Passes (layoutMember field value) (isUncut value)
      (.outside (depth + 1)) := by
  have hname : (Outline.outside (depth + 1)).run
      ("\n    ".toList ++ printText field.name ++ ": ".toList) = .outside (depth + 1) := by
    cases field <;> rfl
  have hmember := (Outline.passes_of_run hname nofun nofun).append (passes_layoutText value depth)
  rwa [Bool.true_and] at hmember

theorem passes_comma (depth : Nat) :
    (Outline.outside (depth + 1)).Passes [','] true (.outside (depth + 1)) :=
  Outline.passes_of_run rfl nofun nofun

theorem passes_layoutRecord (record : Record) (depth : Nat) :
    (Outline.outside (depth + 1)).Passes (layoutRecord record) record.isUncut
      (.outside (depth + 1)) := by
  have hopen :
      (Outline.outside (depth + 1)).Passes "\n  \x7b".toList true (.outside (depth + 2)) :=
    Outline.passes_of_run rfl nofun nofun
  have hclose :
      (Outline.outside (depth + 2)).Passes "\n  \x7d".toList true (.outside (depth + 1)) :=
    Outline.passes_of_run rfl nofun nofun
  have hdirectory := hopen.append (passes_layoutMember .directory record.directory (depth + 1))
  have hfile := hdirectory.append
    ((passes_comma (depth + 1)).append (passes_layoutMember .file record.file (depth + 1)))
  have hcommand := hfile.append
    ((passes_comma (depth + 1)).append (passes_layoutMember .command record.command (depth + 1)))
  have hrecord := hcommand.append hclose
  rwa [Bool.and_true] at hrecord

theorem passes_layoutOthers (records : List Record) (depth : Nat) :
    (Outline.outside (depth + 1)).Passes (layoutOthers records) (records.all Record.isUncut)
      (.outside (depth + 1)) := by
  induction records with
  | nil => exact Outline.passes_of_run rfl nofun nofun
  | cons record rest ih =>
    exact ((passes_comma depth).append (passes_layoutRecord record depth)).append ih

theorem passes_layoutRecords (records : List Record) (depth : Nat) :
    (Outline.outside (depth + 1)).Passes (layoutRecords records) (records.all Record.isUncut)
      (.outside (depth + 1)) := by
  cases records with
  | nil => exact Outline.passes_of_run rfl nofun nofun
  | cons record rest =>
    exact (passes_layoutRecord record depth).append (passes_layoutOthers rest depth)

theorem run_layoutRecords (records : List Record) (depth : Nat) :
    (Outline.outside (depth + 1)).run (layoutRecords records) =
      (Outline.outside (depth + 1)).keepIf (records.all Record.isUncut) :=
  (passes_layoutRecords records depth).run_eq

/-! A database of which no string is cut derives from the grammar. -/

variable {later behind rest : Text}

theorem layoutMember_append {value : Text} (h : isUncut value = true) (field : Field)
    (text : Text) : layoutMember field value ++ text =
      "\n    ".toList ++ '"' :: (field.name.flatMap escapeChar ++
        '"' :: ':' :: ' ' :: (printText value ++ text)) := by
  have hcolon : ": ".toList = [':', ' '] := rfl
  unfold layoutMember
  rw [layoutText_eq h, hcolon]
  -- a text that is spelled out would be taken apart by the lemmas on `cons`
  generalize "\n    ".toList = front
  simp only [printText, List.append_assoc, List.cons_append, List.nil_append]

theorem derives_member {value : Text} (h : isUncut value = true) (field : Field)
    (more : Derives .members later rest) :
    Derives .members (layoutMember field value ++ ',' :: later) rest := by
  have hblanks : "\n    ".toList ⊆ [' ', '\t', '\n', '\r'] := by decide
  rw [layoutMember_append h]
  exact .member (derives_blanks hblanks _) (derives_chars _ _) .noBlank
    (.blank (by decide) .noBlank) (derives_printText value _) .noBlank more

theorem derives_lastMember {value : Text} (h : isUncut value = true) (field : Field)
    (after : Derives .blanks behind rest) :
    Derives .members (layoutMember field value ++ behind) rest := by
  have hblanks : "\n    ".toList ⊆ [' ', '\t', '\n', '\r'] := by decide
  rw [layoutMember_append h]
  exact .lastMember (derives_blanks hblanks _) (derives_chars _ _) .noBlank
    (.blank (by decide) .noBlank) (derives_printText value _) after

theorem derives_layoutRecord {record : Record} (h : record.isUncut = true) (rest : Text) :
    ∃ object, Derives .blanks (layoutRecord record ++ rest) object ∧
      Derives .value object rest := by
  unfold Record.isUncut at h
  rw [Bool.and_eq_true, Bool.and_eq_true] at h
  obtain ⟨⟨hdirectory, hfile⟩, hcommand⟩ := h
  have hblanks : "\n  ".toList ⊆ [' ', '\t', '\n', '\r'] := by decide
  have hmembers := derives_member hdirectory .directory (derives_member hfile .file
    (derives_lastMember hcommand .command (derives_blanks hblanks ('\x7d' :: rest))))
  have heq : layoutRecord record ++ rest = "\n  ".toList ++ '\x7b' ::
      (layoutMember .directory record.directory ++ ',' :: (layoutMember .file record.file ++
        ',' :: (layoutMember .command record.command ++ ("\n  ".toList ++ '\x7d' :: rest)))) := by
    have hopen : "\n  \x7b".toList = "\n  ".toList ++ ['\x7b'] := rfl
    have hclose : "\n  \x7d".toList = "\n  ".toList ++ ['\x7d'] := rfl
    unfold layoutRecord
    rw [hopen, hclose]
    generalize "\n  ".toList = front
    simp only [List.append_assoc, List.cons_append, List.nil_append]
  rw [heq]
  exact ⟨_, derives_blanks hblanks _, .object hmembers⟩

theorem derives_items {record : Record} {records : List Record} (h : record.isUncut = true)
    (hrest : records.all Record.isUncut = true) :
    Derives .items (layoutRecord record ++ (layoutOthers records ++ "\n]\n".toList))
      "]\n".toList := by
  induction records generalizing record with
  | nil =>
    obtain ⟨object, hblanks, hvalue⟩ := derives_layoutRecord h "\n]\n".toList
    exact .lastItem hblanks hvalue (.blank (by decide) .noBlank)
  | cons next records ih =>
    rw [List.all_cons, Bool.and_eq_true] at hrest
    have hmore := ih hrest.1 hrest.2
    obtain ⟨object, hblanks, hvalue⟩ := derives_layoutRecord h
      (',' :: (layoutRecord next ++ (layoutOthers records ++ "\n]\n".toList)))
    have heq : layoutOthers (next :: records) = ',' :: layoutRecord next ++ layoutOthers records :=
      rfl
    rw [heq, List.append_assoc]
    exact .item hblanks hvalue .noBlank hmore

theorem isDocument_layoutRecords {records : List Record}
    (h : records.all Record.isUncut = true) :
    IsDocument ('[' :: (layoutRecords records ++ "\n]\n".toList)) := by
  have hend : Derives .blanks "\n".toList [] := .blank (by decide) .noBlank
  cases records with
  | nil => exact ⟨_, _, .noBlank, .emptyArray (.blank (by decide) .noBlank), hend⟩
  | cons record rest =>
    rw [List.all_cons, Bool.and_eq_true] at h
    have hitems := derives_items h.1 h.2
    rw [← List.append_assoc] at hitems
    exact ⟨_, _, .noBlank, .array hitems, hend⟩

end Database
end BuildLog
