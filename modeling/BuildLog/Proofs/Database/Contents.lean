import BuildLog.Proofs.Database.Document

/-! What the reader finds in the text of a database, and the text that a writer adds. -/
namespace BuildLog.Database

open Json

variable {stack : List Frame}

theorem takes_layoutMember {value : Text} (h : isUncut value = true) (field : Field) {mode : Mode}
    (hmode : mode = .firstName ∨ mode = .name) {members : List (WideText × Json)} :
    Takes (At (.object members :: stack) mode) (layoutMember field value)
      (At (.object ((field.name.widen, .text value.widen) :: members) :: stack) .ended) := by
  have hbetween : mode.isBetween = true := by
    rcases hmode with rfl | rfl <;> rfl
  have hblanks : Takes (At (.object members :: stack) mode) "\n    ".toList
      (At (.object members :: stack) mode) := takes_blanks hbetween _ (by decide)
  have hcolon : Takes (At (.member members field.name.widen :: stack) .colon) ": ".toList
      (At (.member members field.name.widen :: stack) .value) := by
    have hstep : Takes (At (.member members field.name.widen :: stack) .colon) [':']
        (At (.member members field.name.widen :: stack) .value) := takes_step fun _ => ⟨_, rfl⟩
    exact hstep.append (takes_blanks rfl [' '] (by decide))
  unfold layoutMember
  rw [layoutText_eq h]
  exact ((hblanks.append (takes_printedName hmode field.name)).append hcolon).append
    (takes_printedValue value)

theorem takes_comma_object {members : List (WideText × Json)} :
    Takes (At (.object members :: stack) .ended) [','] (At (.object members :: stack) .name) :=
  takes_step fun _ => ⟨_, rfl⟩

theorem takes_comma_array {items : List Json} :
    Takes (At (.array items :: stack) .ended) [','] (At (.array items :: stack) .value) :=
  takes_step fun _ => ⟨_, rfl⟩

theorem takes_layoutRecord {record : Record} (h : record.isUncut = true) {mode : Mode}
    (hmode : mode = .firstItem ∨ mode = .value) {items : List Json} :
    Takes (At (.array items :: stack) mode) (layoutRecord record)
      (At (.array (record.toJson :: items) :: stack) .ended) := by
  unfold Record.isUncut at h
  rw [Bool.and_eq_true, Bool.and_eq_true] at h
  obtain ⟨⟨hdirectory, hfile⟩, hcommand⟩ := h
  have hopen : Takes (At (.array items :: stack) mode) "\n  \x7b".toList
      (At (.object [] :: .array items :: stack) .firstName) := by
    have hbetween : mode.isBetween = true := by
      rcases hmode with rfl | rfl <;> rfl
    have hbrace : Takes (At (.array items :: stack) mode) ['\x7b']
        (At (.object [] :: .array items :: stack) .firstName) := by
      rcases hmode with rfl | rfl <;> exact takes_step fun _ => ⟨_, rfl⟩
    exact (takes_blanks hbetween "\n  ".toList (by decide)).append hbrace
  have hclose {members : List (WideText × Json)} :
      Takes (At (.object members :: .array items :: stack) .ended) "\n  \x7d".toList
        (At (.array (.object members.reverse :: items) :: stack) .ended) := by
    have hbrace : Takes (At (.object members :: .array items :: stack) .ended) ['\x7d']
        (At (.array (.object members.reverse :: items) :: stack) .ended) :=
      takes_step fun _ => ⟨_, rfl⟩
    exact (takes_blanks rfl "\n  ".toList (by decide)).append hbrace
  unfold layoutRecord
  exact (((hopen.append (takes_layoutMember hdirectory .directory (.inl rfl))).append
    (takes_comma_object.append (takes_layoutMember hfile .file (.inr rfl)))).append
    (takes_comma_object.append (takes_layoutMember hcommand .command (.inr rfl)))).append hclose

theorem takes_layoutOthers {records : List Record} (h : records.all Record.isUncut = true)
    {items : List Json} :
    Takes (At (.array items :: stack) .ended) (layoutOthers records)
      (At (.array ((records.map Record.toJson).reverse ++ items) :: stack) .ended) := by
  induction records generalizing items with
  | nil => exact Takes.nil
  | cons record rest ih =>
    rw [List.all_cons, Bool.and_eq_true] at h
    have hrecord : Takes (At (.array items :: stack) .value) (layoutRecord record)
      (At (.array (record.toJson :: items) :: stack) .ended) := takes_layoutRecord h.1 (.inr rfl)
    have hrest := (takes_comma_array.append hrecord).append (ih h.2)
    rwa [List.map_cons, List.reverse_cons, List.append_assoc]

theorem read_layoutRecords {records : List Record} (h : records.all Record.isUncut = true) :
    Json.read ('[' :: (layoutRecords records ++ "\n]\n".toList)) =
      .ok (.array (records.map Record.toJson)) := by
  have hopen : Takes (At [] .value) ['['] (At [.array []] .firstItem) :=
    takes_step fun _ => ⟨_, rfl⟩
  have hend (items : List Json) {mode : Mode} (hmode : mode = .ended ∨ mode = .firstItem) :
      Takes (At [.array items] mode) "\n]\n".toList (At [] (.done (.array items.reverse))) := by
    have hbetween : mode.isBetween = true := by
      rcases hmode with rfl | rfl <;> rfl
    have hclose : Takes (At [.array items] mode) [']'] (At [] (.done (.array items.reverse))) := by
      rcases hmode with rfl | rfl <;> exact takes_step fun _ => ⟨_, rfl⟩
    exact ((takes_blanks hbetween ['\n'] (by decide)).append hclose).append
      (takes_blanks rfl ['\n'] (by decide))
  have htakes : Takes (At [] .value) (['['] ++ (layoutRecords records ++ "\n]\n".toList))
      (At [] (.done (.array (records.map Record.toJson)))) := by
    cases records with
    | nil => exact hopen.append (hend [] (.inr rfl))
    | cons record rest =>
      rw [List.all_cons, Bool.and_eq_true] at h
      have hfirst : Takes (At [.array []] .firstItem) (layoutRecord record)
        (At [.array [record.toJson]] .ended) := takes_layoutRecord h.1 (.inl rfl)
      have hitems := hfirst.append (takes_layoutOthers h.2)
      have hall := hopen.append (hitems.append (hend _ (.inl rfl)))
      rwa [List.reverse_append, List.reverse_reverse] at hall
  obtain ⟨⟨position, stack, mode⟩, hfold, hstack, hmode⟩ := htakes .start ⟨rfl, rfl⟩
  have hmode' : mode = .done (.array (records.map Record.toJson)) := hmode
  have hmark : ('[' :: (layoutRecords records ++ "\n]\n".toList)).head? ≠ some '\ufeff' := by
    rw [List.head?_cons]
    decide
  unfold Json.read
  rw [if_neg hmark]
  change (do (← (['['] ++ (layoutRecords records ++ "\n]\n".toList)).foldlM Reader.step
    Reader.start).finish) = _
  rw [hfold, hmode']
  rfl

namespace Writer

theorem append_text (writer : Writer) (record : Record) :
    (writer.append record).2 = (if writer.count = 0 then [] else [',']) ++ layoutRecord record := by
  unfold append
  rw [indent_printRecord]

theorem appendAll_writer (writer : Writer) (records : List Record) :
    (writer.appendAll records).1 = { writer with count := writer.count + records.length } := by
  induction records generalizing writer with
  | nil => rfl
  | cons record rest ih =>
    have hcount : writer.count + 1 + rest.length = writer.count + (rest.length + 1) := by omega
    change ((writer.append record).1.appendAll rest).1 = _
    rw [ih, List.length_cons, ← hcount]
    rfl

theorem appendAll_others (writer : Writer) (h : writer.count ≠ 0) (records : List Record) :
    (writer.appendAll records).2 = layoutOthers records := by
  induction records generalizing writer with
  | nil => rfl
  | cons record rest ih =>
    change (writer.append record).2 ++ ((writer.append record).1.appendAll rest).2 = _
    have hnext : (writer.append record).1.count ≠ 0 := Nat.succ_ne_zero writer.count
    rw [append_text, if_neg h, ih _ hnext]
    rfl

theorem appendAll_text (writer : Writer) (records : List Record) : (writer.appendAll records).2 =
    if writer.count = 0 then layoutRecords records else layoutOthers records := by
  split
  next h =>
    cases records with
    | nil => rfl
    | cons record rest =>
      change (writer.append record).2 ++ ((writer.append record).1.appendAll rest).2 = _
      have hnext : (writer.append record).1.count ≠ 0 := Nat.succ_ne_zero writer.count
      rw [append_text, if_pos h, appendAll_others _ hnext]
      rfl
  next h => exact appendAll_others writer h records

end Writer

theorem print_eq (records : List Record) :
    print records = '[' :: (layoutRecords records ++ "\n]\n".toList) := by
  have hclosed : (Writer.start.appendAll records).1.closed = false := by
    rw [Writer.appendAll_writer]
    rfl
  have hclose : (Writer.start.appendAll records).1.close.2 = Writer.closing := by
    unfold Writer.close
    rw [hclosed]
    rfl
  change Writer.opening ++ (Writer.start.appendAll records).2 ++
    (Writer.start.appendAll records).1.close.2 = _
  rw [hclose, Writer.appendAll_text, List.append_assoc]
  rfl

/-- The text of a database is a document exactly if none of its strings is cut. -/
theorem isDocument_print_iff (records : List Record) :
    IsDocument (print records) ↔ records.all Record.isUncut = true := by
  rw [print_eq]
  constructor
  · intro h
    have hrun := h.run_array
    rw [Outline.run_append, run_layoutRecords, Outline.run_keepIf] at hrun
    by_contra hcut
    rw [Bool.not_eq_true] at hcut
    rw [hcut] at hrun
    exact absurd hrun (by decide)
  · exact isDocument_layoutRecords

theorem read_print {records : List Record} (h : records.all Record.isUncut = true) :
    Json.read (print records) = .ok (.array (records.map Record.toJson)) := by
  rw [print_eq]
  exact read_layoutRecords h

end BuildLog.Database
