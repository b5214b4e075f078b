import BuildLog.Database.Session
import BuildLog.Proofs.Database.Contents

/-! What any sequence of requests makes of a database: a document only if it is closed, nothing is
added behind its end, and no string is cut. -/
namespace BuildLog.Database

open Json

def Field.all : List Field := [.directory, .file, .command]

namespace Draft

def get? (draft : Draft) : Field → Option Text
  | .directory => draft.directory
  | .file => draft.file
  | .command => draft.command

def missing? (draft : Draft) : Option Field :=
  Field.all.find? fun field => (draft.get? field).isNone

def record? (draft : Draft) : Option Record := do
  let directory ← draft.directory
  let file ← draft.file
  let command ← draft.command
  return { directory, file, command }

theorem complete_of_missing {draft : Draft} {field : Field} (h : draft.missing? = some field) :
    draft.complete = .error field ∧ draft.record? = none := by
  obtain ⟨_ | directory, _ | file, _ | command⟩ := draft <;> cases h <;> exact ⟨rfl, rfl⟩

theorem complete_of_not_missing {draft : Draft} (h : draft.missing? = none) :
    ∃ record, draft.complete = .ok record ∧ draft.record? = some record := by
  obtain ⟨_ | directory, _ | file, _ | command⟩ := draft <;> cases h
  exact ⟨_, rfl, rfl⟩

end Draft

def Request.record? : Request → Option Record
  | .append draft => draft.record?
  | .close => none

namespace Writer

variable (writer : Writer) {draft : Draft}

theorem answer_of_missing {field : Field} (h : draft.missing? = some field) :
    writer.answer (.append draft) = ⟨writer, [], some field⟩ := by
  simp only [answer, (Draft.complete_of_missing h).1]

theorem answer_of_record {record : Record} (h : draft.record? = some record) :
    writer.answer (.append draft) =
      ⟨(writer.append record).1, (writer.append record).2, none⟩ := by
  cases hmissing : draft.missing? with
  | some field =>
    rw [(Draft.complete_of_missing hmissing).2] at h
    cases h
  | none =>
    obtain ⟨record', hcomplete, hrecord⟩ := Draft.complete_of_not_missing hmissing
    rw [hrecord, Option.some.injEq] at h
    simp only [answer, hcomplete, h]

theorem answer_close (h : writer.closed = false) :
    writer.answer .close = ⟨{ writer with closed := true }, closing, none⟩ := by
  simp [answer, close, h]

theorem answer_close_of_closed (h : writer.closed = true) :
    writer.answer .close = ⟨writer, [], none⟩ := by
  simp [answer, close, h]

end Writer

theorem Draft.missing_of_record {draft : Draft} (h : draft.record? = none) :
    ∃ field, draft.missing? = some field := by
  cases hmissing : draft.missing? with
  | some field => exact ⟨field, rfl⟩
  | none =>
    obtain ⟨record, -, hrecord⟩ := Draft.complete_of_not_missing hmissing
    rw [hrecord] at h
    cases h

theorem isDocument_print_append_iff (records behind : List Record) :
    IsDocument (print records ++
        if records.length = 0 then layoutRecords behind else layoutOthers behind) ↔
      behind = [] ∧ records.all Record.isUncut = true := by
  cases behind with
  | nil =>
    have hempty : (if records.length = 0 then layoutRecords [] else layoutOthers []) = [] :=
      ite_self []
    rw [hempty, List.append_nil, isDocument_print_iff]
    exact ⟨fun h => ⟨rfl, h⟩, And.right⟩
  | cons record rest =>
    have hrecord : (Outline.outside 0).run (layoutRecord record) = .fault := by
      have hopen : (Outline.outside 0).run "\n  \x7b".toList = .fault := rfl
      unfold layoutRecord
      rw [Outline.run_append, Outline.run_append, Outline.run_append, Outline.run_append, hopen]
      simp only [Outline.run_fault]
    have hfirst : (Outline.outside 0).run (layoutRecords (record :: rest)) = .fault := by
      unfold layoutRecords
      rw [Outline.run_append, hrecord, Outline.run_fault]
    have hlater : (Outline.outside 0).run (layoutOthers (record :: rest)) = .fault :=
      Outline.run_fault _
    constructor
    · intro h
      rw [print_eq, List.cons_append] at h
      have hrun := h.run_array
      have hend : (Outline.outside 1).run "\n]\n".toList = .outside 0 := rfl
      rw [Outline.run_append, Outline.run_append, run_layoutRecords, Outline.run_keepIf, hend,
        Outline.run_keepIf] at hrun
      have hfault : (Outline.outside 0).run
          (if records.length = 0 then layoutRecords (record :: rest)
            else layoutOthers (record :: rest)) = .fault := by
        split
        · exact hfirst
        · exact hlater
      rw [hfault] at hrun
      cases hall : records.all Record.isUncut with
      | true | false =>
        rw [hall] at hrun
        exact absurd hrun (by decide)
    · rintro ⟨h, -⟩
      cases h

namespace Session

theorem take_eq (session : Session) {request : Request} {reply : Reply}
    (h : session.writer.answer request = reply) :
    session.take request = ⟨reply.writer, session.text ++ reply.written⟩ := by
  unfold take
  rw [h]

theorem take_idle (session : Session) {request : Request} {missing : Option Field}
    (h : session.writer.answer request = ⟨session.writer, [], missing⟩) :
    session.take request = session := by
  rw [take_eq session h, List.append_nil]

theorem foldl_take (session : Session) (requests : List Request)
    (h : session.writer.closed = true ∨ .close ∉ requests) :
    requests.foldl take session =
      ⟨(session.writer.appendAll (requests.filterMap Request.record?)).1,
        session.text ++ (session.writer.appendAll (requests.filterMap Request.record?)).2⟩ := by
  induction requests generalizing session with
  | nil => simp [Writer.appendAll]
  | cons request rest ih =>
    have hrest : session.writer.closed = true ∨ .close ∉ rest :=
      h.imp_right fun hmem hrest => hmem (List.mem_cons_of_mem request hrest)
    rw [List.foldl_cons]
    cases request with
    | close =>
      have hclosed : session.writer.closed = true :=
        h.resolve_right fun hmem => hmem List.mem_cons_self
      rw [take_idle session (Writer.answer_close_of_closed _ hclosed), ih session hrest]
      rfl
    | append draft =>
      cases hrecord : draft.record? with
      | none =>
        have hnone : (Request.append draft).record? = none := hrecord
        obtain ⟨field, hfield⟩ := Draft.missing_of_record hrecord
        rw [take_idle session (Writer.answer_of_missing _ hfield), ih session hrest,
          List.filterMap_cons_none hnone]
      | some record =>
        have hsome : (Request.append draft).record? = some record := hrecord
        have hnext := ih (session.take (.append draft))
        rw [take_eq session (Writer.answer_of_record _ hrecord)] at hnext ⊢
        rw [hnext hrest, List.filterMap_cons_some hsome]
        simp only [Writer.appendAll, List.append_assoc]

theorem run_of_not_mem {requests : List Request} (h : .close ∉ requests) :
    run requests = ⟨⟨(requests.filterMap Request.record?).length, false⟩,
      '[' :: layoutRecords (requests.filterMap Request.record?)⟩ := by
  have hcount : start.writer.count = 0 := rfl
  unfold run
  rw [foldl_take _ _ (.inr h), Writer.appendAll_writer, Writer.appendAll_text, if_pos hcount,
    hcount, Nat.zero_add]
  rfl

theorem run_of_close {before : List Request} (h : .close ∉ before) (after : List Request) :
    run (before ++ .close :: after) =
      ⟨⟨((before ++ .close :: after).filterMap Request.record?).length, true⟩,
        print (before.filterMap Request.record?) ++
          if (before.filterMap Request.record?).length = 0 then
            layoutRecords (after.filterMap Request.record?)
          else layoutOthers (after.filterMap Request.record?)⟩ := by
  have hnone : Request.record? .close = none := rfl
  have hfold : run (before ++ .close :: after) = (Request.close :: after).foldl take (run before) :=
    List.foldl_append
  have hanswer := Writer.answer_close ⟨(before.filterMap Request.record?).length, false⟩ rfl
  rw [hfold, List.foldl_cons, run_of_not_mem h, take_eq _ hanswer, foldl_take _ _ (.inl rfl),
    Writer.appendAll_writer, Writer.appendAll_text, List.filterMap_append,
    List.filterMap_cons_none hnone, List.length_append, print_eq]
  rfl

theorem isDocument_run_iff (requests : List Request) : IsDocument (run requests).text ↔
    .close ∈ requests ∧
      (requests.dropWhile (· ≠ .close)).filterMap Request.record? = [] ∧
      ∀ record ∈ requests.filterMap Request.record?, record.isUncut = true := by
  -- the text splits where it is closed first, and not at all if it is never closed
  by_cases hclose : .close ∈ requests
  · obtain ⟨before, after, rfl, hbefore⟩ := List.eq_append_cons_of_mem hclose
    have hnone : Request.record? .close = none := rfl
    have hbehind : (before ++ .close :: after).dropWhile (· ≠ .close) = .close :: after := by
      rw [List.dropWhile_append_of_pos]
      · rfl
      · intro request hrequest
        exact decide_eq_true fun heq => hbefore (heq ▸ hrequest)
    rw [run_of_close hbefore, isDocument_print_append_iff, hbehind, List.filterMap_append,
      List.filterMap_cons_none hnone, List.all_eq_true]
    constructor
    · rintro ⟨hafter, hall⟩
      refine ⟨hclose, hafter, ?_⟩
      rwa [hafter, List.append_nil]
    · rintro ⟨-, hafter, hall⟩
      rw [hafter, List.append_nil] at hall
      exact ⟨hafter, hall⟩
  · rw [run_of_not_mem hclose]
    constructor
    · intro h
      have hrun := h.run_array
      rw [run_layoutRecords] at hrun
      cases hall : (requests.filterMap Request.record?).all Record.isUncut with
      | true | false =>
        rw [hall] at hrun
        exact absurd hrun (by decide)
    · intro h
      exact absurd h.1 hclose

theorem read_run {requests : List Request} (h : IsDocument (run requests).text) :
    Json.read (run requests).text =
      .ok (.array ((requests.filterMap Request.record?).map Record.toJson)) := by
  have hvalid := (isDocument_run_iff requests).mp h
  obtain ⟨before, after, rfl, hbefore⟩ := List.eq_append_cons_of_mem hvalid.1
  have hnone : Request.record? .close = none := rfl
  rw [run_of_close hbefore] at h ⊢
  obtain ⟨hafter, hall⟩ := (isDocument_print_append_iff _ _).mp h
  have hnothing : (if (before.filterMap Request.record?).length = 0 then layoutRecords []
      else layoutOthers []) = [] := ite_self []
  rw [hafter, hnothing, List.append_nil, read_print hall, List.filterMap_append,
    List.filterMap_cons_none hnone, hafter, List.append_nil]

theorem run_count (requests : List Request) :
    (run requests).writer.count = (requests.filterMap Request.record?).length := by
  by_cases hclose : .close ∈ requests
  · obtain ⟨before, after, rfl, hbefore⟩ := List.eq_append_cons_of_mem hclose
    rw [run_of_close hbefore]
  · rw [run_of_not_mem hclose]

theorem run_closed {requests : List Request} (h : .close ∈ requests) :
    (run requests).writer.closed = true := by
  obtain ⟨before, after, rfl, hbefore⟩ := List.eq_append_cons_of_mem h
  rw [run_of_close hbefore]

/-- What a session comes to, whatever is asked for and in whatever order: a request for a record
that lacks a field is refused with the first such field and leaves no trace, the records are
counted, only the first request to close has an effect, and the text is a document, with exactly
the records in it, on three conditions. -/
theorem run_requests (requests : List Request) :
    let session := run requests
    let records := requests.filterMap Request.record?
    (∀ draft, (session.writer.answer (.append draft)).missing = draft.missing? ∧
      ∀ field, draft.missing? = some field →
        (session.writer.answer (.append draft)).written = [] ∧
        (session.writer.answer (.append draft)).writer = session.writer) ∧
    session.writer.count = records.length ∧
    (.close ∈ requests → (session.writer.answer .close).written = []) ∧
    (IsDocument session.text ↔ .close ∈ requests ∧
      (requests.dropWhile (· ≠ .close)).filterMap Request.record? = [] ∧
      ∀ record ∈ records, record.isUncut = true) ∧
    (IsDocument session.text →
      Json.read session.text = .ok (.array (records.map Record.toJson))) := by
  intro session records
  refine ⟨?_, run_count requests, ?_, isDocument_run_iff requests, read_run⟩
  · intro draft
    constructor
    · cases hmissing : draft.missing? with
      | some field => rw [Writer.answer_of_missing _ hmissing]
      | none =>
        obtain ⟨record, -, hrecord⟩ := Draft.complete_of_not_missing hmissing
        rw [Writer.answer_of_record _ hrecord]
    · intro field hfield
      rw [Writer.answer_of_missing _ hfield]
      exact ⟨rfl, rfl⟩
  · intro hclose
    rw [Writer.answer_close_of_closed _ (run_closed hclose)]

end Session

end BuildLog.Database
