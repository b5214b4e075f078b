import BuildLog.CommandLine.Listing
import BuildLog.Proofs.Database.Interrupted
import BuildLog.Proofs.Text.Beginnings
import BuildLog.Proofs.Text.Utf8

/-! What the command that prints a database makes of the bytes that a writer has left. A whole
database gives its records; one that stops before its array is closed gives an error and nothing
else. -/
namespace BuildLog

def CodePoint.isHalf : CodePoint → Bool
  | .char _ => false
  | .half _ => true

namespace WideText

theorem narrow?_of_any_eq_false {text : WideText} (h : text.any CodePoint.isHalf = false) :
    text.narrow? = some (text.map CodePoint.inPath) := by
  induction text with
  | nil => rfl
  | cons point text ih =>
    rw [List.any_cons, Bool.or_eq_false_iff] at h
    cases point with
    | char c =>
      rw [narrow?, ih h.2]
      rfl
    | half offset => cases h.1

theorem narrow?_of_any {text : WideText} (h : text.any CodePoint.isHalf = true) :
    text.narrow? = none := by
  induction text with
  | nil => cases h
  | cons point text ih =>
    cases point with
    | half offset => rfl
    | char c =>
      rw [narrow?, ih h]
      rfl

end WideText

namespace Text

@[simp] theorem map_inPath_widen (text : Text) : text.widen.map CodePoint.inPath = text := by
  unfold widen
  rw [List.map_map]
  exact List.map_id text

@[simp] theorem any_isHalf_widen (text : Text) : text.widen.any CodePoint.isHalf = false := by
  unfold widen
  rw [List.any_map]
  exact List.any_eq_false.mpr fun _ _ => Bool.false_ne_true

end Text

def Json.isText : Json → Bool
  | .text _ => true
  | _ => false

namespace CommandLine

variable {machine : Machine} {options : ListOptions} {records : List Record}

theorem readDatabase_of_ok {bytes : List UInt8} {text : Text}
    (hbytes : Utf8.decodeStrict bytes = .ok text) (htext : '\r' ∉ text) :
    readDatabase bytes = (Json.read text).mapError (.format text) := by
  unfold readDatabase
  rw [hbytes]
  dsimp only
  rw [Text.unifyNewlines_of_not_mem htext]

theorem readDatabase_print (h : records.all Record.isUncut = true) :
    readDatabase (Utf8.encode (Database.print records)) =
      .ok (.array (records.map Record.toJson)) := by
  rw [readDatabase_of_ok (Utf8.decodeStrict_encode _) (Database.not_mem_print records),
    Database.read_print h]
  rfl

theorem exists_error_of_interrupted {text : Text} {bytes : List UInt8}
    (htext : Database.print records = text ++ "]\n".toList) (hbytes : bytes <+: Utf8.encode text) :
    ∃ error, readDatabase bytes = .error error := by
  obtain ⟨beginning, hbeginning, hread⟩ | ⟨error, hread⟩ := Utf8.decodeStrict_of_beginning hbytes
  · have hreturn : '\r' ∉ beginning := by
      intro h
      have hmem := List.mem_append_left "]\n".toList (hbeginning.subset h)
      rw [← htext] at hmem
      exact Database.not_mem_print records hmem
    obtain ⟨error, herror⟩ := Database.exists_error_of_beginning htext hbeginning
    rw [readDatabase_of_ok hread hreturn, herror]
    exact ⟨_, rfl⟩
  · unfold readDatabase
    rw [hread]
    exact ⟨_, rfl⟩

def listing (record : Record) : Text := record.file ++ '\t' :: record.command

/-- The text of a member; nothing if there is none. -/
def textOf (members : List (WideText × Json)) (name : Text) : WideText :=
  match Json.lookup members name with
  | some (.text value) => value
  | _ => []

def recordOf (members : List (WideText × Json)) : Record where
  directory := (textOf members "directory".toList).map CodePoint.inPath
  file := (textOf members "file".toList).map CodePoint.inPath
  command := (textOf members "command".toList).map CodePoint.inPath

/-- Whether an object has a field of a record that is no text. -/
def HoldsOther (members : List (WideText × Json)) (field : Database.Field) : Prop :=
  ∃ value ∈ Json.lookup members field.name, value.isText = false

instance (members : List (WideText × Json)) : DecidablePred (HoldsOther members) :=
  fun _ => inferInstanceAs (Decidable (∃ value ∈ _, _))

def HoldsHalf (members : List (WideText × Json)) (field : Database.Field) : Prop :=
  (textOf members field.name).any CodePoint.isHalf = true

instance (members : List (WideText × Json)) : DecidablePred (HoldsHalf members) :=
  fun _ => inferInstanceAs (Decidable (_ = true))

/-- Whether the system takes the path of a record. -/
def HasPath (members : List (WideText × Json)) : Prop :=
  ∀ point ∈ pathParts (textOf members "directory".toList) (textOf members "file".toList),
    point.isNameable = true

instance : DecidablePred HasPath := fun _ => inferInstanceAs (Decidable (∀ point ∈ _, _))

/-- Whether the fields of a record that an object has are texts, of characters only. -/
def HoldsTexts (members : List (WideText × Json)) : Prop :=
  ∀ (field : Database.Field) (value : Json), Json.lookup members field.name = some value →
    ∃ text : Text, value = .text text.widen

theorem holdsTexts_of_forall {members : List (WideText × Json)}
    (h : ∀ member ∈ members, ∃ text : Text, member.2 = .text text.widen) : HoldsTexts members := by
  intro field value hvalue
  obtain ⟨member, hfound, rfl⟩ := Option.map_eq_some_iff.mp hvalue
  exact h member (List.mem_reverse.mp (List.mem_of_find?_eq_some hfound))

namespace HoldsTexts

variable {members : List (WideText × Json)} (h : HoldsTexts members)

include h

theorem not_holdsOther (name : Database.Field) : ¬ HoldsOther members name := by
  rintro ⟨value, hvalue, hother⟩
  obtain ⟨text, rfl⟩ := h name value hvalue
  cases hother

theorem exists_textOf_eq (name : Database.Field) :
    ∃ text : Text, textOf members name.name = text.widen := by
  unfold textOf
  cases hvalue : Json.lookup members name.name with
  | none => exact ⟨[], rfl⟩
  | some value =>
    obtain ⟨text, rfl⟩ := h name value hvalue
    exact ⟨text, rfl⟩

theorem not_holdsHalf (name : Database.Field) : ¬ HoldsHalf members name := by
  obtain ⟨text, htext⟩ := h.exists_textOf_eq name
  unfold HoldsHalf
  rw [htext, Text.any_isHalf_widen]
  exact Bool.false_ne_true

end HoldsTexts

/-- Whether a filter shows a record. -/
def Filter.shows (filter : Filter) (record : Record) : Bool :=
  match filter.target with
  | none => true
  | some target =>
    Path.isUnder target
      (Path.absolute filter.workingPath (Path.resolve record.directory record.file))

section
variable {members : List (WideText × Json)} {name : Database.Field} {filter : Filter}

theorem field_of_holdsOther (h : HoldsOther members name) :
    field members name.name = .error .notText := by
  obtain ⟨value, hvalue, hother⟩ := h
  unfold field
  rw [Option.mem_def.mp hvalue]
  cases value with
  | text text => cases hother
  | null | boolean _ | number _ | array _ | object _ => rfl

theorem field_of_not_holdsOther (h : ¬ HoldsOther members name) :
    field members name.name = .ok (textOf members name.name) := by
  unfold field textOf
  cases hvalue : Json.lookup members name.name with
  | none => rfl
  | some value =>
    cases value with
    | text text => rfl
    | null | boolean _ | number _ | array _ | object _ => exact absurd ⟨_, hvalue, rfl⟩ h

theorem filePath_of_hasPath (h : HasPath members) (workingPath : Text) :
    filePath workingPath (textOf members "directory".toList) (textOf members "file".toList) =
      .ok (Path.absolute workingPath
        (Path.resolve (recordOf members).directory (recordOf members).file)) :=
  if_pos (List.all_eq_true.mpr h)

theorem filePath_of_not_hasPath (h : ¬ HasPath members) (workingPath : Text) :
    filePath workingPath (textOf members "directory".toList) (textOf members "file".toList) =
      .error .path :=
  if_neg (mt List.all_eq_true.mp h)

theorem any_isHalf_iff : (textOf members "file".toList ++ .char '\t' ::
    textOf members "command".toList).any CodePoint.isHalf = true ↔
      HoldsHalf members .file ∨ HoldsHalf members .command := by
  rw [List.any_append, List.any_cons, Bool.or_eq_true]
  rfl

theorem printable_of_not_holdsHalf (h : ¬ (HoldsHalf members .file ∨ HoldsHalf members .command)) :
    printable (textOf members "file".toList ++ .char '\t' :: textOf members "command".toList) =
      .ok (listing (recordOf members)) := by
  rw [← any_isHalf_iff, Bool.not_eq_true] at h
  unfold printable
  rw [WideText.narrow?_of_any_eq_false h, List.map_append]
  rfl

theorem printable_of_holdsHalf (h : HoldsHalf members .file ∨ HoldsHalf members .command) :
    printable (textOf members "file".toList ++ .char '\t' :: textOf members "command".toList) =
      .error .encoding := by
  unfold printable
  rw [WideText.narrow?_of_any (any_isHalf_iff.mpr h)]

variable [Console]

theorem elementLine_of_file (h : HoldsOther members .file) :
    elementLine filter (.object members) = .error .notText := by
  have hfile : field members "file".toList = .error .notText := field_of_holdsOther h
  unfold elementLine Filter.accepts
  cases filter.target with
  | none => simp only [hfile, bind, Except.bind, if_true]
  | some target => simp only [hfile, bind, Except.bind]

theorem elementLine_of_directory (htarget : filter.target ≠ none)
    (h : HoldsOther members .directory) :
    elementLine filter (.object members) = .error .notText := by
  by_cases hother : HoldsOther members .file
  · exact elementLine_of_file hother
  have hfile : field members "file".toList = _ := field_of_not_holdsOther hother
  have hdirectory : field members "directory".toList = .error .notText := field_of_holdsOther h
  obtain ⟨target, htarget⟩ := Option.ne_none_iff_exists'.mp htarget
  unfold elementLine Filter.accepts
  simp only [htarget, hfile, hdirectory, bind, Except.bind]

theorem elementLine_of_path (htarget : filter.target ≠ none) (hfile : ¬ HoldsOther members .file)
    (hdirectory : ¬ HoldsOther members .directory) (h : ¬ HasPath members) :
    elementLine filter (.object members) = .error .path := by
  have hfile : field members "file".toList = _ := field_of_not_holdsOther hfile
  have hdirectory : field members "directory".toList = _ := field_of_not_holdsOther hdirectory
  have hpath : filePath filter.workingPath (textOf members Database.Field.directory.name)
      (textOf members Database.Field.file.name) = _ := filePath_of_not_hasPath h _
  obtain ⟨target, htarget⟩ := Option.ne_none_iff_exists'.mp htarget
  unfold elementLine Filter.accepts
  simp only [htarget, hfile, hdirectory, hpath, bind, Except.bind]

/-- Once what tells whether a record is shown has no fault, the line hangs on the command alone, and
only if it is shown. -/
theorem elementLine_of_fields (hfile : ¬ HoldsOther members .file)
    (hdirectory : filter.target ≠ none → ¬ HoldsOther members .directory)
    (hpath : filter.target ≠ none → HasPath members) :
    elementLine filter (.object members) =
      if filter.shows (recordOf members) then
        (field members "command".toList).bind fun command =>
          (printable (textOf members "file".toList ++ .char '\t' :: command)).map fun line =>
            some (echo line)
      else .ok none := by
  have hread : field members "file".toList = .ok (textOf members "file".toList) :=
    field_of_not_holdsOther hfile
  have haccepts : filter.accepts members = .ok (filter.shows (recordOf members)) := by
    unfold Filter.accepts Filter.shows
    cases htarget : filter.target with
    | none => rfl
    | some target =>
      have hsome : filter.target ≠ none := by simp [htarget]
      have hplace : field members "directory".toList =
          .ok (textOf members "directory".toList) := field_of_not_holdsOther (hdirectory hsome)
      simp only [hread, hplace, filePath_of_hasPath (hpath hsome), bind, Except.bind]
      rfl
  unfold elementLine
  simp only [haccepts, hread, bind, Except.bind]
  split
  · cases field members "command".toList with
    | error abort => rfl
    | ok command =>
      dsimp only
      cases printable (textOf members "file".toList ++ .char '\t' :: command) <;> rfl
  · rfl

theorem elementLine_object (h : HoldsTexts members) (filter : Filter)
    (hpath : filter.target ≠ none → HasPath members) :
    elementLine filter (.object members) =
      .ok (if filter.shows (recordOf members) then some (echo (listing (recordOf members)))
        else none) := by
  have hcommand : field members "command".toList = .ok (textOf members "command".toList) :=
    field_of_not_holdsOther (h.not_holdsOther .command)
  rw [elementLine_of_fields (h.not_holdsOther .file) (fun _ => h.not_holdsOther .directory) hpath,
    hcommand]
  split
  · simp only [Except.bind,
      printable_of_not_holdsHalf (not_or.mpr ⟨h.not_holdsHalf .file, h.not_holdsHalf .command⟩)]
    rfl
  · rfl

end

def membersOf (record : Record) : List (WideText × Json) :=
  [(Database.Field.directory.name.widen, .text record.directory.widen),
    (Database.Field.file.name.widen, .text record.file.widen),
    (Database.Field.command.name.widen, .text record.command.widen)]

theorem recordOf_membersOf (record : Record) : recordOf (membersOf record) = record := by
  have hdirectory : textOf (membersOf record) "directory".toList = record.directory.widen := rfl
  have hfile : textOf (membersOf record) "file".toList = record.file.widen := rfl
  have hcommand : textOf (membersOf record) "command".toList = record.command.widen := rfl
  unfold recordOf
  rw [hdirectory, hfile, hcommand, Text.map_inPath_widen, Text.map_inPath_widen,
    Text.map_inPath_widen]

section

variable [Console]

theorem listElements_objects (filter : Filter) {entries : List (List (WideText × Json))}
    (h : ∀ members ∈ entries, HoldsTexts members)
    (hpath : filter.target ≠ none → ∀ members ∈ entries, HasPath members) :
    listElements filter (entries.map .object) =
      (((entries.map recordOf).filter filter.shows).flatMap fun record => echo (listing record),
        none) := by
  induction entries with
  | nil => rfl
  | cons members entries ih =>
    obtain ⟨hmembers, hentries⟩ := List.forall_mem_cons.mp h
    have hline := elementLine_object hmembers filter fun htarget =>
      hpath htarget members List.mem_cons_self
    have hlines := ih hentries fun htarget other hother =>
      hpath htarget other (List.mem_cons_of_mem members hother)
    rw [List.map_cons, listElements, hline, hlines, List.map_cons]
    by_cases hshown : filter.shows (recordOf members) = true
    · rw [if_pos hshown, List.filter_cons_of_pos hshown, List.flatMap_cons]
      rfl
    · rw [if_neg hshown, List.filter_cons_of_neg hshown]
      rfl

theorem listElements_toJson {filter : Filter} (h : filter.target = none) (records : List Record) :
    listElements filter (records.map Record.toJson) =
      (records.flatMap fun record => echo (listing record), none) := by
  have htexts : ∀ entry ∈ records.map membersOf, HoldsTexts entry := by
    intro entry hentry
    obtain ⟨record, -, rfl⟩ := List.mem_map.mp hentry
    exact holdsTexts_of_forall (by simp [membersOf])
  have hshown : ∀ record ∈ records, filter.shows record = true := by
    intro record _
    rw [Filter.shows, h]
  have hjson : records.map Record.toJson = (records.map membersOf).map .object := by
    rw [List.map_map]
    rfl
  have hrecords : (records.map membersOf).map recordOf = records := by
    rw [List.map_map]
    exact (List.map_congr_left fun record _ => recordOf_membersOf record).trans
      (List.map_id records)
  rw [hjson, listElements_objects filter htexts fun htarget => absurd h htarget, hrecords,
    List.filter_eq_self.mpr hshown]

theorem runList_of_print {location : Files.Location} (huncut : records.all Record.isUncut = true)
    (htarget : options.targetDirectory = [])
    (hfile : machine.openFile options.database = .ok location)
    (hcontent : machine.tree.contentAt location = Utf8.encode (Database.print records)) :
    runList machine options =
      .unchanged machine 0 (records.flatMap fun record => echo (listing record)) [] := by
  have hread : readDatabase (machine.tree.contentAt location) =
      .ok (.array (records.map Record.toJson)) := by
    rw [hcontent]
    exact readDatabase_print huncut
  have hfilter : (Filter.ofOptions machine.workingPath options).target = none := if_pos htarget
  unfold runList
  simp only [hfile, hread, elements, listElements_toJson hfilter]
  rfl

theorem runList_of_error {location : Files.Location} {error : DatabaseError}
    (hfile : machine.openFile options.database = .ok location)
    (hread : readDatabase (machine.tree.contentAt location) = .error error) :
    runList machine options = .unchanged machine 1 []
      (echo ("Error: ".toList ++ options.database ++ " is not a JSON database: ".toList ++
        error.message)) := by
  unfold runList
  simp only [hfile, hread]

/-- A file that holds a beginning of a database, up to any byte before the bracket that closes it,
is refused with a message, and no record of it is printed. The message is shown as it is up to its
reason, unless the path of the file holds an escape. -/
theorem runList_of_interrupted {location : Files.Location} {text : Text}
    (htext : Database.print records = text ++ "]\n".toList)
    (hfile : machine.openFile options.database = .ok location)
    (hbytes : machine.tree.contentAt location <+: Utf8.encode text) :
    ∃ error : DatabaseError, runList machine options = .unchanged machine 1 []
      (echo ("Error: ".toList ++ options.database ++ " is not a JSON database: ".toList ++
        error.message)) ∧
      ('\x1b' ∉ options.database → (runList machine options).errors =
        "Error: ".toList ++ options.database ++ " is not a JSON database: ".toList ++
          echo error.message) := by
  obtain ⟨error, hread⟩ := exists_error_of_interrupted htext hbytes
  have hlist := runList_of_error hfile hread
  refine ⟨error, hlist, fun hescape => ?_⟩
  have hfront : '\x1b' ∉
      "Error: ".toList ++ options.database ++ " is not a JSON database: ".toList := by
    simpa [List.mem_append] using hescape
  rw [hlist]
  exact echo_append hfront error.message

end

/-- The first byte of a character is there and the second one is not. -/
theorem runList_of_interrupted_in_character :
    letI := Console.stripping
    let record : Record := ⟨"/w".toList, "é.m".toList, "-c é.m".toList⟩
    let text := (Database.print [record]).dropLast.dropLast
    let machine : Machine :=
      .permissive ⟨[(["db".toList], .file ((Utf8.encode text).take 43))]⟩ [] []
    let outcome := runList machine ⟨"db".toList, "/w".toList⟩
    outcome.status = 1 ∧ outcome.output = [] ∧ ∃ error : DatabaseError,
      outcome.errors = "Error: db is not a JSON database: ".toList ++ echo error.message := by
  let _ : Console := Console.stripping
  intro record text machine outcome
  have htext : Database.print [record] = text ++ "]\n".toList := by decide
  have hbytes : machine.tree.contentAt ["db".toList] <+: Utf8.encode text := List.take_prefix 43 _
  have hfile : machine.openFile (ListOptions.mk "db".toList "/w".toList).database =
    .ok ["db".toList] := rfl
  obtain ⟨error, hlist, hmessage⟩ := runList_of_interrupted htext hfile hbytes
  exact ⟨congrArg Outcome.status hlist, congrArg Outcome.output hlist, error,
    hmessage (by decide)⟩

end CommandLine
end BuildLog
