import BuildLog.Proofs.CommandLine.Filtering
import BuildLog.Proofs.Json.Newlines

/-! Databases with elements that cannot be listed. The elements are taken in order, the first one
with a fault ends the listing, and the lines before it stay. What a fault is depends on which fields
are read: the directory is read for a target only, and the command only if the record is shown. -/
namespace BuildLog.CommandLine

/-- Whether a record is shown, seen from a working directory: all are without a target. -/
def IsListed (place target : Text) (members : List (WideText × Json)) : Prop :=
  target = [] ∨ HasPath members ∧ LiesUnder place target (recordOf members)

instance (place target : Text) : DecidablePred (IsListed place target) :=
  fun _ => inferInstanceAs (Decidable (_ ∨ _))

/-- Whether the fields that tell if a record is shown are texts. -/
def HoldsPlace (target : Text) (members : List (WideText × Json)) : Prop :=
  ¬ HoldsOther members .file ∧ (target ≠ [] → ¬ HoldsOther members .directory)

instance (target : Text) : DecidablePred (HoldsPlace target) :=
  fun _ => inferInstanceAs (Decidable (_ ∧ _))

def HoldsHalfLine (members : List (WideText × Json)) : Prop :=
  HoldsHalf members .file ∨ HoldsHalf members .command

instance : DecidablePred HoldsHalfLine := fun _ => inferInstanceAs (Decidable (_ ∨ _))

/-- The faults that an element can have. A field that a record lacks is none: it is empty. -/
inductive HasFault (place target : Text) : Json → Abort → Prop
  | element {element : Json} (h : ∀ members, element ≠ .object members) :
    HasFault place target element .notObject
  | file {members : List (WideText × Json)} (h : HoldsOther members .file) :
    HasFault place target (.object members) .notText
  | directory {members : List (WideText × Json)} (htarget : target ≠ [])
    (h : HoldsOther members .directory) : HasFault place target (.object members) .notText
  | path {members : List (WideText × Json)} (htarget : target ≠ [])
    (hplace : HoldsPlace target members) (h : ¬ HasPath members) :
    HasFault place target (.object members) .path
  | command {members : List (WideText × Json)} (hlisted : IsListed place target members)
    (h : HoldsOther members .command) : HasFault place target (.object members) .notText
  | line {members : List (WideText × Json)} (hlisted : IsListed place target members)
    (hplace : HoldsPlace target members) (hcommand : ¬ HoldsOther members .command)
    (h : HoldsHalfLine members) : HasFault place target (.object members) .encoding

/-- Whether an element has no fault. -/
def IsSound (place target : Text) (element : Json) : Prop :=
  ∀ abort, ¬ HasFault place target element abort

def listedRecord? (place target : Text) : Json → Option Record
  | .object members =>
    if IsListed place target members then some (recordOf members) else none
  | _ => none

def listingOf [Console] (place target : Text) (elements : List Json) : Text :=
  (elements.filterMap (listedRecord? place target)).flatMap fun record => echo (listing record)

variable {place target : Text} {element : Json} {members : List (WideText × Json)}

theorem listedRecord?_object (place target : Text) (members : List (WideText × Json)) :
    listedRecord? place target (.object members) =
      if IsListed place target members then some (recordOf members) else none := rfl

theorem isSound_object_iff :
    IsSound place target (.object members) ↔ HoldsPlace target members ∧
      (target ≠ [] → HasPath members) ∧
      (IsListed place target members →
        ¬ HoldsOther members .command ∧ ¬ HoldsHalfLine members) := by
  constructor
  · intro h
    have hplace : HoldsPlace target members :=
      ⟨fun hfile => h _ (.file hfile),
        fun htarget hdirectory => h _ (.directory htarget hdirectory)⟩
    refine ⟨hplace, fun htarget => ?_, fun hlisted => ?_⟩
    · by_contra hpath
      exact h _ (.path htarget hplace hpath)
    · have hcommand : ¬ HoldsOther members .command :=
        fun hcommand => h _ (.command hlisted hcommand)
      exact ⟨hcommand, fun hhalf => h _ (.line hlisted hplace hcommand hhalf)⟩
  · rintro ⟨hplace, hpath, hline⟩ abort hfault
    cases hfault with
    | element hother => exact hother members rfl
    | file h => exact hplace.1 h
    | directory htarget h => exact hplace.2 htarget h
    | path htarget _ h => exact h (hpath htarget)
    | command hlisted h => exact (hline hlisted).1 h
    | line hlisted _ _ h => exact (hline hlisted).2 h

theorem HasFault.of_not_isListed {abort : Abort}
    (h : HasFault place target (.object members) abort)
    (hlisted : ¬ IsListed place target members) :
    ¬ HoldsPlace target members ∨ target ≠ [] ∧ ¬ HasPath members := by
  cases h with
  | element hother => exact absurd rfl (hother members)
  | file h => exact .inl fun hplace => hplace.1 h
  | directory htarget h => exact .inl fun hplace => hplace.2 htarget h
  | path htarget _ h => exact .inr ⟨htarget, h⟩
  | command hshown | line hshown => exact absurd hshown hlisted

theorem exists_members_of_isSound (h : IsSound place target element) :
    ∃ members, element = .object members := by
  by_contra hnone
  exact h _ (.element fun members heq => hnone ⟨members, heq⟩)

theorem IsListed.hasPath (h : IsListed place target members) (htarget : target ≠ []) :
    HasPath members := (h.resolve_left htarget).1

theorem target_ofOptions_ne_none_iff (place : Text) (options : ListOptions) :
    (Filter.ofOptions place options).target ≠ none ↔ options.targetDirectory ≠ [] := by
  unfold Filter.ofOptions
  by_cases htarget : options.targetDirectory = [] <;> simp [htarget]

section

variable {machine : Machine} {options : ListOptions}

theorem shows_ofOptions_iff (hpath : options.targetDirectory ≠ [] → HasPath members) :
    (Filter.ofOptions machine.workingPath options).shows (recordOf members) = true ↔
      IsListed machine.workingPath options.targetDirectory members := by
  obtain ⟨database, target⟩ := options
  by_cases htarget : target = []
  · rw [htarget, shows_ofOptions_of_nil]
    exact iff_of_true rfl (.inl rfl)
  · rw [shows_ofOptions htarget, decide_eq_true_iff]
    constructor
    · exact fun hunder => .inr ⟨hpath htarget, hunder⟩
    · rintro (hnil | ⟨-, hunder⟩)
      · exact absurd hnil htarget
      · exact hunder

variable [Console]

theorem elementLine_of_holdsPlace (hplace : HoldsPlace options.targetDirectory members)
    (hpath : options.targetDirectory ≠ [] → HasPath members) :
    elementLine (Filter.ofOptions machine.workingPath options) (.object members) =
      if IsListed machine.workingPath options.targetDirectory members then
        (field members "command".toList).bind fun command =>
          (printable (textOf members "file".toList ++ .char '\t' :: command)).map fun line =>
            some (echo line)
      else .ok none := by
  have htarget := target_ofOptions_ne_none_iff machine.workingPath options
  rw [elementLine_of_fields hplace.1 (fun h => hplace.2 (htarget.mp h))
    fun h => hpath (htarget.mp h)]
  simp only [shows_ofOptions_iff hpath]

theorem elementLine_of_hasFault {abort : Abort}
    (h : HasFault machine.workingPath options.targetDirectory element abort) :
    elementLine (Filter.ofOptions machine.workingPath options) element = .error abort := by
  have htarget := target_ofOptions_ne_none_iff machine.workingPath options
  cases h with
  | element hother =>
    cases element with
    | object members => exact absurd rfl (hother members)
    | null | boolean _ | number _ | text _ | array _ => rfl
  | file hfile => exact elementLine_of_file hfile
  | directory hne hdirectory => exact elementLine_of_directory (htarget.mpr hne) hdirectory
  | path hne hplace hpath =>
    exact elementLine_of_path (htarget.mpr hne) hplace.1 (hplace.2 hne) hpath
  | @command members hlisted hcommand =>
    -- a field that is read before the command may have the same fault
    by_cases hfile : HoldsOther members .file
    · exact elementLine_of_file hfile
    by_cases hdirectory : options.targetDirectory ≠ [] ∧ HoldsOther members .directory
    · exact elementLine_of_directory (htarget.mpr hdirectory.1) hdirectory.2
    have hread : field members "command".toList = .error .notText := field_of_holdsOther hcommand
    rw [elementLine_of_holdsPlace ⟨hfile, not_and.mp hdirectory⟩ hlisted.hasPath, if_pos hlisted,
      hread]
    rfl
  | @line members hlisted hplace hcommand hhalf =>
    have hread : field members "command".toList = .ok (textOf members "command".toList) :=
      field_of_not_holdsOther hcommand
    rw [elementLine_of_holdsPlace hplace hlisted.hasPath, if_pos hlisted, hread]
    simp only [Except.bind, printable_of_holdsHalf hhalf]
    rfl

theorem elementLine_of_isSound
    (h : IsSound machine.workingPath options.targetDirectory element) :
    elementLine (Filter.ofOptions machine.workingPath options) element =
      .ok ((listedRecord? machine.workingPath options.targetDirectory element).map fun record =>
        echo (listing record)) := by
  obtain ⟨members, rfl⟩ := exists_members_of_isSound h
  obtain ⟨hplace, hpath, hline⟩ := isSound_object_iff.mp h
  rw [elementLine_of_holdsPlace hplace hpath, listedRecord?_object]
  by_cases hlisted : IsListed machine.workingPath options.targetDirectory members
  · obtain ⟨hcommand, hhalf⟩ := hline hlisted
    have hread : field members "command".toList = .ok (textOf members "command".toList) :=
      field_of_not_holdsOther hcommand
    rw [if_pos hlisted, if_pos hlisted, hread]
    simp only [Except.bind, printable_of_not_holdsHalf hhalf]
    rfl
  · rw [if_neg hlisted, if_neg hlisted]
    rfl

theorem listElements_append {front : List Json}
    (h : ∀ element ∈ front, IsSound machine.workingPath options.targetDirectory element)
    (rest : List Json) :
    listElements (Filter.ofOptions machine.workingPath options) (front ++ rest) =
      (listingOf machine.workingPath options.targetDirectory front ++
        (listElements (Filter.ofOptions machine.workingPath options) rest).1,
        (listElements (Filter.ofOptions machine.workingPath options) rest).2) := by
  induction front with
  | nil => rfl
  | cons element front ih =>
    obtain ⟨helement, hfront⟩ := List.forall_mem_cons.mp h
    rw [List.cons_append, listElements, elementLine_of_isSound helement, ih hfront, listingOf,
      listingOf, List.filterMap_cons]
    cases listedRecord? machine.workingPath options.targetDirectory element with
    | none => rfl
    | some record =>
      simp only [Option.map_some, Option.getD_some, List.flatMap_cons, List.append_assoc]

theorem listElements_of_hasFault {abort : Abort} {front : List Json}
    (hfront : ∀ element ∈ front, IsSound machine.workingPath options.targetDirectory element)
    (h : HasFault machine.workingPath options.targetDirectory element abort) (rest : List Json) :
    listElements (Filter.ofOptions machine.workingPath options) (front ++ element :: rest) =
      (listingOf machine.workingPath options.targetDirectory front, some abort) := by
  rw [listElements_append hfront, listElements, elementLine_of_hasFault h, List.append_nil]

theorem listElements_of_forall_isSound {elements : List Json}
    (h : ∀ element ∈ elements, IsSound machine.workingPath options.targetDirectory element) :
    listElements (Filter.ofOptions machine.workingPath options) elements =
      (listingOf machine.workingPath options.targetDirectory elements, none) := by
  have hlist := listElements_append h []
  rwa [List.append_nil, listElements, List.append_nil] at hlist

end

theorem forall_isSound_or_exists_first (place target : Text) (elements : List Json) :
    (∀ element ∈ elements, IsSound place target element) ∨
      ∃ front element rest abort, elements = front ++ element :: rest ∧
        (∀ element ∈ front, IsSound place target element) ∧
        HasFault place target element abort := by
  induction elements with
  | nil => exact .inl (by simp)
  | cons element elements ih =>
    by_cases hsound : IsSound place target element
    · obtain hall | ⟨front, bad, rest, abort, rfl, hfront, hbad⟩ := ih
      · exact .inl (List.forall_mem_cons.mpr ⟨hsound, hall⟩)
      · exact .inr ⟨element :: front, bad, rest, abort, rfl,
          List.forall_mem_cons.mpr ⟨hsound, hfront⟩, hbad⟩
    · obtain ⟨abort, hfault⟩ : ∃ abort, HasFault place target element abort := by
        simpa [IsSound] using hsound
      exact .inr ⟨[], element, elements, abort, rfl, by simp, hfault⟩

section

variable [Console] {machine : Machine} {options : ListOptions} {location : Files.Location}
  (hfile : machine.openFile options.database = .ok location)

include hfile

theorem runList_of_listElements {items : List Json} {output : Text} {abort : Option Abort}
    (hread : readDatabase (machine.tree.contentAt location) = .ok (.array items))
    (hlist : listElements (Filter.ofOptions machine.workingPath options) items =
      (output, abort)) :
    runList machine options =
      { machine, status := if abort.isSome then 1 else 0, output, errors := [], abort } := by
  unfold runList
  simp only [hfile, hread, elements, hlist]

theorem exists_items_or_refused {text : Text}
    (hcontent : machine.tree.contentAt location = Utf8.encode text)
    (harray : Json.IsArrayDocument text) :
    (∃ items, readDatabase (machine.tree.contentAt location) = .ok (.array items)) ∨
      ∃ numeral, numeral <:+: Text.unifyNewlines text ∧ Json.IsLongInteger numeral ∧
        runList machine options = .unchanged machine 1 []
          (echo ("Error: ".toList ++ options.database ++ " is not a JSON database: ".toList ++
            (Json.Reason.longInteger (Json.digitsOf numeral).length).message)) := by
  have hdecoded : readDatabase (machine.tree.contentAt location) =
      (Json.read (Text.unifyNewlines text)).mapError (.format (Text.unifyNewlines text)) := by
    unfold readDatabase
    rw [hcontent, Utf8.decodeStrict_encode]
  obtain ⟨items, hitems⟩ | ⟨numeral, position, hinfix, hlong, herror⟩ :=
    Json.read_of_isArrayDocument harray.unifyNewlines
  · rw [hitems] at hdecoded
    exact .inl ⟨items, hdecoded⟩
  · rw [herror] at hdecoded
    exact .inr ⟨numeral, hinfix, hlong, runList_of_error hfile hdecoded⟩

theorem runList_of_forall_isSound {items : List Json}
    (hread : readDatabase (machine.tree.contentAt location) = .ok (.array items))
    (h : ∀ element ∈ items, IsSound machine.workingPath options.targetDirectory element) :
    runList machine options =
      .unchanged machine 0 (listingOf machine.workingPath options.targetDirectory items) [] :=
  runList_of_listElements hfile hread (listElements_of_forall_isSound h)

theorem runList_of_hasFault {front rest : List Json} {element : Json} {abort : Abort}
    (hread : readDatabase (machine.tree.contentAt location) =
      .ok (.array (front ++ element :: rest)))
    (hfront : ∀ element ∈ front, IsSound machine.workingPath options.targetDirectory element)
    (h : HasFault machine.workingPath options.targetDirectory element abort) :
    runList machine options =
      { machine, status := 1,
        output := listingOf machine.workingPath options.targetDirectory front, errors := [],
        abort := some abort } :=
  runList_of_listElements hfile hread (listElements_of_hasFault hfront h rest)

theorem status_runList_eq_zero_iff {items : List Json}
    (hread : readDatabase (machine.tree.contentAt location) = .ok (.array items)) :
    (runList machine options).status = 0 ↔
      ∀ element ∈ items, IsSound machine.workingPath options.targetDirectory element := by
  constructor
  · intro hstatus
    refine (forall_isSound_or_exists_first _ _ items).resolve_right ?_
    rintro ⟨front, element, rest, abort, rfl, hfront, h⟩
    rw [runList_of_hasFault hfile hread hfront h] at hstatus
    cases hstatus
  · exact fun h => congrArg Outcome.status (runList_of_forall_isSound hfile hread h)

theorem listingOf_prefix_output {shared rest : List Json}
    (hread : readDatabase (machine.tree.contentAt location) = .ok (.array (shared ++ rest)))
    (hshared : ∀ element ∈ shared, IsSound machine.workingPath options.targetDirectory element) :
    listingOf machine.workingPath options.targetDirectory shared <+:
      (runList machine options).output := by
  rw [runList_of_listElements hfile hread (listElements_append hshared rest)]
  exact List.prefix_append _ _

end

section

variable [Console]

end

def arrayOf (numeral : Text) : Text := "[\x7b\"n\":".toList ++ (numeral ++ "\x7d]".toList)

theorem isArrayDocument_arrayOf {numeral : Text} (h : Json.IsNumeral numeral) :
    Json.IsArrayDocument (arrayOf numeral) := by
  have hnumber : Json.Derives .value (numeral ++ "\x7d]".toList) "\x7d]".toList := .number h
  have hmembers : Json.Derives .members ("\"n\":".toList ++ (numeral ++ "\x7d]".toList))
      "\x7d]".toList :=
    .lastMember .noBlank (.char (by decide) (by decide) (by decide) .quote) .noBlank .noBlank
      hnumber .noBlank
  have hitems : Json.Derives .items
      ("\x7b\"n\":".toList ++ (numeral ++ "\x7d]".toList)) [']'] :=
    .lastItem .noBlank (.object hmembers) .noBlank
  exact ⟨_, [], .noBlank, .array hitems, .noBlank⟩

theorem return_not_mem_arrayOf {numeral : Text} (h : Json.IsNumeral numeral) :
    '\r' ∉ arrayOf numeral := by
  intro hc
  obtain hc | hc := List.mem_append.mp hc
  · exact absurd hc (by decide)
  obtain hc | hc := List.mem_append.mp hc
  · exact (Json.isInLine_of_isNumeral h _ hc).1 rfl
  · exact absurd hc (by decide)

theorem exists_read_arrayOf {numeral : Text} (h : Json.IsLongInteger numeral) :
    ∃ position, Json.read (arrayOf numeral) =
      .error ⟨.longInteger (Json.digitsOf numeral).length, position⟩ := by
  have hfront : Json.read (arrayOf numeral) = Json.readOn
    ⟨6, [.member [] [.char 'n'], .array []], .value⟩ (numeral ++ "\x7d]".toList) := rfl
  rw [hfront]
  exact Json.exists_readOn_of_isLongInteger h
    (Json.stops_cons (by decide : '\x7d' ∈ [',', ']', '\x7d']) [']'])

theorem isLongInteger_replicate {n : Nat} (h : Json.maxDigits < n) :
    Json.IsLongInteger (List.replicate n '1') where
  is_numeral := by
    have hdigits : Json.IsDigits (List.replicate n '1') := by
      refine ⟨?_, fun c hc => ?_⟩
      · rw [ne_eq, List.replicate_eq_nil_iff]
        omega
      · rw [List.eq_of_mem_replicate hc]
        rfl
    refine ⟨[], List.replicate n '1', [], [], by simp, .inl rfl, .inr ⟨hdigits, ?_⟩, .inl rfl,
      .inl rfl⟩
    rw [List.head?_replicate]
    split <;> simp
  is_integer c hc := by
    rw [List.eq_of_mem_replicate hc]
    exact .inr rfl
  long := by simpa [Json.digitsOf] using h

end BuildLog.CommandLine
