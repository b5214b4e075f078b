import BuildLog.Command.Line
import BuildLog.Proofs.Text.Tight

/-! How a build log writes arguments: a backslash before each space inside, one space between each
two. Taking a line apart undoes this, on either of the two ways that its characters select, as long
as no argument but the last ends in a backslash, which would hide the space behind it. -/
namespace BuildLog.Command

def escapeSpaces (argument : Text) : Text :=
  argument.flatMap fun c => if c = ' ' then ['\\', ' '] else [c]

def logLine (arguments : List Text) : Text := Text.join [' '] (arguments.map escapeSpaces)

def hideSpaces (text : Text) : Text := text.map fun c => if c = ' ' then spaceMark else c

@[simp] theorem escapeSpaces_nil : escapeSpaces [] = [] := rfl

theorem escapeSpaces_cons (c : Char) (argument : Text) :
    escapeSpaces (c :: argument) =
      (if c = ' ' then ['\\', ' '] else [c]) ++ escapeSpaces argument :=
  List.flatMap_cons

theorem escapeSpaces_eq_self {argument : Text} (h : ' ' ∉ argument) :
    escapeSpaces argument = argument := by
  induction argument with
  | nil => rfl
  | cons c argument ih =>
    rw [List.mem_cons, not_or] at h
    rw [escapeSpaces_cons, if_neg (Ne.symm h.1), ih h.2]
    rfl

theorem head?_escapeSpaces (argument : Text) : (escapeSpaces argument).head? ≠ some ' ' := by
  cases argument with
  | nil => simp
  | cons c argument =>
    rw [escapeSpaces_cons]
    by_cases hc : c = ' ' <;> simp [hc]

theorem escapeSpaces_ne_nil {argument : Text} (h : argument ≠ []) : escapeSpaces argument ≠ [] := by
  obtain ⟨c, tail, rfl⟩ := List.exists_cons_of_ne_nil h
  rw [escapeSpaces_cons]
  by_cases hc : c = ' ' <;> simp [hc]

theorem markSpaces_cons {c : Char} {text : Text} (h : c = '\\' → text.head? ≠ some ' ') :
    markSpaces (c :: text) = c :: markSpaces text := by
  rw [markSpaces]
  rintro rest rfl rfl
  exact h rfl rfl

theorem mem_markSpaces {c : Char} {line : Text} (hc : c ∈ line) (hspace : c ≠ ' ')
    (hback : c ≠ '\\') : c ∈ markSpaces line := by
  fun_induction markSpaces line with
  | case1 => cases hc
  | case2 rest ih =>
    have hrest : c ∈ rest := by simpa [hspace, hback] using hc
    exact List.mem_cons_of_mem _ (ih hrest)
  | case3 d rest _ ih =>
    rcases List.mem_cons.mp hc with rfl | hrest
    · exact List.mem_cons_self
    · exact List.mem_cons_of_mem _ (ih hrest)

theorem mem_of_mem_markSpaces {c : Char} {line : Text} (h : c ∈ markSpaces line) :
    c ∈ line ∨ c = spaceMark := by
  fun_induction markSpaces line with
  | case1 => cases h
  | case2 rest ih =>
    rcases List.mem_cons.mp h with h | h
    · exact .inr h
    · exact (ih h).imp_left fun h => List.mem_cons_of_mem _ (List.mem_cons_of_mem _ h)
  | case3 d rest _ ih =>
    rcases List.mem_cons.mp h with rfl | h
    · exact .inl List.mem_cons_self
    · exact (ih h).imp_left (List.mem_cons_of_mem d)

theorem markSpaces_escapeSpaces_append {argument rest : Text}
    (h : argument.getLast? = some '\\' → rest.head? ≠ some ' ') :
    markSpaces (escapeSpaces argument ++ rest) = hideSpaces argument ++ markSpaces rest := by
  induction argument with
  | nil => rfl
  | cons c argument ih =>
    have hargument : argument.getLast? = some '\\' → rest.head? ≠ some ' ' := by
      intro hlast
      exact h (by simp [List.getLast?_cons, hlast])
    rw [escapeSpaces_cons]
    by_cases hc : c = ' '
    · rw [if_pos hc, List.append_assoc]
      simp only [List.cons_append, List.nil_append, markSpaces, ih hargument, hideSpaces,
        List.map_cons, hc, if_true]
    · rw [if_neg hc, List.append_assoc, List.singleton_append, markSpaces_cons, ih hargument]
      · simp [hideSpaces, hc]
      · rintro rfl
        cases argument with
        | nil => exact h rfl
        | cons d argument =>
          have hhead := head?_escapeSpaces (d :: argument)
          rwa [List.head?_append_of_ne_nil _ (escapeSpaces_ne_nil (List.cons_ne_nil _ _))]

theorem markSpaces_logLine {arguments : List Text}
    (h : ∀ argument ∈ arguments.dropLast, argument.getLast? ≠ some '\\') :
    markSpaces (logLine arguments) = Text.join [' '] (arguments.map hideSpaces) := by
  unfold logLine
  induction arguments with
  | nil => rfl
  | cons first rest ih =>
    cases rest with
    | nil =>
      have hnil : first.getLast? = some '\\' → ([] : Text).head? ≠ some ' ' := by simp
      have hlast := markSpaces_escapeSpaces_append hnil
      simpa [markSpaces] using hlast
    | cons second rest =>
      rw [List.dropLast_cons_cons, List.forall_mem_cons] at h
      simp only [List.map_cons, Text.join_cons_cons, List.append_assoc, List.singleton_append]
      rw [markSpaces_escapeSpaces_append fun hlast => absurd hlast h.1,
        markSpaces_cons (by simp), ← List.map_cons, ih h.2, List.map_cons]

structure Writable (argument : Text) : Prop where
  tight : Text.Tight argument
  spaceMark_not_mem : spaceMark ∉ argument

theorem unmarkSpaces_hideSpaces {argument : Text} (h : spaceMark ∉ argument) :
    unmarkSpaces (hideSpaces argument) = argument := by
  unfold unmarkSpaces hideSpaces
  rw [List.map_map]
  refine (List.map_congr_left fun c hc => ?_).trans (List.map_id argument)
  have hmark : c ≠ spaceMark := fun heq => h (heq ▸ hc)
  by_cases hspace : c = ' ' <;> simp [hspace, hmark]

theorem space_not_mem_hideSpaces (argument : Text) : ' ' ∉ hideSpaces argument := by
  unfold hideSpaces
  rw [List.mem_map]
  rintro ⟨c, -, hc⟩
  by_cases hspace : c = ' '
  · rw [if_pos hspace] at hc
    exact absurd hc (by decide)
  · rw [if_neg hspace] at hc
    exact hspace hc

theorem escapedArguments_logLine {arguments : List Text} (hne : arguments ≠ [])
    (hw : ∀ argument ∈ arguments, Writable argument)
    (h : ∀ argument ∈ arguments.dropLast, argument.getLast? ≠ some '\\') :
    escapedArguments (logLine arguments) = arguments := by
  have hsplit : (markSpaces (logLine arguments)).splitOn ' ' = arguments.map hideSpaces := by
    rw [markSpaces_logLine h]
    refine List.splitOn_intercalate ' ' ?_ (by simpa using hne)
    intro piece hpiece
    obtain ⟨argument, -, rfl⟩ := List.mem_map.mp hpiece
    exact space_not_mem_hideSpaces argument
  have hfilter : (arguments.map hideSpaces).filter (· ≠ []) = arguments.map hideSpaces := by
    rw [List.filter_eq_self]
    intro piece hpiece
    obtain ⟨argument, hargument, rfl⟩ := List.mem_map.mp hpiece
    simpa [hideSpaces] using (hw argument hargument).tight.ne_nil
  unfold escapedArguments
  rw [hsplit, hfilter, List.map_map]
  refine (List.map_congr_left fun argument hargument => ?_).trans (List.map_id arguments)
  have hargument := hw argument hargument
  simp only [Function.comp_apply, unmarkSpaces_hideSpaces hargument.spaceMark_not_mem,
    hargument.tight.strip_eq, id]

theorem mem_escapeSpaces_iff {c : Char} {argument : Text} :
    c ∈ escapeSpaces argument ↔ c ∈ argument ∨ c = '\\' ∧ ' ' ∈ argument := by
  induction argument with
  | nil => simp
  | cons d argument ih =>
    rw [escapeSpaces_cons, List.mem_append, ih]
    by_cases hd : d = ' '
    · subst hd
      simp only [if_true, List.mem_cons, List.not_mem_nil, or_false, true_or, and_true]
      tauto
    · simp only [if_neg hd, List.mem_cons, List.not_mem_nil, or_false, Ne.symm hd, false_or]
      tauto

theorem any_isQuoting_logLine {arguments : List Text} :
    (logLine arguments).any isQuoting = true ↔
      ∃ argument ∈ arguments, ∃ c ∈ argument, c = ' ' ∨ isQuoting c = true := by
  rw [List.any_eq_true]
  constructor
  · rintro ⟨c, hc, hquoting⟩
    obtain hc | ⟨piece, hpiece, hc⟩ := Text.exists_of_mem_join hc
    · rw [List.mem_singleton.mp hc] at hquoting
      cases hquoting
    · obtain ⟨argument, hargument, rfl⟩ := List.mem_map.mp hpiece
      obtain hc | ⟨-, hspace⟩ := mem_escapeSpaces_iff.mp hc
      · exact ⟨argument, hargument, c, hc, .inr hquoting⟩
      · exact ⟨argument, hargument, ' ', hspace, .inl rfl⟩
  · have hline {c : Char} {argument : Text} (hargument : argument ∈ arguments)
        (hc : c ∈ escapeSpaces argument) : c ∈ logLine arguments :=
      Text.mem_join hc (List.mem_map_of_mem hargument)
    rintro ⟨argument, hargument, c, hc, rfl | hquoting⟩
    · exact ⟨'\\', hline hargument (mem_escapeSpaces_iff.mpr (.inr ⟨rfl, hc⟩)), rfl⟩
    · exact ⟨c, hline hargument (mem_escapeSpaces_iff.mpr (.inl hc)), hquoting⟩

theorem space_not_mem_of_logLine {arguments : List Text}
    (h : (logLine arguments).any isQuoting = false) {argument : Text}
    (hmem : argument ∈ arguments) :
    ' ' ∉ argument := by
  intro hspace
  have hquoting := any_isQuoting_logLine.mpr ⟨argument, hmem, ' ', hspace, .inl rfl⟩
  rw [h] at hquoting
  cases hquoting

theorem plainArguments_join {arguments : List Text}
    (htight : Text.Tight (Text.join [' '] arguments))
    (hspace : ∀ argument ∈ arguments, ' ' ∉ argument)
    (hstrip : ∀ argument ∈ arguments, Text.strip argument = argument) :
    plainArguments (Text.join [' '] arguments) = arguments := by
  have hne : arguments ≠ [] := by
    rintro rfl
    exact htight.ne_nil rfl
  unfold plainArguments
  simp only [htight.strip_eq]
  rw [if_neg htight.ne_nil, Text.join, List.splitOn_intercalate ' ' hspace hne]
  exact (List.map_congr_left hstrip).trans (List.map_id arguments)

theorem plainArguments_logLine {arguments : List Text} (hne : arguments ≠ [])
    (hw : ∀ argument ∈ arguments, Writable argument)
    (h : (logLine arguments).any isQuoting = false) :
    plainArguments (logLine arguments) = arguments := by
  have hspaces : ∀ argument ∈ arguments, ' ' ∉ argument := fun _ => space_not_mem_of_logLine h
  have hline : logLine arguments = Text.join [' '] arguments := by
    unfold logLine
    congr 1
    exact (List.map_congr_left fun argument hargument =>
      escapeSpaces_eq_self (hspaces argument hargument)).trans (List.map_id arguments)
  have htight := Text.Tight.join hne (fun argument hargument => (hw argument hargument).tight) [' ']
  rw [hline]
  exact plainArguments_join htight hspaces fun argument hargument =>
    (hw argument hargument).tight.strip_eq

/-- Taking a line apart gives back the arguments it was written from. -/
theorem arguments_logLine {arguments : List Text} (hw : ∀ argument ∈ arguments, Writable argument)
    (h : ∀ argument ∈ arguments.dropLast, argument.getLast? ≠ some '\\') :
    Command.arguments (logLine arguments) = arguments := by
  cases arguments with
  | nil => rfl
  | cons first rest =>
    unfold Command.arguments
    split
    · exact escapedArguments_logLine (List.cons_ne_nil _ _) hw h
    · next hplain =>
      exact plainArguments_logLine (List.cons_ne_nil _ _) hw (Bool.eq_false_iff.mpr hplain)

theorem arguments_cons_space (text : Text) :
    Command.arguments (' ' :: text) = Command.arguments text := by
  have hquoting : (' ' :: text).any isQuoting = text.any isQuoting := by
    rw [List.any_cons, show isQuoting ' ' = false by decide, Bool.false_or]
  have hescaped : escapedArguments (' ' :: text) = escapedArguments text := by
    unfold escapedArguments
    rw [markSpaces_cons (by simp), Text.splitOn_cons_self]
    simp
  have hplain : plainArguments (' ' :: text) = plainArguments text := by
    unfold plainArguments
    rw [Text.strip_cons_of_isBlank Text.isBlank_space]
  unfold Command.arguments
  rw [hquoting, hescaped, hplain]

/-- Arguments that are neither empty nor have blanks at their ends are given back by the line that
is written of them. Quotes, backslashes and spaces in them select the way in which that is done, but
change nothing of it. -/
theorem arguments_logLine_of_strip_eq {arguments : List Text}
    (hw : ∀ argument ∈ arguments,
      argument ≠ [] ∧ Text.strip argument = argument ∧ spaceMark ∉ argument)
    (hback : ∀ argument ∈ arguments.dropLast, argument.getLast? ≠ some '\\') :
    Command.arguments (logLine arguments) = arguments ∧
      ((logLine arguments).any isQuoting = true ↔
        ∃ argument ∈ arguments, ∃ c ∈ argument, c = ' ' ∨ isQuoting c = true) := by
  have hwritable : ∀ argument ∈ arguments, Writable argument := by
    intro argument hargument
    obtain ⟨hne, hstrip, hmark⟩ := hw argument hargument
    exact ⟨.of_strip_eq hne hstrip, hmark⟩
  exact ⟨arguments_logLine hwritable hback, any_isQuoting_logLine⟩

theorem arguments_logLine_of_escapes :
    let arguments := ["-DX=\"a  b\"", "it's\ta\\ b\\\\ c", "-o", "d\\"].map String.toList
    logLine arguments = "-DX=\"a\\ \\ b\" it's\ta\\\\ b\\\\\\ c -o d\\".toList ∧
      Command.arguments (logLine arguments) = arguments := by
  intro arguments
  have hw : ∀ argument ∈ arguments,
    argument ≠ [] ∧ Text.strip argument = argument ∧ spaceMark ∉ argument := by decide
  have hback : ∀ argument ∈ arguments.dropLast, argument.getLast? ≠ some '\\' := by decide
  exact ⟨by decide, (arguments_logLine_of_strip_eq hw hback).1⟩

end BuildLog.Command
