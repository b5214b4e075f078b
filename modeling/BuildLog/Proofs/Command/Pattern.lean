import BuildLog.Proofs.Command.Recognition
import BuildLog.Proofs.Path

/-! Which texts are invocations, told without a search. The search takes the earliest driver's name
and the earliest flag behind it, and misses nothing by that: an earlier place leaves at least as
much text to go on with as a later one. So a line that is written of arguments is an invocation if a
driver and both flags are among them in this order. -/
namespace BuildLog

namespace Text

variable {needle text rest : Text}

theorem after?_of_isPrefixOf? (h : needle.isPrefixOf? text = some rest) :
    after? needle text = some rest := by
  cases text with
  | nil => exact h
  | cons c text => rw [after?, h]

theorem exists_after? (needle before rest : Text) :
    ∃ tail, after? needle (before ++ needle ++ rest) = some tail ∧ rest <:+ tail := by
  induction before with
  | nil =>
    refine ⟨rest, after?_of_isPrefixOf? ?_, List.suffix_refl rest⟩
    exact List.isPrefixOf?_eq_some_iff_append_eq.mpr rfl
  | cons c before ih =>
    rw [List.cons_append, List.cons_append, after?]
    split
    next tail htail =>
      have hsplit := List.append_eq_of_isPrefixOf?_eq_some htail
      have hrest : rest <:+ needle ++ tail := by
        rw [hsplit]
        exact List.suffix_append (c :: (before ++ needle)) rest
      have hlength := congrArg List.length hsplit
      simp only [List.length_append, List.length_cons] at hlength
      exact ⟨tail, rfl, List.suffix_of_suffix_length_le hrest (List.suffix_append needle tail)
        (by omega)⟩
    next => exact ih

theorem has_iff {needle text : Text} : has needle text = true ↔ needle <:+: text := by
  constructor
  · intro h
    obtain ⟨rest, hrest⟩ := Option.isSome_iff_exists.mp h
    obtain ⟨before, rfl⟩ := exists_of_after? hrest
    exact ⟨before, rest, rfl⟩
  · rintro ⟨before, rest, rfl⟩
    obtain ⟨tail, htail, -⟩ := exists_after? needle before rest
    rw [has, htail, Option.isSome_some]

theorem suffix_of_not_mem {separator : Char} {first before tail rest : Text}
    (hfirst : separator ∉ first) (h : first ++ separator :: tail = before ++ separator :: rest) :
    separator :: rest <:+ separator :: tail := by
  obtain ⟨middle, -, htail⟩ | ⟨middle, rfl, hrest⟩ := List.append_eq_append_iff.mp h
  · rw [htail]
    exact List.suffix_append _ _
  · cases middle with
    | nil => rw [hrest, List.nil_append]
    | cons c middle =>
      cases hrest
      exact absurd (List.mem_append_right before List.mem_cons_self) hfirst

end Text

namespace Command

variable {name : Text}

theorem exists_driverTail? (hname : name ∈ driverNames) (rest : Text) :
    ∃ tail, driverTail? (name ++ ' ' :: rest) = some tail := by
  refine Option.isSome_iff_exists.mp (List.findSome?_isSome_iff.mpr ⟨name, hname, ?_⟩)
  rw [List.isPrefixOf?_eq_some_iff_append_eq.mpr rfl]
  rfl

theorem suffix_of_driverTail? (before : Text) {tail rest : Text}
    (h : driverTail? (before ++ ' ' :: rest) = some tail) : ' ' :: rest <:+ tail := by
  obtain ⟨first, hfirst, later, rfl, hsplit⟩ := exists_name_of_driverTail? h
  exact Text.suffix_of_not_mem (of_mem_driverNames hfirst).1 hsplit.symm

theorem exists_afterDriver? (hname : name ∈ driverNames) (before rest : Text) :
    ∃ tail, afterDriver? (before ++ (name ++ ' ' :: rest)) = some tail ∧
      ' ' :: rest <:+ tail := by
  induction before with
  | nil =>
    obtain ⟨tail, htail⟩ := exists_driverTail? hname rest
    refine ⟨tail, ?_, suffix_of_driverTail? name htail⟩
    obtain ⟨c, others, rfl⟩ := List.exists_cons_of_ne_nil (of_mem_driverNames hname).2.2.ne_nil
    rw [List.nil_append, List.cons_append] at *
    rw [afterDriver?, htail]
  | cons c before ih =>
    rw [List.cons_append, afterDriver?]
    split
    next tail htail =>
      refine ⟨tail, rfl, suffix_of_driverTail? (c :: (before ++ name)) ?_⟩
      rw [← htail, List.cons_append, List.append_assoc]
    next => exact ih

theorem exists_concat_space {between : Text} (h : between = [] ∨ between.getLast? = some ' ') :
    ∃ front, ' ' :: between = front ++ [' '] := by
  obtain rfl | hlast := h
  · exact ⟨[], rfl⟩
  · obtain ⟨front, rfl⟩ := List.getLast?_eq_some_iff.mp hlast
    exact ⟨' ' :: front, rfl⟩

/-- How the driver's name and the two flags stand in an invocation. The space behind the name may be
the one before the first flag, but the one behind that is not the one before the second. -/
theorem runsDriver_iff {segment : Text} :
    runsDriver segment = true ↔ ∃ before, ∃ name ∈ driverNames, ∃ between operands after,
      segment = before ++ (name ++ ' ' ::
        (between ++ "-c ".toList ++ operands ++ " -o ".toList ++ after)) ∧
      (between = [] ∨ between.getLast? = some ' ') := by
  have hflag : " -c ".toList = ' ' :: "-c ".toList := rfl
  constructor
  · intro h
    obtain ⟨before, name, hname, between, operands, after, rfl, hbetween⟩ := exists_of_runsDriver h
    cases between with
    | nil => exact ⟨before, name, hname, [], operands, after, by simp [hflag], .inl rfl⟩
    | cons c between =>
      obtain rfl : c = ' ' := by simpa using hbetween
      exact ⟨before, name, hname, between ++ [' '], operands, after, by simp [hflag],
        .inr (by simp)⟩
  · rintro ⟨before, name, hname, between, operands, after, rfl, hbetween⟩
    obtain ⟨tail, htail, skipped, rfl⟩ := exists_afterDriver? hname before
      (between ++ "-c ".toList ++ operands ++ " -o ".toList ++ after)
    obtain ⟨front, hfront⟩ := exists_concat_space hbetween
    have hsplit : skipped ++
        ' ' :: (between ++ "-c ".toList ++ operands ++ " -o ".toList ++ after) =
        (skipped ++ front) ++ " -c ".toList ++ (operands ++ " -o ".toList ++ after) := by
      rw [hflag]
      calc skipped ++ ' ' :: (between ++ "-c ".toList ++ operands ++ " -o ".toList ++ after)
          = skipped ++ (' ' :: between) ++ "-c ".toList ++ operands ++ " -o ".toList ++ after := by
            simp only [List.append_assoc, List.cons_append]
        _ = _ := by
            rw [hfront]
            simp only [List.append_assoc, List.cons_append, List.nil_append]
    obtain ⟨later, hlater, hrest⟩ := Text.exists_after? " -c ".toList (skipped ++ front)
      (operands ++ " -o ".toList ++ after)
    have houtput : " -o ".toList <:+: operands ++ " -o ".toList ++ after := ⟨operands, after, rfl⟩
    unfold runsDriver
    rw [htail]
    dsimp only
    rw [hsplit, hlater]
    exact Text.has_iff.mpr (houtput.trans hrest.isInfix)

theorem newline_not_mem {name : Text} (h : name ∈ driverNames) : '\n' ∉ name := by
  have hnames : ∀ name ∈ driverNames, '\n' ∉ name := by decide
  exact hnames name h

/-- An invocation is a line with a driver's name that a space follows, then the flag of the source,
then the flag of the output, and with no line feed between the first and the last of them. -/
theorem isInvocation_iff {line : Text} :
    isInvocation line = true ↔ ∃ before, ∃ name ∈ driverNames, ∃ between operands after,
      line = before ++ (name ++ ' ' ::
        (between ++ "-c ".toList ++ operands ++ " -o ".toList ++ after)) ∧
      (between = [] ∨ between.getLast? = some ' ') ∧ '\n' ∉ between ∧ '\n' ∉ operands := by
  constructor
  · intro h
    obtain ⟨segment, hsegment, hruns⟩ := List.any_eq_true.mp h
    have hline := Text.not_mem_of_mem_splitOn hsegment
    obtain ⟨start, rest, rfl⟩ := Text.infix_of_mem_splitOn hsegment
    obtain ⟨before, name, hname, between, operands, after, rfl, hbetween⟩ :=
      runsDriver_iff.mp hruns
    simp only [List.mem_append, List.mem_cons, not_or] at hline
    refine ⟨start ++ before, name, hname, between, operands, after ++ rest, ?_, hbetween, ?_, ?_⟩
    · simp only [List.append_assoc, List.cons_append]
    · simp_all
    · simp_all
  · rintro ⟨before, name, hname, between, operands, after, rfl, hbetween, hfirst, hsecond⟩
    have hfree : '\n' ∉ name ++ ' ' :: (between ++ "-c ".toList ++ operands ++ " -o ".toList) := by
      simp [newline_not_mem hname, hfirst, hsecond]
    have hinfix : name ++ ' ' :: (between ++ "-c ".toList ++ operands ++ " -o ".toList) <:+:
        before ++ (name ++ ' ' ::
          (between ++ "-c ".toList ++ operands ++ " -o ".toList ++ after)) :=
      ⟨before, after, by simp only [List.append_assoc, List.cons_append]⟩
    obtain ⟨segment, hsegment, start, rest, rfl⟩ := Text.exists_piece_of_not_mem hinfix hfree
    refine List.any_eq_true.mpr ⟨_, hsegment, runsDriver_iff.mpr ?_⟩
    refine ⟨start, name, hname, between, operands, rest, ?_, hbetween⟩
    simp only [List.append_assoc, List.cons_append]

/-- Arguments with a driver at place `i`, the flag of the source at place `j` and the flag of the
output at place `k`. Each flag has an argument, and the two do not share one. -/
structure RunsAt (arguments : List Text) (i j k : Nat) : Prop where
  driver : ∃ argument, arguments[i]? = some argument ∧ isDriver argument = true
  source : arguments[j]? = some "-c".toList
  output : arguments[k]? = some "-o".toList
  driver_lt_source : i < j
  source_lt_output : j + 2 ≤ k
  output_lt_length : k + 1 < arguments.length

theorem exists_split {arguments : List Text} {argument : Text} {i : Nat}
    (h : arguments[i]? = some argument) :
    ∃ before after, arguments = before ++ argument :: after ∧ before.length = i := by
  obtain ⟨hi, rfl⟩ := List.getElem?_eq_some_iff.mp h
  refine ⟨arguments.take i, arguments.drop (i + 1), ?_, List.length_take_of_le hi.le⟩
  rw [List.getElem_cons_drop, List.take_append_drop]

theorem exists_split_behind {before after : List Text} {first argument : Text} {n : Nat}
    (h : (before ++ first :: after)[n]? = some argument) (hn : before.length < n) :
    ∃ between rest, after = between ++ argument :: rest ∧
      n = before.length + 1 + between.length := by
  obtain ⟨front, rest, hsplit, rfl⟩ := exists_split h
  obtain ⟨others, rfl, hbehind⟩ | ⟨others, rfl, -⟩ := List.append_eq_append_iff.mp hsplit
  · cases others with
    | nil => simp at hn
    | cons _ between =>
      obtain ⟨-, rfl⟩ := List.cons.inj hbehind
      exact ⟨between, rest, rfl, by rw [List.length_append, List.length_cons]; omega⟩
  · rw [List.length_append] at hn
    omega

theorem RunsAt.exists_parts {arguments : List Text} {i j k : Nat} (h : RunsAt arguments i j k) :
    ∃ front driver between operands rest,
      arguments = front ++ driver :: (between ++ "-c".toList :: (operands ++ "-o".toList :: rest)) ∧
      isDriver driver = true ∧ operands ≠ [] ∧ rest ≠ [] := by
  obtain ⟨⟨driver, hi, hdriver⟩, hj, hk, hij, hjk, hlength⟩ := h
  obtain ⟨front, behind, rfl, rfl⟩ := exists_split hi
  obtain ⟨between, behind, rfl, rfl⟩ := exists_split_behind hj hij
  rw [← List.cons_append, ← List.append_assoc] at hk
  obtain ⟨operands, rest, rfl, rfl⟩ := exists_split_behind hk (by simp; omega)
  refine ⟨front, driver, between, operands, rest, rfl, hdriver, ?_, ?_⟩
  · rintro rfl
    simp at hjk
    omega
  · rintro rfl
    simp at hlength
    omega

theorem logLine_append {first second : List Text} (hfirst : first ≠ []) (hsecond : second ≠ []) :
    logLine (first ++ second) = logLine first ++ ' ' :: logLine second := by
  unfold logLine
  rw [List.map_append, Text.join_append (by simpa using hfirst) (by simpa using hsecond),
    List.append_assoc, List.singleton_append]

theorem logLine_cons (argument : Text) {rest : List Text} (h : rest ≠ []) :
    logLine (argument :: rest) = escapeSpaces argument ++ ' ' :: logLine rest := by
  have hargument : logLine [argument] = escapeSpaces argument := Text.join_singleton _ _
  rw [← List.singleton_append, logLine_append (List.cons_ne_nil _ _) h, hargument]

theorem newline_not_mem_logLine {arguments : List Text}
    (h : ∀ argument ∈ arguments, '\n' ∉ argument) :
    '\n' ∉ logLine arguments := by
  intro hline
  obtain hline | ⟨piece, hpiece, hline⟩ := Text.exists_of_mem_join hline
  · simp at hline
  · obtain ⟨argument, hargument, rfl⟩ := List.mem_map.mp hpiece
    obtain hline | ⟨hback, -⟩ := mem_escapeSpaces_iff.mp hline
    · exact h argument hargument hline
    · simp at hback

theorem exists_logLine_append (front : List Text) {back : List Text} (h : back ≠ []) :
    ∃ before, logLine (front ++ back) = before ++ logLine back ∧
      (before = [] ∨ before.getLast? = some ' ') ∧
      ((∀ argument ∈ front, '\n' ∉ argument) → '\n' ∉ before) := by
  by_cases hfront : front = []
  · exact ⟨[], by rw [hfront]; rfl, .inl rfl, by simp⟩
  · refine ⟨logLine front ++ [' '], ?_, .inr (by simp), ?_⟩
    · rw [logLine_append hfront h, List.append_assoc, List.singleton_append]
    · intro hfree
      simp [newline_not_mem_logLine hfree]

theorem escapeSpaces_append (first second : Text) :
    escapeSpaces (first ++ second) = escapeSpaces first ++ escapeSpaces second :=
  List.flatMap_append

theorem isInvocation_logLine {arguments : List Text} {i j k : Nat} (h : RunsAt arguments i j k)
    (hfree : ∀ argument ∈ arguments, '\n' ∉ argument) :
    isInvocation (logLine arguments) = true := by
  obtain ⟨front, driver, between, operands, rest, rfl, hdriver, hoperands, hrest⟩ := h.exists_parts
  obtain ⟨directory, hdirectory, -⟩ := Path.exists_front_of_baseName driver
  have hname := isDriver_iff.mp hdriver
  have hescape : escapeSpaces driver = escapeSpaces directory ++ Path.baseName driver := by
    conv_lhs => rw [hdirectory, escapeSpaces_append]
    rw [escapeSpaces_eq_self (of_mem_driverNames hname).1]
  obtain ⟨start, hstart, -, -⟩ := exists_logLine_append front (List.cons_ne_nil driver
    (between ++ "-c".toList :: (operands ++ "-o".toList :: rest)))
  obtain ⟨flags, hflags, hspace, hflagsFree⟩ := exists_logLine_append between
    (List.cons_ne_nil "-c".toList (operands ++ "-o".toList :: rest))
  have hsource : escapeSpaces "-c".toList = "-c".toList := rfl
  refine isInvocation_iff.mpr ⟨start ++ escapeSpaces directory, Path.baseName driver, hname, flags,
    logLine operands, logLine rest, ?_, hspace, hflagsFree ?_, newline_not_mem_logLine ?_⟩
  · rw [hstart, logLine_cons _ (by simp), hflags, logLine_cons _ (by simp), hescape, hsource,
      logLine_append hoperands (by simp), logLine_cons _ hrest]
    have hflag : "-c ".toList = "-c".toList ++ [' '] := rfl
    have houtput : " -o ".toList = ' ' :: ("-o".toList ++ [' ']) := rfl
    rw [hflag, houtput]
    simp only [List.append_assoc, List.cons_append, List.nil_append]
    rfl
  · intro argument hargument
    exact hfree argument (by simp [hargument])
  · intro argument hargument
    exact hfree argument (by simp [hargument])

end Command
end BuildLog
