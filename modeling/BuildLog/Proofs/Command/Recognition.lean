import BuildLog.Command.Driver
import BuildLog.Proofs.Command.Escaping

/-! What is found in a line is a piece of it, and so a line that runs a driver has arguments. -/
namespace BuildLog

namespace Text

theorem exists_of_after? {needle text rest : Text} (h : after? needle text = some rest) :
    ∃ before, text = before ++ needle ++ rest := by
  induction text with
  | nil =>
    rw [after?, List.isPrefixOf?_eq_some_iff_append_eq] at h
    exact ⟨[], h.symm⟩
  | cons c text ih =>
    rw [after?] at h
    split at h
    · next tail htail =>
      cases h
      exact ⟨[], (List.append_eq_of_isPrefixOf?_eq_some htail).symm⟩
    · obtain ⟨before, rfl⟩ := ih h
      exact ⟨c :: before, rfl⟩

end Text

namespace Command

theorem of_mem_driverNames {name : Text} (h : name ∈ driverNames) :
    ' ' ∉ name ∧ '/' ∉ name ∧ Text.Tight name := by
  have hnames : ∀ name ∈ driverNames,
      ' ' ∉ name ∧ '/' ∉ name ∧ name ≠ [] ∧ Text.strip name = name := by decide
  obtain ⟨hspace, hslash, hne, hstrip⟩ := hnames name h
  exact ⟨hspace, hslash, .of_strip_eq hne hstrip⟩

theorem isDriver_iff {argument : Text} :
    isDriver argument = true ↔ Path.baseName argument ∈ driverNames := by
  unfold isDriver
  exact List.contains_iff_mem

theorem exists_name_of_driverTail? {text tail : Text} (h : driverTail? text = some tail) :
    ∃ name ∈ driverNames, ∃ rest, tail = ' ' :: rest ∧ text = name ++ tail := by
  obtain ⟨name, hname, hmatch⟩ := List.exists_of_findSome?_eq_some h
  split at hmatch
  · next rest hrest =>
    cases hmatch
    exact ⟨name, hname, rest, rfl, (List.append_eq_of_isPrefixOf?_eq_some hrest).symm⟩
  · cases hmatch

theorem exists_name_of_afterDriver? {text tail : Text} (h : afterDriver? text = some tail) :
    ∃ before, ∃ name ∈ driverNames, ∃ rest, tail = ' ' :: rest ∧ text = before ++ name ++ tail := by
  induction text with
  | nil => cases h
  | cons c text ih =>
    rw [afterDriver?] at h
    split at h
    · next found hfound =>
      cases h
      obtain ⟨name, hname, rest, htail, hsplit⟩ := exists_name_of_driverTail? hfound
      exact ⟨[], name, hname, rest, htail, hsplit⟩
    · obtain ⟨before, name, hname, rest, htail, rfl⟩ := ih h
      exact ⟨c :: before, name, hname, rest, htail, rfl⟩

theorem arguments_ne_nil {c : Char} {line : Text} (hc : c ∈ line) (hblank : Text.isBlank c = false)
    (hback : c ≠ '\\') : arguments line ≠ [] := by
  have hspace := Text.ne_space_of_isBlank_eq_false hblank
  unfold arguments
  split
  · obtain ⟨piece, hpiece, hmem⟩ := Text.exists_piece (mem_markSpaces hc hspace hback) hspace
    have hkept : piece ∈ ((markSpaces line).splitOn ' ').filter (· ≠ []) := by
      rw [List.mem_filter]
      exact ⟨hpiece, decide_eq_true (List.ne_nil_of_mem hmem)⟩
    exact List.ne_nil_of_mem (List.mem_map_of_mem hkept)
  · unfold plainArguments
    dsimp only
    rw [if_neg (Text.strip_ne_nil hc hblank), ne_eq, List.map_eq_nil_iff]
    exact List.splitOn_ne_nil ' ' _

theorem exists_of_runsDriver {segment : Text} (h : runsDriver segment = true) :
    ∃ before, ∃ name ∈ driverNames, ∃ between operands after,
      segment =
        before ++ name ++ between ++ " -c ".toList ++ operands ++ " -o ".toList ++ after ∧
      (between = [] ∨ between.head? = some ' ') := by
  unfold runsDriver at h
  split at h
  · cases h
  next tail htail =>
    obtain ⟨before, name, hname, rest, hrest, rfl⟩ := exists_name_of_afterDriver? htail
    split at h
    · cases h
    next operands hoperands =>
      obtain ⟨between, rfl⟩ := Text.exists_of_after? hoperands
      obtain ⟨after, hafter⟩ := Option.isSome_iff_exists.mp h
      obtain ⟨middle, rfl⟩ := Text.exists_of_after? hafter
      refine ⟨before, name, hname, between, middle, after, ?_, ?_⟩
      · simp only [List.append_assoc]
      · cases between with
        | nil => exact .inl rfl
        | cons c between => exact .inr (congrArg some (List.cons.inj hrest).1)

/-- In an invocation a driver's name comes first, then the flag of the source, then the flag of the
output, and no two of them share a space. -/
theorem exists_of_isInvocation {line : Text} (h : isInvocation line = true) :
    ∃ before, ∃ name ∈ driverNames, ∃ between operands after,
      line = before ++ name ++ between ++ " -c ".toList ++ operands ++ " -o ".toList ++ after := by
  obtain ⟨segment, hsegment, hruns⟩ := List.any_eq_true.mp h
  obtain ⟨start, rest, rfl⟩ := Text.infix_of_mem_splitOn hsegment
  obtain ⟨before, name, hname, between, operands, after, rfl, -⟩ := exists_of_runsDriver hruns
  refine ⟨start ++ before, name, hname, between, operands, after ++ rest, ?_⟩
  simp only [List.append_assoc]

theorem mem_of_isInvocation {line : Text} (h : isInvocation line = true) : '-' ∈ line := by
  obtain ⟨before, name, -, between, operands, after, rfl⟩ := exists_of_isInvocation h
  simp

theorem exists_arguments_of_isInvocation {line : Text} (h : isInvocation line = true) :
    ∃ first rest, arguments line = first :: rest :=
  List.exists_cons_of_ne_nil (arguments_ne_nil (mem_of_isInvocation h) (by decide) (by decide))

end Command
end BuildLog
