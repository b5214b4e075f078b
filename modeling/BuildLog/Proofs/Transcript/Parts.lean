import BuildLog.Proofs.Transcript.Feeding
import Mathlib.Algebra.Ring.Nat
import Mathlib.Data.List.Infix

/-! A build log read block by block, without a scanner. The lines are cut into parts by what they
are; what the parts come to is told afterwards, each compilation against the registry that the
precompiling blocks before it have filled. The main statement is that a pass comes to the same. -/
namespace BuildLog.Transcript

inductive Part
  | stray (line : Text)
  /-- A block that reaches its invocation, past some other lines. -/
  | complete (block : Block) (passed : List Text) (invocation : Text)
  /-- A block that another one starts in. -/
  | abandoned (block : Block) (passed : List Text)
  /-- A block that the log ends in. -/
  | truncated (block : Block) (passed : List Text)
deriving DecidableEq, Repr

/-- Cuts a log into its parts. The line after a block's first one is its directory, whatever it
holds; the first later line that is an invocation or starts a block ends the wait. -/
def parts : List Text → List Part
  | [] => []
  | line :: rest =>
    match BlockKind.ofLine? line with
    | none => .stray line :: parts rest
    | some kind =>
      match rest with
      | [] => [.truncated ⟨kind, []⟩ []]
      | directory :: rest =>
        let block : Block := ⟨kind, changedDirectory directory⟩
        let passed := rest.takeWhile goesPast
        match _h : rest.dropWhile goesPast with
        | [] => [.truncated block passed]
        | stop :: later =>
          if Command.isInvocation stop then .complete block passed stop :: parts later
          else .abandoned block passed :: parts (stop :: later)
termination_by lines => lines.length
decreasing_by
  all_goals simp_wf
  all_goals
    have hle := (List.dropWhile_sublist goesPast (l := rest)).length_le
    simp only [_h, List.length_cons] at hle
    omega

namespace Part

def precompiled? : Part → Option Text
  | .complete ⟨.precompile, _⟩ _ invocation => some invocation
  | _ => none

def fill (registry : Header.Registry) (parts : List Part) : Header.Registry :=
  (parts.filterMap precompiled?).foldl
    (fun registry line => (registry.register? (Command.arguments line)).getD registry) registry

def result? (setting : Setting) (registry : Header.Registry) :
    Part → Option (Except UnresolvedHeader Record)
  | .complete ⟨.compile, directory⟩ _ invocation =>
    some (Invocation.record setting registry directory invocation)
  | _ => none

/-- What each part comes to, with the registry that the parts before it have filled. -/
def results (setting : Setting) (registry : Header.Registry) (parts : List Part) :
    List (Option (Except UnresolvedHeader Record)) :=
  List.zipWith (fun earlier part => part.result? setting (fill registry earlier)) parts.inits parts

def record? : Option (Except UnresolvedHeader Record) → Option Record
  | some (.ok record) => some record
  | _ => none

def error? : Option (Except UnresolvedHeader Record) → Option UnresolvedHeader
  | some (.error error) => some error
  | _ => none

def skipped : Part → Nat
  | .stray _ => 1
  | .complete _ passed _ | .abandoned _ passed | .truncated _ passed => passed.length

def registers (part : Part) : Bool :=
  part.precompiled?.any fun line => (Header.Build.ofArguments? (Command.arguments line)).isSome

def isAbandoned : Part → Bool
  | .abandoned _ _ => true
  | _ => false

def isTruncated : Part → Bool
  | .truncated _ _ => true
  | _ => false

end Part

structure Account where
  records : List Record
  failure : Option UnresolvedHeader
  registry : Header.Registry
  tally : Tally

def Run.account (run : Run) : Account :=
  ⟨run.records, run.failure, run.scanner.registry, run.scanner.tally⟩

/-- What the parts of a log come to, up to the first one that fails. Of that one only the lines
it goes past count. -/
def Account.ofParts (setting : Setting) (registry : Header.Registry) (parts : List Part) :
    Account :=
  let results := Part.results setting registry parts
  let count := (results.takeWhile fun result => (Part.error? result).isNone).length
  let handled := parts.take count
  let records := (results.take count).filterMap Part.record?
  { records
    failure := results.findSome? Part.error?
    registry := Part.fill registry handled
    tally :=
      { records := records.length
        headers := handled.countP Part.registers
        skipped := ((parts.take (count + 1)).map Part.skipped).sum
        abandoned := handled.countP Part.isAbandoned
        truncated := handled.any Part.isTruncated } }

/-! Laws of parts and of what they come to, one part at a time. -/

namespace Part

variable (setting : Setting) (registry : Header.Registry) (part : Part) (rest : List Part)

def extend : Header.Registry := fill registry [part]

theorem fill_cons : fill registry (part :: rest) = fill (part.extend registry) rest := by
  unfold extend fill
  cases h : part.precompiled? <;> simp [h]

@[simp] theorem extend_stray (line : Text) : (Part.stray line).extend registry = registry := rfl

@[simp] theorem extend_compile (directory : Text) (passed : List Text) (invocation : Text) :
    (Part.complete ⟨.compile, directory⟩ passed invocation).extend registry = registry := rfl

@[simp] theorem extend_precompile (directory : Text) (passed : List Text) (invocation : Text) :
    (Part.complete ⟨.precompile, directory⟩ passed invocation).extend registry =
      (registry.register? (Command.arguments invocation)).getD registry := rfl

@[simp] theorem extend_abandoned (block : Block) (passed : List Text) :
    (Part.abandoned block passed).extend registry = registry := rfl

@[simp] theorem extend_truncated (block : Block) (passed : List Text) :
    (Part.truncated block passed).extend registry = registry := rfl

theorem results_cons :
    results setting registry (part :: rest) =
      part.result? setting registry :: results setting (part.extend registry) rest := by
  unfold results
  rw [List.inits, List.zipWith_cons_cons, List.zipWith_map_left]
  simp only [fill_cons]
  rfl

def tally : Tally where
  records := (record? (part.result? setting registry)).toList.length
  headers := [part].countP registers
  skipped := part.skipped
  abandoned := [part].countP isAbandoned
  truncated := part.isTruncated

@[simp] theorem tally_stray (line : Text) :
    (stray line).tally setting registry = ⟨0, 0, 1, 0, false⟩ := rfl

@[simp] theorem tally_abandoned (block : Block) (passed : List Text) :
    (abandoned block passed).tally setting registry = ⟨0, 0, passed.length, 1, false⟩ := rfl

@[simp] theorem tally_truncated (block : Block) (passed : List Text) :
    (truncated block passed).tally setting registry = ⟨0, 0, passed.length, 0, true⟩ := rfl

theorem tally_compile {directory invocation : Text} {record : Record}
    (h : Invocation.record setting registry directory invocation = .ok record)
    (passed : List Text) :
    (complete ⟨.compile, directory⟩ passed invocation).tally setting registry =
      ⟨1, 0, passed.length, 0, false⟩ := by
  simp [tally, result?, record?, h, registers, precompiled?, skipped, isAbandoned, isTruncated]

theorem tally_precompile (directory : Text) (passed : List Text) (invocation : Text) :
    (complete ⟨.precompile, directory⟩ passed invocation).tally setting registry =
      ⟨0, if (registry.register? (Command.arguments invocation)).isSome then 1 else 0,
        passed.length, 0, false⟩ := by
  cases h : Header.Build.ofArguments? (Command.arguments invocation) <;>
    simp [tally, result?, record?, registers, precompiled?, skipped, isAbandoned, isTruncated,
      Header.Registry.register?, h]

end Part

def Tally.plus (s t : Tally) : Tally where
  records := s.records + t.records
  headers := s.headers + t.headers
  skipped := s.skipped + t.skipped
  abandoned := s.abandoned + t.abandoned
  truncated := s.truncated || t.truncated

theorem Tally.plus_assoc (s t u : Tally) : (s.plus t).plus u = s.plus (t.plus u) := by
  simp [Tally.plus, Nat.add_assoc, Bool.or_assoc]

@[simp] theorem Tally.zero_plus (t : Tally) : Tally.zero.plus t = t := by
  simp [Tally.plus, Tally.zero]

@[simp] theorem Tally.plus_zero (t : Tally) : t.plus Tally.zero = t := by
  simp [Tally.plus, Tally.zero]

namespace Account

def behind (account : Account) (records : List Record) (tally : Tally) : Account :=
  { account with records := records ++ account.records, tally := tally.plus account.tally }

theorem behind_behind (account : Account) (records more : List Record) (s t : Tally) :
    (account.behind records s).behind more t =
      account.behind (more ++ records) (t.plus s) := by
  simp [behind, Tally.plus_assoc]

@[simp] theorem behind_nil_zero (account : Account) : account.behind [] Tally.zero = account := by
  simp [behind]

variable (setting : Setting) (registry : Header.Registry) (part : Part) (rest : List Part)

@[simp] theorem ofParts_nil :
    ofParts setting registry [] = ⟨[], none, registry, .zero⟩ := rfl

theorem ofParts_cons_of_error {error : UnresolvedHeader}
    (h : Part.error? (part.result? setting registry) = some error) :
    ofParts setting registry (part :: rest) =
      ⟨[], some error, registry, Tally.zero.skip part.skipped⟩ := by
  unfold ofParts
  simp [Part.results_cons, h, Part.fill, Tally.skip, Tally.zero]

theorem ofParts_cons (h : Part.error? (part.result? setting registry) = none) :
    ofParts setting registry (part :: rest) =
      (ofParts setting (part.extend registry) rest).behind
        (Part.record? (part.result? setting registry)).toList (part.tally setting registry) := by
  have hrecords (results : List (Option (Except UnresolvedHeader Record))) :
      (part.result? setting registry :: results).filterMap Part.record? =
        (Part.record? (part.result? setting registry)).toList ++
          results.filterMap Part.record? := by
    cases hr : Part.record? (part.result? setting registry) <;> simp [hr]
  unfold ofParts behind
  simp only [Part.results_cons, List.takeWhile_cons, h, Option.isNone_none, if_true,
    List.length_cons, List.take_succ_cons, List.findSome?_cons, hrecords, Part.fill_cons]
  simp only [Part.tally, Tally.plus, List.map_cons, List.sum_cons, List.any_cons,
    List.length_append, List.countP_cons, List.countP_nil, Nat.zero_add, Nat.add_comm]

end Account

/-! The simulation: a scanner that is idle before the first line of some parts. -/

def Run.ended (run : Run) : Run :=
  match run.failure with
  | none => { run with scanner := run.scanner.finish }
  | some _ => run

theorem Scanner.scan_eq_ended (setting : Setting) (scanner : Scanner) (lines : List Text) :
    scanner.scan setting lines = (scanner.feedAll setting (lines.map Text.trimLineEnd)).ended :=
  rfl

theorem Run.account_ended_cons (run : Run) (record : Record) :
    ({ run with records := record :: run.records } : Run).ended.account =
      run.ended.account.behind [record] .zero := by
  cases h : run.failure <;> simp [Run.ended, Run.account, Account.behind, h]

section
variable {setting : Setting} {parts : List Part} {rest : List Text}

theorem account_of_invocation
    (ih : ∀ last registry tally,
      ((⟨.idle last, registry, tally⟩ : Scanner).feedAll setting rest).ended.account =
        (Account.ofParts setting registry parts).behind [] tally)
    {invocation : Text} (hi : Command.isInvocation invocation = true) (block : Block)
    (passed : List Text) (registry : Header.Registry) (tally : Tally) :
    ((⟨.awaitInvocation block, registry, tally.skip passed.length⟩ : Scanner).feedAll
        setting (invocation :: rest)).ended.account =
      (Account.ofParts setting registry (.complete block passed invocation :: parts)).behind
        [] tally := by
  obtain ⟨kind, directory⟩ := block
  cases kind with
  | precompile =>
    rw [Account.ofParts_cons _ _ _ _ rfl, Account.behind_behind, Part.tally_precompile]
    cases hr : registry.register? (Command.arguments invocation) with
    | none =>
      rw [Scanner.feedAll_cons_nothing setting
        (Scanner.feed_precompile_of_none setting registry _ hi hr directory), ih]
      simp [hr, Part.result?, Part.record?, Tally.skip, Tally.plus]
    | some next =>
      rw [Scanner.feedAll_cons_nothing setting
        (Scanner.feed_precompile_of_some setting registry _ hi hr directory), ih]
      simp [hr, Part.result?, Part.record?, Tally.skip, Tally.plus]
  | compile =>
    cases hr : Invocation.record setting registry directory invocation with
    | ok record =>
      have hresult : (Part.complete ⟨.compile, directory⟩ passed invocation).result? setting
          registry = some (.ok record) := congrArg some hr
      rw [Scanner.feedAll_cons_record setting
        (Scanner.feed_compile_of_ok setting registry _ hi hr), Run.account_ended_cons, ih,
        Account.ofParts_cons _ _ _ _ (by rw [hresult]; rfl), Account.behind_behind,
        Account.behind_behind, Part.tally_compile setting registry hr, hresult]
      simp [Part.record?, Tally.skip, Tally.plus, Tally.zero]
    | error error =>
      have hresult : (Part.complete ⟨.compile, directory⟩ passed invocation).result? setting
          registry = some (.error error) := congrArg some hr
      rw [Scanner.feedAll_cons_unresolved setting
        (Scanner.feed_compile_of_error setting registry _ hi hr),
        Account.ofParts_cons_of_error _ _ _ _ (by rw [hresult]; rfl)]
      simp [Run.ended, Run.account, Account.behind, Tally.skip, Tally.plus, Tally.zero,
        Part.skipped]

end

/-- A scanner that is idle adds to its counts what the parts of the lines come to. The parts are
cut where the scanner is idle again, so the induction is on them and not on the lines. -/
theorem account_feedAll_ended (setting : Setting) (lines : List Text) (last : Option Block)
    (registry : Header.Registry) (tally : Tally) :
    ((⟨.idle last, registry, tally⟩ : Scanner).feedAll setting lines).ended.account =
      (Account.ofParts setting registry (parts lines)).behind [] tally := by
  fun_induction parts lines generalizing last registry tally with
  | case1 => simp [Run.ended, Run.account, Scanner.finish, Account.behind]
  | case2 line rest hk ih =>
    rw [Scanner.feedAll_cons_nothing setting
      (Scanner.feed_idle_of_none setting registry tally hk last), ih,
      Account.ofParts_cons _ _ _ _ rfl, Account.behind_behind]
    simp [Part.result?, Part.record?, Tally.skip, Tally.plus]
  | case3 line kind hk =>
    rw [Scanner.feedAll_cons_nothing setting
      (Scanner.feed_idle_of_some setting registry tally hk last),
      Account.ofParts_cons _ _ _ _ rfl, Account.behind_behind]
    simp [Run.ended, Run.account, Scanner.finish, Account.behind, Part.result?, Part.record?,
      Tally.plus, Tally.zero]
  | case4 line kind hk directory rest block passed h =>
    rw [Scanner.feedAll_block setting registry tally hk, h, Account.ofParts_cons _ _ _ _ rfl,
      Account.behind_behind]
    simp [Run.ended, Run.account, Scanner.finish, Account.behind, Part.result?, Part.record?,
      Tally.plus, Tally.zero, Tally.skip, passed]
  | case5 line kind hk directory rest block passed stop later h hi ih =>
    rw [Scanner.feedAll_block setting registry tally hk, h]
    exact account_of_invocation ih hi block passed registry tally
  | case6 line kind hk directory rest block passed stop later h hi ih =>
    have hstop : goesPast stop = false := by
      simpa [h] using List.head?_dropWhile_not goesPast rest
    have hi : Command.isInvocation stop = false := by simpa using hi
    obtain ⟨next, hnext⟩ := exists_kind_of_not_goesPast hstop hi
    rw [Scanner.feedAll_block setting registry tally hk, h,
      Scanner.feedAll_abandoned setting registry _ hi hnext, ih,
      Account.ofParts_cons _ _ _ _ rfl, Account.behind_behind]
    simp [Part.result?, Part.record?, Tally.skip, Tally.plus, passed]

theorem Run.account_eq_ended (run : Run) :
    run.account =
      { run.ended.account with
        tally :=
          { run.ended.account.tally with truncated := run.scanner.tally.truncated } } := by
  cases hf : run.failure with
  | some error => simp [Run.ended, Run.account, hf]
  | none => cases hp : run.scanner.phase <;> simp [Run.ended, Run.account, Scanner.finish, hf, hp]

/-- A pass over the lines of a log comes to what its parts come to, and so do the lines when they
are fed one by one, but for the remark that they end inside a block. -/
theorem account_eq_ofParts (setting : Setting) (registry : Header.Registry) (lines : List Text) :
    ((Scanner.start registry).scan setting lines).account =
        .ofParts setting registry (parts (lines.map Text.trimLineEnd)) ∧
      ((Scanner.start registry).feedAll setting lines).account =
        (let account := Account.ofParts setting registry (parts lines)
         { account with tally := { account.tally with truncated := false } }) := by
  have hended (lines : List Text) :
      ((Scanner.start registry).feedAll setting lines).ended.account =
        .ofParts setting registry (parts lines) := by
    rw [Scanner.start, account_feedAll_ended, Account.behind_nil_zero]
  constructor
  · rw [Scanner.scan_eq_ended, hended]
  · rw [Run.account_eq_ended, hended, Scanner.truncated_feedAll]
    rfl

end BuildLog.Transcript
