import BuildLog.Invocation
import BuildLog.Text.Lines
import BuildLog.Transcript.Block

/-! The single pass over a build log. Blocks that precompile a header fill the registry, blocks
that compile become records in the order they appear, and every line is counted once. -/
namespace BuildLog.Transcript

/-- Where a scanner stands. When idle it remembers the block it was in last. -/
inductive Phase
  | idle (last : Option Block)
  | awaitDirectory (kind : BlockKind)
  | awaitInvocation (block : Block)
deriving DecidableEq, Repr

def Phase.block? : Phase → Option Block
  | .idle last => last
  | .awaitDirectory kind => some ⟨kind, []⟩
  | .awaitInvocation block => some block

structure Tally where
  records : Nat
  headers : Nat
  /-- Lines that belong to no block. -/
  skipped : Nat
  /-- Blocks that another block followed before their invocation. -/
  abandoned : Nat
  /-- Whether a pass ended inside a block. -/
  truncated : Bool
deriving DecidableEq, Repr

def Tally.zero : Tally := ⟨0, 0, 0, 0, false⟩

structure Scanner where
  phase : Phase
  registry : Header.Registry
  tally : Tally

inductive Event
  | nothing
  | record (record : Record)
  | unresolved (error : UnresolvedHeader)
deriving DecidableEq, Repr

namespace Scanner

def start (registry : Header.Registry) : Scanner := ⟨.idle none, registry, .zero⟩

/-- Ends a block at its invocation. A record that cannot be made leaves the scanner as it is. -/
def complete (setting : Setting) (scanner : Scanner) (block : Block) (line : Text) :
    Scanner × Event :=
  match block.kind with
  | .precompile =>
    match scanner.registry.register? (Command.arguments line) with
    | some registry =>
      ({ phase := .idle (some block), registry,
         tally := { scanner.tally with headers := scanner.tally.headers + 1 } }, .nothing)
    | none => ({ scanner with phase := .idle (some block) }, .nothing)
  | .compile =>
    match Invocation.record setting scanner.registry block.directory line with
    | .ok record =>
      ({ scanner with
         phase := .idle (some block),
         tally := { scanner.tally with records := scanner.tally.records + 1 } }, .record record)
    | .error error => (scanner, .unresolved error)

def notice (scanner : Scanner) (line : Text) : Scanner :=
  match BlockKind.ofLine? line with
  | none => { scanner with tally := { scanner.tally with skipped := scanner.tally.skipped + 1 } }
  | some kind =>
    match scanner.phase with
    | .awaitInvocation _ =>
      { scanner with
        phase := .awaitDirectory kind,
        tally := { scanner.tally with abandoned := scanner.tally.abandoned + 1 } }
    | _ => { scanner with phase := .awaitDirectory kind }

/-- Takes the next line. The line after a block's first one is its directory, whatever it holds;
an invocation counts before a marker. -/
def feed (setting : Setting) (scanner : Scanner) (line : Text) : Scanner × Event :=
  match scanner.phase with
  | .idle _ => (scanner.notice line, .nothing)
  | .awaitDirectory kind =>
    ({ scanner with phase := .awaitInvocation ⟨kind, changedDirectory line⟩ }, .nothing)
  | .awaitInvocation block =>
    if Command.isInvocation line then scanner.complete setting block line
    else (scanner.notice line, .nothing)

def finish (scanner : Scanner) : Scanner :=
  match scanner.phase with
  | .idle _ => scanner
  | phase =>
    { scanner with phase := .idle phase.block?, tally := { scanner.tally with truncated := true } }

end Scanner

/-- Some lines' effect: the scanner after them, their records, and the error that stopped it. -/
structure Run where
  scanner : Scanner
  records : List Record
  failure : Option UnresolvedHeader

namespace Scanner

def feedAll (setting : Setting) (scanner : Scanner) : List Text → Run
  | [] => ⟨scanner, [], none⟩
  | line :: rest =>
    match scanner.feed setting line with
    | (next, .nothing) => next.feedAll setting rest
    | (next, .record record) =>
      let run := next.feedAll setting rest
      { run with records := record :: run.records }
    | (next, .unresolved error) => ⟨next, [], some error⟩

/-- A pass over lines that may still have their ends. A pass that fails does not end. -/
def scan (setting : Setting) (scanner : Scanner) (lines : List Text) : Run :=
  let run := scanner.feedAll setting (lines.map Text.trimLineEnd)
  match run.failure with
  | none => { run with scanner := run.scanner.finish }
  | some _ => run

end Scanner
end BuildLog.Transcript
