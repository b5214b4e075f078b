import BuildLog.Transcript.Scanner

/-! A scanner in use. It is fed lines one by one or in whole passes, in any order, and goes on
behind a line that has failed. Its records go to a sink, and each is reported right after that. -/
namespace BuildLog.Transcript

inductive Call
  | feed (line : Text)
  | scan (lines : List Text)
deriving DecidableEq, Repr

/-- What a call comes to. A line that is fed alone is a run that has no end. -/
def Call.run (setting : Setting) (scanner : Scanner) : Call → Run
  | .feed line => scanner.feedAll setting [line]
  | .scan lines => scanner.scan setting lines

structure Session where
  scanner : Scanner
  /-- The records so far, in the order they were appended. -/
  sink : List Record
  /-- The records whose progress was reported, in the order of the reports. -/
  reported : List Record

namespace Session

def start (registry : Header.Registry) : Session := ⟨.start registry, [], []⟩

def deliver (session : Session) (record : Record) : Session :=
  { session with sink := session.sink ++ [record], reported := session.reported ++ [record] }

def receive (session : Session) (run : Run) : Session :=
  run.records.foldl deliver { session with scanner := run.scanner }

def take (setting : Setting) (session : Session) (call : Call) : Session :=
  session.receive (call.run setting session.scanner)

def run (setting : Setting) (registry : Header.Registry) (calls : List Call) : Session :=
  calls.foldl (take setting) (start registry)

end Session
end BuildLog.Transcript
