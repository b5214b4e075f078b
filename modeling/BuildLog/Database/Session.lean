import BuildLog.Database.Writer

/-! A database that is written on request. A request for a record that lacks a field is refused. -/
namespace BuildLog.Database

inductive Request
  | append (draft : Draft)
  | close
deriving DecidableEq, Repr

structure Reply where
  writer : Writer
  written : Text
  /-- The field for want of which the request is refused. -/
  missing : Option Field
deriving DecidableEq, Repr

def Writer.answer (writer : Writer) : Request → Reply
  | .append draft =>
    match draft.complete with
    | .ok record =>
      let (next, written) := writer.append record
      ⟨next, written, none⟩
    | .error field => ⟨writer, [], some field⟩
  | .close =>
    let (next, written) := writer.close
    ⟨next, written, none⟩

structure Session where
  writer : Writer
  text : Text
deriving DecidableEq, Repr

namespace Session

def start : Session := ⟨.start, Writer.opening⟩

def take (session : Session) (request : Request) : Session :=
  let reply := session.writer.answer request
  ⟨reply.writer, session.text ++ reply.written⟩

def run (requests : List Request) : Session := requests.foldl take start

end Session
end BuildLog.Database
