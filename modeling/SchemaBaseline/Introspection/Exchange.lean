import SchemaBaseline.Breakdown
import SchemaBaseline.Introspection.Query
import SchemaBaseline.Introspection.Status
import SchemaBaseline.Log

/-!
# Talking to a server

A `Server` is anything that answers requests, perhaps differently each time: what it answers may
depend on all requests before. An `Exchange` records the requests sent so far and what was logged
meanwhile. `Server.ofScript` answers from two lists, queries from one and requests for the version
from the other.
-/

namespace SchemaBaseline.Introspection

/-- How a request goes without an answer: the connection or the protocol fails, or something else
breaks. -/
inductive Failure
  | transport (message : String)
  | breakdown (b : Breakdown)
deriving Repr, DecidableEq

/-- What comes back for a request. -/
inductive Reply
  | answer (status : Status) (body : List UInt8)
  | failure (failure : Failure)
deriving Repr, DecidableEq

/-- Answers a request, given the requests sent before it, oldest first. -/
structure Server where
  answer : List Request → Request → Reply

/-- A reply that a script has run out of. -/
def noReply : Reply :=
  .failure (.transport "no scripted response")

/-- The reply at a position of a list, the last one being repeated for ever. -/
def lastRepeated (replies : List Reply) (n : Nat) : Reply :=
  ((replies[n]?).or replies.getLast?).getD noReply

/-- A server with prepared replies: queries take theirs one after the other, other requests
likewise from a second list whose last reply is repeated. -/
def Server.ofScript (queries others : List Reply) : Server where
  answer before request :=
    if request.isQuery then (queries[before.countP Request.isQuery]?).getD noReply
    else lastRepeated others (before.countP fun r => !r.isQuery)

/-- The requests sent so far and the log, both oldest first. -/
structure Exchange where
  sent : List Request
  log : List LogEntry
deriving Repr, DecidableEq

namespace Exchange

/-- Nothing sent yet. -/
def start : Exchange := ⟨[], []⟩

def send (x : Exchange) (server : Server) (request : Request) : Reply × Exchange :=
  (server.answer x.sent request, { x with sent := x.sent ++ [request] })

def note (x : Exchange) (level : LogLevel) (message : String) : Exchange :=
  { x with log := x.log ++ [⟨level, .introspection, message⟩] }

@[simp] theorem sent_send (x : Exchange) (server : Server) (request : Request) :
    (x.send server request).2.sent = x.sent ++ [request] := rfl

@[simp] theorem sent_note (x : Exchange) (level : LogLevel) (message : String) :
    (x.note level message).sent = x.sent := rfl

end Exchange

end SchemaBaseline.Introspection
