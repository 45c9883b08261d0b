import SchemaBaseline.Gate.Step
import SchemaBaseline.Introspection.Acquire

/-!
# A visit to a gate

`Site.visit` is one call at a gate from its beginning to its end, the server being asked in its
course if the run gets that far. What is logged while the server is asked stands between what is
logged before and after.
-/

namespace SchemaBaseline.Gate

open Files (Path)
open Introspection (AcquireError Client Exchange Server)
open Time (Stamp)

/-- What asking for a schema came to. -/
def Acquired.of : Except AcquireError Snapshot → Acquired
  | .ok s => .ok s
  | .error (.refused refusal) => .error (.refused refusal.message)
  | .error (.broke b) => .error (.broke b)

namespace Site

/-- The call up to where the server is asked. -/
def arrive (s : Site) (now : Stamp) (kind : CallKind) (path : Path) : Site :=
  s.run now [.call kind path, .begin s.gate.callers.length, .startRun]

/-- One call from its beginning to its end, and what was sent to the server. -/
def visit (s : Site) (now : Stamp) (client : Client) (server : Server) (kind : CallKind)
    (path : Path) (x : Exchange) :
    Site × Exchange :=
  let caller := s.gate.callers.length
  let s := s.arrive now kind path
  match s.gate.run with
  | .acquiring _ _ =>
    let (answer, asked) := client.acquire now server { x with log := [] }
    ((s.note asked.log).run now [.acquired (.of answer), .wake caller],
      { x with sent := asked.sent })
  | _ => (s.run now [.wake caller], x)

end Site

end SchemaBaseline.Gate
