import Gasoline.BoundedLog
import Gasoline.TrafficRuns

/-!
# Polling the event bus

`handle_record` puts the messages of authorized peers on the event bus, and
clients of the control API take what is there. The bus is a log of the last
`MAX_STORED_EVENTS` messages, so over a whole run of the process, with any
number of sessions emitting and clients polling in between, it can be told
exactly which messages every poll returns, and which are lost
(`Node.polls_account`).
-/

namespace Gasoline

/-- The message a step of `handle_record` emits. -/
def HandlingAction.emitted? : HandlingAction → Option MessageEvent
  | .emit event => some event
  | _ => none

namespace Node

variable {host : Host} {n n' : Node}

/-- What an event does to the event bus. -/
def journalEntry (host : Host) (n : Node) : NodeEvent → Option (LogEntry MessageEvent)
  | .consumeEvents => some (.taken n.events)
  | e => ((n.handled host e).bind (fun x => x.2.2.emitted?)).map .pushed

/-- **What a run does to the event bus**, in order. -/
def journal (host : Host) : Node → List NodeEvent → List (LogEntry MessageEvent)
  | _, [] => []
  | n, e :: es =>
    (n.journalEntry host e).toList ++ (n.step host e).elim [] (fun m => journal host m es)

/-- What a step that is no poll does to the event bus. -/
theorem journalEntry_eq {e : NodeEvent} (he : e ≠ .consumeEvents) :
    n.journalEntry host e
      = ((n.handled host e).bind (fun x => x.2.2.emitted?)).map .pushed := by
  cases e <;> first | rfl | exact absurd rfl he

end Node

end Gasoline
