import Quoteboard.Text.Quoted
import Quoteboard.Viewer.Consumer

/-!
# The log sink

A sink that draws nothing, and writes one line to the log for each panel of an update and for each
change of the connection.
-/

namespace Quoteboard.Viewer

open Quoteboard.Chart Quoteboard.Connection Quoteboard.Text

/-- What the sink remembers. -/
structure LogSink where
  /-- How many updates it was given. -/
  renders : Nat
  lastVersion : Option Nat
  /-- The state of the last status that was not passed over. -/
  lastState : Option State
  deriving DecidableEq, Repr

namespace LogSink

/-- A sink that was given nothing yet. -/
def new : LogSink := ⟨0, none, none⟩

/-- The line of one panel. -/
def panelEntry (version : Nat) (panel : Panel) : LogEntry :=
  let s := panel.summary
  ⟨.info, "Chart updated",
    [("version", .count version), ("instrument", .text s.label), ("samples", .count s.samples),
      ("best_bid", .optionalReal s.bestBid), ("best_ask", .optionalReal s.bestAsk),
      ("y_min", .optionalReal s.yMin), ("y_max", .optionalReal s.yMax),
      ("positions", .count s.positions), ("net_position", .real s.netPosition),
      ("total_pnl", .real s.totalProfit)]⟩

/-- Write an update. -/
def render (sink : LogSink) (update : Update) : LogSink × List LogEntry :=
  ({ sink with renders := sink.renders + 1, lastVersion := some update.version },
   update.panels.map (panelEntry update.version))

/-- The fields that tell of a failure. -/
def failureFields (s : Status) : List (String × FieldValue) :=
  [("attempts", .count s.attempts), ("max_attempts", .count s.maxAttempts),
    ("error", .text (quotedOption s.lastError))]

/-- The line of one status. -/
def statusEntry (s : Status) : LogEntry :=
  if s.state = .disconnected ∧ s.exhausted then
    ⟨.warn, "Connection lost; type `retry` to reconnect", failureFields s⟩
  else if s.state = .error then ⟨.warn, "Connection error", failureFields s⟩
  else
    ⟨.info, "Connection status", [("state", .text s.state.name), ("attempts", .count s.attempts)]⟩

/-- Whether a status is passed over: its state is the last one, and it tells of no error. -/
def passesOver (sink : LogSink) (s : Status) : Bool :=
  sink.lastState = some s.state && s.lastError.isNone

/-- Write a status, unless it is passed over. -/
def status (sink : LogSink) (s : Status) : LogSink × List LogEntry :=
  if sink.passesOver s then (sink, [])
  else ({ sink with lastState := some s.state }, [statusEntry s])

/-- Take what a viewer gives out; gives what is written to the log meanwhile. -/
def hear (sink : LogSink) : Output → LogSink × List LogEntry
  | .log entry => (sink, [entry])
  | .render update => sink.render update
  | .status s => sink.status s
  | .record _ => (sink, [])

/-- Take all that a viewer gives out. -/
def hearAll (sink : LogSink) : List Output → LogSink × List LogEntry
  | [] => (sink, [])
  | output :: rest =>
    let (sink, entries) := sink.hear output
    let (sink, more) := sink.hearAll rest
    (sink, entries ++ more)

/-- Whatever becomes of a status, its state is the last one afterwards. -/
theorem lastState_status (sink : LogSink) (s : Status) :
    (sink.status s).1.lastState = some s.state := by
  unfold status
  split
  · next h =>
    simp only [passesOver, Bool.and_eq_true, decide_eq_true_eq] at h
    exact h.1
  · rfl

end LogSink

end Quoteboard.Viewer
