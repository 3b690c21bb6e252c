import Quoteboard.Chart.Frame
import Quoteboard.Client.Event
import Quoteboard.Connection.Machine
import Quoteboard.Metrics.Recording
import Quoteboard.Viewer.Log

/-!
# The viewer

One consumer of the stream: it aggregates the snapshots it receives, in order, and hands a full
update to its sink after each of them. Changes of the connection are handed on as they come, and
leave what was aggregated alone.
-/

namespace Quoteboard.Viewer

open Quoteboard.Board Quoteboard.Chart Quoteboard.Client Quoteboard.Connection Quoteboard.Metrics

/-- What the viewer gives out, in order. -/
inductive Output where
  | log (entry : LogEntry)
  | render (update : Update)
  | status (status : Status)
  | record (recording : Recording)
  deriving DecidableEq, Repr

/-- The state of a viewer. -/
structure Consumer where
  aggregator : Aggregator
  labels : Labels

namespace Consumer

/-- A viewer that has received nothing. -/
def new (window : Nat) (labels : Labels) : Consumer :=
  ⟨.new window, labels⟩

/-- The update that draws what has been aggregated. -/
def update (v : Consumer) : Update :=
  Update.ofView v.aggregator.view v.labels

/-- What is given out when instruments are quoted for the first time. -/
def newInstruments (v : Consumer) (count : Nat) : List Output :=
  if 0 < count then
    [.log ⟨.info, "New instruments in stream",
      [("new_instruments", .count count), ("total", .count v.aggregator.instruments.length)]⟩]
  else []

/-- Whether storage for the series that an event asks for can be reserved. -/
def canHandle (v : Consumer) : ClientEvent → Bool
  | .message snapshot => v.aggregator.canHold snapshot
  | _ => true

/-- Take one event of the client; gives the version that was drawn, if one was. -/
def handleEvent (v : Consumer) : ClientEvent → Consumer × List Output × Option Nat
  | .message snapshot =>
    let (aggregator, outcome) := v.aggregator.ingest snapshot
    let v := { v with aggregator := aggregator }
    let records := Recording.samples outcome.samplesAppended outcome.samplesEvicted ++ [.ingestTime]
    (v, v.newInstruments outcome.newInstruments ++ .render v.update :: records.map .record,
      some outcome.version)
  | .error (.protocol e) =>
    (v, [.log ⟨.warn, "Discarded inbound message", [("error", .text e.message)]⟩,
      .record (.one .protocolErrors)], none)
  | .error e => (v, [.log ⟨.warn, "Connection error", [("error", .text e.message)]⟩], none)
  | .opened => (v, [.log ⟨.info, "Connected to snapshot source", []⟩], none)
  | .closed => (v, [.log ⟨.info, "Disconnected from snapshot source", []⟩], none)

/-- Hand on a status of the connection. -/
def handleStatus (status : Status) : List Output :=
  [.log ⟨.debug, "Connection status changed",
    [("state", .text status.state.name), ("attempts", .count status.attempts),
      ("exhausted", .flag status.exhausted)]⟩, .status status]

end Consumer

end Quoteboard.Viewer
