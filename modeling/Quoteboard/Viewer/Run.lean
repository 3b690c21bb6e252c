import Quoteboard.Viewer.Consumer

/-!
# A running viewer

A viewer that waits for three things at once: to be cancelled, for the next event of the client,
and for the status of the connection to change. When several are ready, they count in this order.
A status that was replaced before the viewer looked is never seen.
-/

namespace Quoteboard.Viewer

open Quoteboard.Chart Quoteboard.Client Quoteboard.Connection

/-- A running viewer, and what waits for it. -/
structure Run where
  viewer : Consumer
  /-- Events that wait, the oldest first. -/
  events : List ClientEvent
  /-- Whether further events can be sent. -/
  eventsOpen : Bool
  /-- The status published last. -/
  status : Status
  /-- Whether the viewer has not seen that status. -/
  isUnseen : Bool
  /-- Whether further statuses can be published. -/
  statusOpen : Bool
  isCancelled : Bool
  /-- Whether the viewer has looked at the status it begins with. -/
  hasBegun : Bool
  hasEnded : Bool

/-- What the viewer does next. -/
inductive Turn where
  | begin
  | cancel
  | event (event : ClientEvent)
  | endOfEvents
  | status (status : Status)
  /-- Nothing is ready. -/
  | wait

namespace Run

/-- A viewer about to run. -/
def new (viewer : Consumer) (initial : Status) : Run where
  viewer := viewer
  events := []
  eventsOpen := true
  status := initial
  isUnseen := true
  statusOpen := true
  isCancelled := false
  hasBegun := false
  hasEnded := false

/-- What the viewer does next. -/
def turn (r : Run) : Turn :=
  if r.hasEnded then .wait
  else if !r.hasBegun then .begin
  else if r.isCancelled then .cancel
  else
    match r.events with
    | event :: _ => .event event
    | [] =>
      if !r.eventsOpen then .endOfEvents
      else if r.isUnseen then .status r.status
      else .wait

/-- Take a turn. -/
def take (r : Run) : Turn → Run × List Output
  | .begin => ({ r with hasBegun := true, isUnseen := false }, Consumer.handleStatus r.status)
  | .cancel | .endOfEvents => ({ r with hasEnded := true }, [])
  | .event event =>
    let (viewer, outputs, _) := r.viewer.handleEvent event
    ({ r with viewer := viewer, events := r.events.drop 1 }, outputs)
  | .status status => ({ r with isUnseen := false }, Consumer.handleStatus status)
  | .wait => (r, [])

/-- Whether a turn needs no more storage than can be reserved. -/
def canTake (r : Run) : Turn → Bool
  | .event event => r.viewer.canHandle event
  | _ => true

/-- How many turns are left until nothing is ready, at most. -/
def budget (r : Run) : Nat := r.events.length + 3

/-- Take turns until nothing is ready; gives nothing if storage cannot be reserved. -/
def runFor : Nat → Run → Option (Run × List Output)
  | 0, r => some (r, [])
  | fuel + 1, r =>
    match r.turn with
    | .wait => some (r, [])
    | turn =>
      if r.canTake turn then do
        let (next, outputs) := r.take turn
        let (last, more) ← runFor fuel next
        pure (last, outputs ++ more)
      else none

/-- Run until nothing is ready; gives nothing if storage cannot be reserved. -/
def settle (r : Run) : Option (Run × List Output) :=
  runFor r.budget r

/-- Send an event; tells whether there was a way to send it. -/
def send (r : Run) (event : ClientEvent) : Run × Bool :=
  if r.eventsOpen && !r.hasEnded then ({ r with events := r.events ++ [event] }, true)
  else (r, false)

/-- Publish a status; tells whether there was a way to publish it. -/
def publish (r : Run) (status : Status) : Run × Bool :=
  if r.statusOpen && !r.hasEnded then ({ r with status := status, isUnseen := true }, true)
  else (r, false)

/-- Ask the viewer to stop. -/
def cancel (r : Run) : Run := { r with isCancelled := true }

/-- No further events will be sent. -/
def closeEvents (r : Run) : Run := { r with eventsOpen := false }

/-- No further statuses will be published. -/
def closeStatus (r : Run) : Run := { r with statusOpen := false }

end Run

end Quoteboard.Viewer
