import Quoteboard.Client.Event
import Quoteboard.Connection.Machine
import Quoteboard.Metrics.Recording

/-!
# The driver of the reconnecting client

One logical connection to the source, kept up by retries. The driver takes one input at a time, and
answers each with a list of effects in the order in which they happen. Whatever the order of the
inputs, an attempt that was superseded or closed has no further effect, since the driver no longer
holds what the input would come from.
-/

namespace Quoteboard.Client

open Quoteboard.Connection Quoteboard.Metrics Quoteboard.Transport

/-- A connection that the connector has opened, by its number. -/
abbrev StreamId := Nat

/-- A moment, in milliseconds. -/
abbrev Moment := Nat

/-- What the owner of the client may ask for. -/
inductive Command where
  | connect
  /-- Reconnect, and forget the automatic retries used so far. -/
  | retry
  | close
  deriving DecidableEq, Repr

/-- What the driver may be woken by. -/
inductive Input where
  | command (command : Command)
  /-- Nobody is left who could ask for anything. -/
  | abandoned
  /-- The attempt under way has come to an end. -/
  | resolved (result : Except TransportError StreamId)
  /-- The open connection has brought something. -/
  | received (event : TransportEvent)
  /-- The delay before the retry is over. -/
  | retryTimer

/-- What the driver does. -/
inductive Effect where
  /-- Ask the connector for a connection. -/
  | connect
  /-- Give up the attempt under way. -/
  | cancelConnect
  | closeStream (stream : StreamId)
  | publish (status : Status)
  | emit (event : ClientEvent)
  | record (recording : Recording)
  /-- Tell whoever asked to close that all is closed. -/
  | acknowledge
  deriving DecidableEq, Repr

/-- The state of the driver. Attempts, connections and retries carry the generation of the attempt
they belong to. -/
structure Driver where
  machine : Machine
  /-- The attempt under way. -/
  pending : Option Generation
  /-- The open connection. -/
  stream : Option (Generation × StreamId)
  /-- When a retry is due. -/
  retryAt : Option (Moment × Generation)
  running : Bool
  deriving DecidableEq, Repr

namespace Driver

/-- A driver that has not connected yet. -/
def new (policy : RetryPolicy) : Driver :=
  ⟨.new policy, none, none, none, true⟩

/-- The effects of giving up the attempt under way and closing the open connection. -/
def release (d : Driver) : List Effect :=
  (if d.pending.isSome then [.cancelConnect] else [])
    ++ (match d.stream with
      | some (_, stream) => [.closeStream stream]
      | none => [])

/-- The event that tells of the closing of a connection, if one was open. -/
def closing (d : Driver) : List Effect :=
  if d.stream.isSome then [.emit .closed] else []

/-- Start an attempt in place of whatever there is. -/
def start (d : Driver) (manual : Bool) : Driver × List Effect :=
  let (machine, attempt) := if manual then d.machine.manualRetry else d.machine.beginAttempt
  ({ d with
      machine := machine
      pending := some attempt.generation
      stream := none
      retryAt := none },
   d.release ++ .publish machine.status :: d.closing ++ [.connect])

/-- Take note of a failure. -/
def fail (d : Driver) (now : Moment) (g : Generation) (e : TransportError) :
    Driver × List Effect :=
  match d.machine.onFailure g e.message with
  | (machine, .retry generation _ delay) =>
    ({ d with machine := machine, retryAt := some (now + delay, generation) },
     [.publish machine.status, .emit (.error (.transport e))])
  | (machine, .exhausted) =>
    ({ d with machine := machine },
     [.publish machine.status, .emit (.error (.transport e)),
      .emit (.error (.exhausted machine.policy.maxAttempts))])
  | (machine, .stale) => ({ d with machine := machine }, [])

/-- The attempt of a generation has come to an end. -/
def resolve (d : Driver) (now : Moment) (g : Generation) :
    Except TransportError StreamId → Driver × List Effect
  | .ok stream =>
    match d.machine.onOpen g with
    | (machine, true) =>
      ({ d with machine := machine, stream := some (g, stream) },
       [.publish machine.status, .emit .opened])
    | (machine, false) => ({ d with machine := machine }, [.closeStream stream])
  | .error e => d.fail now g e

/-- The connection of a generation has brought something. -/
def receive (d : Driver) (now : Moment) (g : Generation) (stream : StreamId) :
    TransportEvent → Driver × List Effect
  | .data payload => (d, [.emit (.ofPayload payload)])
  | .closed =>
    let d := { d with stream := none }
    match d.machine.onClosed g with
    | (machine, true) =>
      ({ d with machine := machine },
       [.closeStream stream, .publish machine.status, .emit .closed])
    | (machine, false) => ({ d with machine := machine }, [.closeStream stream, .emit .closed])
  | .failed e =>
    let (d, effects) := { d with stream := none }.fail now g e
    (d, .closeStream stream :: effects ++ [.emit .closed])

/-- Close whatever there is. -/
def shutdown (d : Driver) : Driver × List Effect :=
  let (machine, changed) := d.machine.close
  ({ d with machine := machine, pending := none, stream := none, retryAt := none },
   d.release ++ (if changed then [.publish machine.status] else []) ++ d.closing)

/-- Take one input. An input that the driver does not wait for is passed over. -/
def step (d : Driver) (now : Moment) (input : Input) : Driver × List Effect :=
  if d.running then
    match input with
    | .command .connect => d.start false
    | .command .retry =>
      let (d, effects) := d.start true
      (d, .record (.one (.reconnects true)) :: effects)
    | .command .close =>
      let (d, effects) := d.shutdown
      (d, effects ++ [.acknowledge])
    | .abandoned =>
      let (d, effects) := d.shutdown
      ({ d with running := false }, effects)
    | .resolved result =>
      match d.pending with
      | some g => { d with pending := none }.resolve now g result
      | none => (d, [])
    | .received event =>
      match d.stream with
      | some (g, stream) => d.receive now g stream event
      | none => (d, [])
    | .retryTimer =>
      match d.retryAt with
      | some (_, g) =>
        let d := { d with retryAt := none }
        if d.machine.retryDue g then
          let (d, effects) := d.start false
          (d, .record (.one (.reconnects false)) :: effects)
        else (d, [])
      | none => (d, [])
  else (d, [])

/-- Whether the driver waits for an input at this moment. -/
def awaits (d : Driver) (now : Moment) : Input → Bool
  | .command _ | .abandoned => d.running
  | .resolved _ => d.running && d.pending.isSome
  | .received _ => d.running && d.stream.isSome
  | .retryTimer => d.running && d.retryAt.any fun r ↦ r.1 ≤ now

end Driver

end Quoteboard.Client
