import Quoteboard.Client.Channel
import Quoteboard.Client.Driver

/-!
# A client against a scripted source

A client, its consumer and a source whose answers are laid down in advance, on a clock that moves
only when it is told to. After each action everything runs until nothing is ready any more, so an
action has one outcome.
-/

namespace Quoteboard.Client

open Quoteboard.Connection Quoteboard.Metrics Quoteboard.Transport

/-- How the source answers one call of the connector. -/
inductive Script where
  /-- It opens a connection on which these events wait already. -/
  | accept (waiting : List TransportEvent)
  | refuse (error : TransportError)
  /-- It leaves the call unanswered. -/
  | hang

/-- The far end of a connection. -/
structure Remote where
  /-- Events that the client has not read. -/
  waiting : List TransportEvent
  /-- How often the client closed the connection. -/
  closes : Nat
  /-- Whether anyone still holds the near end. -/
  isHeld : Bool

/-- The answer of the source to one call, connections and open calls numbered. -/
inductive Answer where
  | accept (stream : StreamId)
  | refuse (error : TransportError)
  | hang (call : Nat)

/-- A call that the source has left, or will leave, unanswered. -/
inductive Hanging where
  /-- It has not been answered. -/
  | unanswered
  /-- It was answered before it was made. -/
  | answered (result : Except TransportError StreamId)
  /-- It was answered, or nobody waits for the answer any more. -/
  | over

/-- What scripts lay down: connections, answers to the calls to come, and unanswered calls. -/
structure Plan where
  remotes : List Remote
  answers : List Answer
  hanging : List Hanging

namespace Plan

/-- Nothing is laid down. -/
def empty : Plan := ⟨[], [], []⟩

/-- Lay down the answer to one more call. -/
def add (p : Plan) : Script → Plan
  | .accept waiting =>
    { p with
        remotes := p.remotes ++ [⟨waiting, 0, true⟩]
        answers := p.answers ++ [.accept p.remotes.length] }
  | .refuse e => { p with answers := p.answers ++ [.refuse e] }
  | .hang =>
    { p with
        answers := p.answers ++ [.hang p.hanging.length]
        hanging := p.hanging ++ [.unanswered] }

/-- Connections and unanswered calls are numbered in the order of their scripts. -/
def ofScripts (scripts : List Script) : Plan :=
  scripts.foldl add empty

end Plan

/-- A client, its consumer and its source. -/
structure Session where
  driver : Driver
  channel : Channel ClientEvent
  now : Moment
  /-- The status published last. -/
  status : Status
  remotes : List Remote
  /-- The answers to the calls to come. -/
  answers : List Answer
  hanging : List Hanging
  /-- The result of the call under way, if it is there. -/
  arrived : Option (Except TransportError StreamId)
  /-- The unanswered call under way. -/
  awaited : Option Nat
  /-- When the connector was called. -/
  calls : List Moment
  record : List Recording
  hasMainHandle : Bool
  clones : Nat

namespace Session

/-- A session in which nothing has happened. -/
def new (policy : RetryPolicy) (capacity : Nat) (scripts : List Script) : Session :=
  let plan := Plan.ofScripts scripts
  let driver := Driver.new policy
  { driver := driver
    channel := .new capacity
    now := 0
    status := driver.machine.status
    remotes := plan.remotes
    answers := plan.answers
    hanging := plan.hanging
    arrived := none
    awaited := none
    calls := []
    record := []
    hasMainHandle := true
    clones := 0 }

/-- A session in which nothing has happened, if its events can be queued as asked. -/
def new? (policy : RetryPolicy) (capacity : Nat) (scripts : List Script) : Option Session :=
  if Channel.maxCapacity < capacity then none else some (new policy capacity scripts)

/-- Nobody holds the near end of a connection any more. -/
def letGo (s : Session) (stream : StreamId) : Session :=
  { s with remotes := s.remotes.modify stream fun r ↦ { r with isHeld := false } }

/-- The connector is called. -/
def call (s : Session) : Session :=
  let s := { s with calls := s.calls ++ [s.now] }
  match s.answers with
  | [] => { s with arrived := some (.error (.connect "no script")) }
  | .accept stream :: rest => { s with answers := rest, arrived := some (.ok stream) }
  | .refuse e :: rest => { s with answers := rest, arrived := some (.error e) }
  | .hang n :: rest =>
    let s := { s with answers := rest }
    match s.hanging[n]? with
    | some (.answered result) =>
      { s with hanging := s.hanging.set n .over, arrived := some result }
    | _ => { s with awaited := some n }

/-- Nobody waits for the call under way any more. -/
def cancelCall (s : Session) : Session :=
  let s := match s.arrived with
    | some (.ok stream) => s.letGo stream
    | _ => s
  let hanging := match s.awaited with
    | some n => s.hanging.set n .over
    | none => s.hanging
  { s with arrived := none, awaited := none, hanging := hanging }

/-- Carry out one effect of the driver. -/
def apply (s : Session) : Effect → Session
  | .connect => s.call
  | .cancelConnect => s.cancelCall
  | .closeStream stream =>
    { s with remotes := s.remotes.modify stream fun r ↦
        { r with closes := r.closes + 1, isHeld := false } }
  | .publish status => { s with status := status }
  | .emit event =>
    let (channel, delivery) := s.channel.send event
    let lost := if delivery = .full then [Recording.one .eventsDropped] else []
    { s with channel := channel, record := s.record ++ lost }
  | .record recording => { s with record := s.record ++ [recording] }
  | .acknowledge => s

/-- The driver takes an input. -/
def feed (s : Session) (input : Input) : Session :=
  let (driver, effects) := s.driver.step s.now input
  effects.foldl apply { s with driver := driver }

/-- The next event on the connection that the driver holds. -/
def nextEvent? (s : Session) : Option (StreamId × TransportEvent) := do
  let (_, stream) ← s.driver.stream
  let remote ← s.remotes[stream]?
  let event ← remote.waiting.head?
  pure (stream, event)

/-- Whether the driver waits for a retry that is due. -/
def isRetryDue (s : Session) : Bool :=
  s.driver.awaits s.now .retryTimer

/-- Let the driver take what is ready, if anything is. -/
def advanceOnce (s : Session) : Option Session :=
  match s.arrived with
  | some result => some ({ s with arrived := none }.feed (.resolved result))
  | none =>
    match s.nextEvent? with
    | some (stream, event) =>
      let remotes := s.remotes.modify stream fun r ↦ { r with waiting := r.waiting.drop 1 }
      some ({ s with remotes := remotes }.feed (.received event))
    | none => if s.isRetryDue then some (s.feed .retryTimer) else none

/-- Run until nothing is ready; `fuel` bounds the number of inputs. -/
def runFor : Nat → Session → Session
  | 0, s => s
  | fuel + 1, s =>
    match s.advanceOnce with
    | some next => runFor fuel next
    | none => s

/-- A bound on the number of inputs that can become ready without a further action: the waiting
events, and two for each attempt, of which there are at most the automatic retries after each
opened connection. -/
def budget (s : Session) : Nat :=
  let waiting := s.remotes.foldl (fun n r ↦ n + r.waiting.length) 0
  let openings := s.answers.length + s.hanging.length + 2
  waiting + 2 * openings * (s.driver.machine.policy.maxAttempts + 2)

/-- Run until nothing is ready. -/
def settle (s : Session) : Session :=
  runFor s.budget s

/-- Move the clock to a moment, stopping whenever a retry is due on the way; `fuel` bounds the
number of stops. -/
def moveTo (target : Moment) : Nat → Session → Session
  | 0, s => { s with now := target }
  | fuel + 1, s =>
    match s.driver.retryAt with
    | some (due, _) =>
      if s.driver.running && due ≤ target then
        moveTo target fuel { s with now := max s.now due }.settle
      else { s with now := target }
    | none => { s with now := target }

/-- Whether anyone can ask the client for anything. -/
def hasHandle (s : Session) : Bool :=
  s.hasMainHandle || 0 < s.clones

/-- The driver hears of it when the last handle goes. -/
def afterDrop (s : Session) : Session :=
  if s.hasHandle then s else (s.feed .abandoned).settle

/-- The driver is stopped from outside; what it holds goes with it. -/
def kill (s : Session) : Session :=
  let s := match s.driver.stream with
    | some (_, stream) => s.letGo stream
    | none => s
  { s.cancelCall with driver := { s.driver with running := false } }

/-- What happens to a session. -/
inductive Action where
  | command (command : Command)
  /-- One more handle is made, if there is one to make it from. -/
  | clone
  | dropMain
  | dropClones
  | dropEvents
  /-- Events come in on a connection; the answer tells whether all of them could. -/
  | frames (stream : StreamId) (events : List TransportEvent)
  /-- The source answers a call that it left open. -/
  | release (call : Nat) (script : Script)
  | advance (millis : Nat)
  /-- The consumer reads: at most so many events, or all. -/
  | drain (most : Option Nat)

/-- The immediate answer to an action. -/
inductive Reply where
  | yes
  | no
  | count (n : Nat)
  | noHandle
  | noConnection
  /-- The driver has stopped. -/
  | stopped
  deriving DecidableEq, Repr

/-- The wording for a client whose driver has stopped. -/
def stoppedMessage : String := "client driver has stopped"

/-- Answer a call that was left open, unless nobody waits for the answer any more. -/
def answer (s : Session) (call : Nat) (result : Except TransportError StreamId) : Session :=
  if s.awaited = some call then
    { s with hanging := s.hanging.set call .over, awaited := none, arrived := some result }
  else { s with hanging := s.hanging.set call (.answered result) }

/-- Whether an answer to a call that was left open can still be of use. -/
def isUnanswered (s : Session) (call : Nat) : Bool :=
  match s.hanging[call]? with
  | some .unanswered => true
  | _ => false

/-- The source answers a call that it left open. A connection that it opens is numbered whether or
not anyone waits for it. -/
def release (s : Session) (call : Nat) (script : Script) : Session × Reply :=
  let isOpen := s.isUnanswered call
  let reply := if isOpen then .yes else .no
  match script with
  | .accept waiting =>
    let stream := s.remotes.length
    let s := { s with remotes := s.remotes ++ [⟨waiting, 0, isOpen⟩] }
    (if isOpen then s.answer call (.ok stream) else s, reply)
  | .refuse e => (if isOpen then s.answer call (.error e) else s, reply)
  | .hang => (s, .no)

/-- Carry out an action and let everything run. -/
def perform (s : Session) : Action → Session × Reply
  | .command c =>
    if !s.hasHandle then (s, .noHandle)
    else if !s.driver.running then (s, .stopped)
    else ((s.feed (.command c)).settle, .yes)
  | .clone =>
    let s := if s.hasHandle then { s with clones := s.clones + 1 } else s
    (s, .count s.clones)
  | .dropMain => ({ s with hasMainHandle := false }.afterDrop, .yes)
  | .dropClones => ({ s with clones := 0 }.afterDrop, .yes)
  | .dropEvents => ({ s with channel := s.channel.dropReceiver }, .yes)
  | .frames stream events =>
    match s.remotes[stream]? with
    | none => (s, .noConnection)
    | some remote =>
      if events.isEmpty then (s, .yes)
      else if remote.isHeld then
        let remotes := s.remotes.modify stream fun r ↦ { r with waiting := r.waiting ++ events }
        ({ s with remotes := remotes }.settle, .yes)
      else (s, .no)
  | .release call script =>
    let (s, reply) := s.release call script
    (s.settle, reply)
  | .advance millis => ((moveTo (s.now + millis) s.budget s).settle, .yes)
  | .drain _ => (s, .yes)

/-- The consumer reads what has been delivered: all of it after each action if it is `eager`, and
otherwise only when it is told to. -/
def read (s : Session) (eager : Bool) (action : Action) : Session × List ClientEvent :=
  let taken := match action with
    | .drain (some most) => s.channel.receive most
    | .drain none => s.channel.receiveAll
    | _ => if eager then s.channel.receiveAll else (s.channel, [])
  ({ s with channel := taken.1 }, taken.2)

end Session

end Quoteboard.Client
