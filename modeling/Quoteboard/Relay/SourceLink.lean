import Quoteboard.Text.Quoted
import Quoteboard.Transport.Event

/-!
# The link to the source

One connection from the relay to the source. It is opened once, carries messages while it is open,
and is never opened again: its state only goes forward, from connecting through open to closed.
-/

namespace Quoteboard.Relay

open Quoteboard.Market.Feed (Payload)
open Quoteboard.Text Quoteboard.Transport

/-- A message on a connection. -/
inductive Message where
  | data (payload : Payload)
  | ping (content : ByteArray)
  | pong (content : ByteArray)
  | close (frame : Option CloseFrame)
  deriving DecidableEq

/-- What is read from a connection. -/
inductive Arrival where
  | message (message : Message)
  /-- Reading failed. -/
  | failed (cause : String)
  /-- The connection ended. -/
  | ended
  deriving DecidableEq

/-- How far a link has come. -/
inductive LinkState where
  /-- It has not been opened yet. -/
  | connecting
  | opened
  | closed
  deriving DecidableEq, Repr

/-- The name of a state. -/
def LinkState.name : LinkState → String
  | .connecting => "connecting"
  | .opened => "open"
  | .closed => "closed"

/-- Why an operation on a link fails. -/
inductive LinkError where
  /-- The link to this target could not be opened. -/
  | openFailed (target : String) (cause : TransportError)
  /-- The operation is not possible in this state. -/
  | invalidState (state : LinkState)
  | sendFailed (cause : TransportError)
  deriving DecidableEq, Repr

/-- The wording of a failed operation. -/
def LinkError.message : LinkError → String
  | .openFailed target cause => "failed to open upstream " ++ target ++ ": " ++ cause.message
  | .invalidState state => "upstream link is " ++ state.name
  | .sendFailed cause => cause.message

/-- How an attempt to open a connection ends. -/
inductive OpenOutcome where
  | accepted
  | refused (cause : String)
  | timedOut
  deriving DecidableEq, Repr

/-- What an open link brings. -/
inductive LinkEvent where
  | data (payload : Payload)
  | closed (frame : Option CloseFrame)
  | failed (cause : TransportError)
  deriving DecidableEq

/-- A link to a source. -/
structure SourceLink where
  target : String
  state : LinkState
  /-- Whether the link holds a connection. -/
  hasSocket : Bool
  deriving DecidableEq, Repr

namespace SourceLink

/-- A link that has not been opened. -/
def new (target : String) : SourceLink := ⟨target, .connecting, false⟩

/-- Whether messages can be sent. -/
def isOpen (l : SourceLink) : Bool := l.state = .opened

/-- Let go of the connection for good. -/
def finish (l : SourceLink) : SourceLink :=
  { l with state := .closed, hasSocket := false }

/-- Open the link; the attempt may take as long as `timeout` and ends in `outcome`. -/
def openWith (l : SourceLink) (timeout : Duration) (outcome : OpenOutcome) :
    SourceLink × Except LinkError Unit :=
  if l.state = .connecting then
    let fail (cause : TransportError) : SourceLink × Except LinkError Unit :=
      ({ l with state := .closed }, .error (.openFailed l.target cause))
    match outcome with
    | .accepted => ({ l with state := .opened, hasSocket := true }, .ok ())
    | .refused cause => fail (.connect cause)
    | .timedOut => fail (.timeout timeout)
  else (l, .error (.invalidState l.state))

/-- Send a message; writing it succeeds or fails as `written` says. -/
def send (l : SourceLink) (written : Except String Unit) : SourceLink × Except LinkError Unit :=
  if l.isOpen && l.hasSocket then
    match written with
    | .ok () => (l, .ok ())
    | .error cause => (l.finish, .error (.sendFailed (.write cause)))
  else (l, .error (.invalidState l.state))

/-- Take in what is read from the connection; gives the event that it makes, if it makes one. A link
that is not open brings nothing, and neither do control messages. -/
def receive (l : SourceLink) (arrival : Arrival) : SourceLink × Option LinkEvent :=
  if l.isOpen && l.hasSocket then
    match arrival with
    | .message (.data payload) => (l, some (.data payload))
    | .message (.ping _) | .message (.pong _) => (l, none)
    | .message (.close frame) => (l.finish, some (.closed frame))
    | .failed cause => (l.finish, some (.failed (.read cause)))
    | .ended => (l.finish, some (.failed .dropped))
  else (l, none)

/-- Wait for an event while the connection brings one thing after another; gives the event, unless
there is none in what is brought, and what is left unread. -/
def listen (l : SourceLink) : List Arrival → SourceLink × Option LinkEvent × List Arrival
  | [] => (l, none, [])
  | arrival :: rest =>
    if l.isOpen && l.hasSocket then
      match l.receive arrival with
      | (l, some event) => (l, some event, rest)
      | (l, none) => l.listen rest
    else (l, none, arrival :: rest)

/-- Close the link; tells whether there was a connection, which is then closed. -/
def close (l : SourceLink) : SourceLink × Bool :=
  (l.finish, l.hasSocket)

/-- The name of a state in the description of a link. -/
def describeState : LinkState → String
  | .connecting => "Connecting"
  | .opened => "Open"
  | .closed => "Closed"

/-- A description of the link. -/
def describe (l : SourceLink) : String :=
  "RelayLink \x7b target: " ++ quoted l.target ++ ", state: " ++ describeState l.state
    ++ ", .. \x7d"

/-- A link that has been closed is closed, and holds no connection. -/
theorem close_fst (l : SourceLink) : l.close.1 = ⟨l.target, .closed, false⟩ := rfl

/-- A link can be opened only once. -/
theorem openWith_of_ne {l : SourceLink} (h : l.state ≠ .connecting) (timeout : Duration)
    (outcome : OpenOutcome) : l.openWith timeout outcome = (l, .error (.invalidState l.state)) := by
  simp [openWith, h]

end SourceLink

end Quoteboard.Relay
