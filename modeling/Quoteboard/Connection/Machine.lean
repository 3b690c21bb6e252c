/-!
# The connection machine

The state of one logical connection to the source of quotes: connection attempts numbered by
generations, a bounded number of automatic retries with a fixed delay, and an explicit close. An
event for a generation that is no longer current changes nothing.
-/

namespace Quoteboard.Connection

/-- What an observer sees of a connection. -/
inductive State where
  | disconnected
  | connecting
  | connected
  | error
  deriving DecidableEq, Repr

/-- The name of a state. -/
def State.name : State → String
  | .disconnected => "disconnected"
  | .connecting => "connecting"
  | .connected => "connected"
  | .error => "error"

/-- The number of a connection attempt. -/
abbrev Generation := Nat

/-- How often and when a failed connection is retried. -/
structure RetryPolicy where
  /-- How many automatic retries there are before the connection is given up. -/
  maxAttempts : Nat
  /-- The delay before each retry, in milliseconds. -/
  delayMillis : Nat
  deriving DecidableEq, Repr

/-- One retry after two seconds. -/
def RetryPolicy.default : RetryPolicy := ⟨1, 2000⟩

/-- What is published of a connection. -/
structure Status where
  state : State
  /-- Automatic retries used since the connection was last open. -/
  attempts : Nat
  maxAttempts : Nat
  /-- Whether the retries are used up. -/
  exhausted : Bool
  /-- The latest failure since the connection was last open. -/
  lastError : Option String
  deriving DecidableEq, Repr

/-- The start of an attempt. -/
structure AttemptStart where
  generation : Generation
  /-- Whether a connection was open or being opened, which has to be closed first. -/
  closePrevious : Bool
  deriving DecidableEq, Repr

/-- What follows from a failure. -/
inductive FailureOutcome where
  /-- One retry is due after the delay. -/
  | retry (generation : Generation) (attempt : Nat) (delayMillis : Nat)
  /-- The retries are used up. -/
  | exhausted
  /-- The failure is of an attempt that is no longer current. -/
  | stale
  deriving DecidableEq, Repr

/-- The state of one logical connection. -/
structure Machine where
  policy : RetryPolicy
  state : State
  attempts : Nat
  generation : Generation
  exhausted : Bool
  closed : Bool
  lastError : Option String
  deriving DecidableEq, Repr

namespace Machine

/-- A machine that is disconnected and has not attempted anything. -/
def new (policy : RetryPolicy) : Machine :=
  ⟨policy, .disconnected, 0, 0, false, false, none⟩

/-- Whether a connection is open or being opened. -/
def isActive (m : Machine) : Bool :=
  m.state = .connecting || m.state = .connected

/-- Start an attempt under a new generation. -/
def beginAttempt (m : Machine) : Machine × AttemptStart :=
  ({ m with
      generation := m.generation + 1
      state := .connecting
      exhausted := false
      closed := false },
   ⟨m.generation + 1, m.isActive⟩)

/-- Forget the retries used and start an attempt. -/
def manualRetry (m : Machine) : Machine × AttemptStart :=
  { m with attempts := 0 }.beginAttempt

/-- The attempt has opened a connection; tells whether that was still awaited. -/
def onOpen (m : Machine) (g : Generation) : Machine × Bool :=
  if g = m.generation ∧ m.state = .connecting then
    ({ m with state := .connected, attempts := 0, lastError := none }, true)
  else (m, false)

/-- The attempt, or the connection it opened, has failed. -/
def onFailure (m : Machine) (g : Generation) (reason : String) : Machine × FailureOutcome :=
  if g = m.generation ∧ m.isActive then
    if m.attempts < m.policy.maxAttempts then
      ({ m with state := .error, attempts := m.attempts + 1, lastError := some reason },
       .retry g (m.attempts + 1) m.policy.delayMillis)
    else
      ({ m with state := .disconnected, exhausted := true, lastError := some reason }, .exhausted)
  else (m, .stale)

/-- The peer has closed the connection in the normal way; tells whether it was current. -/
def onClosed (m : Machine) (g : Generation) : Machine × Bool :=
  if g = m.generation ∧ m.isActive then ({ m with state := .disconnected }, true)
  else (m, false)

/-- Whether a retry that was scheduled for a generation may still start an attempt. -/
def retryDue (m : Machine) (g : Generation) : Bool :=
  g = m.generation && m.state = .error && !m.exhausted && !m.closed

/-- Close the connection and invalidate all that is under way; tells whether it was not closed
already. -/
def close (m : Machine) : Machine × Bool :=
  if m.closed then (m, false)
  else
    ({ m with closed := true, generation := m.generation + 1, state := .disconnected }, true)

/-- What is published at present. -/
def status (m : Machine) : Status :=
  ⟨m.state, m.attempts, m.policy.maxAttempts, m.exhausted, m.lastError⟩

end Machine

end Quoteboard.Connection
