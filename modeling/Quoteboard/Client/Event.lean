import Quoteboard.Transport.Event

/-!
# Client events

What the reconnecting client tells its consumer.
-/

namespace Quoteboard.Client

open Quoteboard.Market Quoteboard.Transport

/-- An error that the consumer hears of. -/
inductive ClientError where
  /-- The connection failed. -/
  | transport (error : TransportError)
  /-- A payload was discarded. -/
  | protocol (error : Feed.ProtocolError)
  /-- The automatic retries are used up; their greatest number is given. -/
  | exhausted (attempts : Nat)
  deriving DecidableEq, Repr

/-- The wording of an error. -/
def ClientError.message : ClientError → String
  | .transport e => e.message
  | .protocol e => e.message
  | .exhausted n => "gave up after " ++ toString n ++ " reconnect attempts"

/-- What the consumer hears. -/
inductive ClientEvent where
  /-- A connection opened. -/
  | opened
  /-- Something failed. -/
  | error (error : ClientError)
  /-- A snapshot was received. -/
  | message (snapshot : Snapshot)
  /-- The connection that was open last closed. -/
  | closed
  deriving DecidableEq, Repr

/-- The event that receiving a payload gives rise to. -/
def ClientEvent.ofPayload (payload : Feed.Payload) : ClientEvent :=
  match Feed.receive payload with
  | .ok snapshot => .message snapshot
  | .error e => .error (.protocol e)

end Quoteboard.Client
