import Quoteboard.Market.Feed
import Quoteboard.Transport.Duration

/-!
# Transport events

What comes from an open connection, why a connection fails, and which close codes end one without
an error.
-/

namespace Quoteboard.Transport

open Quoteboard.Market.Feed (Payload)

/-- Why a connection fails. -/
inductive TransportError where
  | connect (cause : String)
  | timeout (after : Duration)
  | read (cause : String)
  | write (cause : String)
  /-- The peer closed with a code that is not a normal one. -/
  | abnormalClose (code : UInt16) (reason : String)
  /-- The connection ended without a close frame. -/
  | dropped
  deriving DecidableEq, Repr

/-- The wording of a failure. -/
def TransportError.message : TransportError → String
  | .connect cause => "connect failed: " ++ cause
  | .timeout after => "connect timed out after " ++ after.text
  | .read cause => "read failed: " ++ cause
  | .write cause => "write failed: " ++ cause
  | .abnormalClose code reason =>
    "closed abnormally with code " ++ toString code.toNat ++ ": " ++ reason
  | .dropped => "connection dropped without a close frame"

/-- What comes from an open connection. -/
inductive TransportEvent where
  | data (payload : Payload)
  /-- The peer closed in the normal way. -/
  | closed
  /-- The connection failed; nothing follows. -/
  | failed (error : TransportError)
  deriving DecidableEq

/-- The code and the reason of a close frame. -/
structure CloseFrame where
  code : UInt16
  reason : String
  deriving DecidableEq, Repr

/-- The close code of a connection that has served its purpose. -/
def closeNormal : UInt16 := 1000

/-- The close code of an endpoint that goes away. -/
def closeGoingAway : UInt16 := 1001

/-- The close code of an endpoint that cannot go on. -/
def closeInternalError : UInt16 := 1011

/-- Whether a close code ends a connection without an error. -/
def isNormalClose (code : UInt16) : Bool :=
  code = closeNormal || code = closeGoingAway

/-- What a close frame means to its receiver; none at all, or one without a code, is normal. -/
def classifyClose : Option CloseFrame → TransportEvent
  | none => .closed
  | some frame =>
    if isNormalClose frame.code then .closed
    else .failed (.abnormalClose frame.code frame.reason)

/-- A closing is an error exactly if its code is neither of the two normal ones. -/
theorem classifyClose_eq_closed_iff (frame : CloseFrame) :
    classifyClose (some frame) = .closed ↔
      frame.code = closeNormal ∨ frame.code = closeGoingAway := by
  simp only [classifyClose, isNormalClose, Bool.or_eq_true, decide_eq_true_eq]
  split <;> simp_all

end Quoteboard.Transport
