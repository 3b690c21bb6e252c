import Quoteboard.Metrics.Recording
import Quoteboard.Relay.SourceLink

/-!
# One pair

A viewer and its own link to the source. While the link is being opened, what the viewer sends is
dropped. Once it is open, texts and bytes go through in both directions, until either side ends or
the relay shuts down; then the other side is closed too. A pair takes one input at a time and
answers it with a list of effects.
-/

namespace Quoteboard.Relay

open Quoteboard.Market.Feed (Payload)
open Quoteboard.Metrics Quoteboard.Transport

/-- How far a pair has come. -/
inductive Phase where
  /-- The link is being opened. -/
  | opening
  | forwarding
  | ended (reason : TeardownReason)
  deriving DecidableEq, Repr

/-- What a pair may be woken by. -/
inductive PairInput where
  /-- The pair's token was cancelled. -/
  | cancelled
  /-- The attempt to open the link has ended. -/
  | resolved (outcome : OpenOutcome)
  | fromViewer (arrival : Arrival)
  | fromSource (arrival : Arrival)
  deriving DecidableEq

/-- What a pair does. -/
inductive PairEffect where
  /-- Write to the source; tells whether that succeeded. -/
  | toSource (payload : Payload) (ok : Bool)
  /-- Write to the viewer; tells whether that succeeded. -/
  | toViewer (payload : Payload) (ok : Bool)
  | closeSource (frame : Option CloseFrame)
  /-- Try to send a close frame to the viewer. -/
  | closeViewer (frame : CloseFrame)
  /-- Note whether the link could be opened. -/
  | noteOpen (ok : Bool)
  | record (recording : Recording)
  /-- Leave the registry. -/
  | leave (reason : TeardownReason)
  deriving DecidableEq

/-- The frame that tells a viewer that the source cannot be reached. -/
def unavailableFrame : CloseFrame := ⟨closeInternalError, "upstream unavailable"⟩

/-- The frame that tells a viewer that the connection to the source failed. -/
def failedFrame : CloseFrame := ⟨closeInternalError, "upstream connection failed"⟩

/-- The frame that tells either side that the relay shuts down. -/
def shutdownFrame : CloseFrame := ⟨closeGoingAway, "relay shutting down"⟩

/-- The frame for a viewer whose source closed without saying why. -/
def normalFrame : CloseFrame := ⟨closeNormal, ""⟩

/-- A viewer and its link to the source. -/
structure Pair where
  phase : Phase
  link : SourceLink
  deriving DecidableEq, Repr

namespace Pair

/-- A pair whose link is about to be opened. -/
def new (target : String) : Pair := ⟨.opening, .new target⟩

/-- Close the link. -/
def closeLink (p : Pair) (frame : Option CloseFrame) : Pair × List PairEffect :=
  let (link, held) := p.link.close
  ({ p with link := link }, if held then [.closeSource frame] else [])

/-- End the pair: a connection to the source that is still open is closed without a code. -/
def finish (p : Pair) (reason : TeardownReason) : Pair × List PairEffect :=
  let (p, effects) := p.closeLink none
  ({ p with phase := .ended reason }, effects ++ [.leave reason])

/-- End the pair after some effects. -/
def finishAfter (p : Pair) (effects : List PairEffect) (reason : TeardownReason) :
    Pair × List PairEffect :=
  let (p, more) := p.finish reason
  (p, effects ++ more)

/-- The attempt to open the link has ended. -/
def resolve (p : Pair) (timeout : Duration) (outcome : OpenOutcome) : Pair × List PairEffect :=
  match p.link.openWith timeout outcome with
  | (link, .ok ()) => (⟨.forwarding, link⟩, [.noteOpen true])
  | (link, .error _) =>
    { p with link := link }.finishAfter [.noteOpen false, .closeViewer unavailableFrame]
      .sourceUnavailable

/-- Something came from the viewer while the link was being opened. -/
def hearEarly (p : Pair) : Arrival → Pair × List PairEffect
  | .message (.data _) => (p, [.record (.one (.framesDropped .toSource))])
  | .message (.ping _) | .message (.pong _) => (p, [])
  | .message (.close _) | .ended => p.finish .viewerClosed
  | .failed _ => p.finish .viewerError

/-- Forward what the viewer sent. -/
def forward (p : Pair) (payload : Payload) (written : Except String Unit) :
    Pair × List PairEffect :=
  if p.link.isOpen then
    match p.link.send written with
    | (link, .ok ()) =>
      ({ p with link := link },
       [.toSource payload true, .record (.one (.framesForwarded .toSource))])
    | (link, .error _) =>
      { p with link := link }.finishAfter [.toSource payload false, .closeViewer failedFrame]
        .sourceError
  else (p, [.record (.one (.framesDropped .toSource))])

/-- Something came from the viewer. -/
def hearViewer (p : Pair) (arrival : Arrival) (written : Except String Unit) :
    Pair × List PairEffect :=
  match arrival with
  | .message (.data payload) => p.forward payload written
  | .message (.ping _) | .message (.pong _) => (p, [])
  | .message (.close frame) =>
    let (p, effects) := p.closeLink frame
    p.finishAfter effects .viewerClosed
  | .failed _ => p.finish .viewerError
  | .ended => p.finish .viewerClosed

/-- Something came from the source. -/
def hearSource (p : Pair) (arrival : Arrival) (written : Except String Unit) :
    Pair × List PairEffect :=
  let (link, event) := p.link.receive arrival
  let p := { p with link := link }
  match event with
  | none => (p, [])
  | some (.data payload) =>
    match written with
    | .ok () => (p, [.toViewer payload true, .record (.one (.framesForwarded .toViewer))])
    | .error _ => p.finishAfter [.toViewer payload false] .viewerError
  | some (.closed frame) => p.finishAfter [.closeViewer (frame.getD normalFrame)] .sourceClosed
  | some (.failed _) => p.finishAfter [.closeViewer failedFrame] .sourceError

/-- The relay shuts down. -/
def cancel (p : Pair) : Pair × List PairEffect :=
  match p.phase with
  | .forwarding =>
    let (p, effects) := p.closeLink (some shutdownFrame)
    p.finishAfter (effects ++ [.closeViewer shutdownFrame]) .shutdown
  | _ => p.finishAfter [.closeViewer shutdownFrame] .shutdown

/-- Take one input. Opening the link may take as long as `timeout`; a write that the input gives
rise to succeeds or fails as `written` says. An input that the pair does not wait for is passed
over. -/
def step (p : Pair) (timeout : Duration) (input : PairInput) (written : Except String Unit) :
    Pair × List PairEffect :=
  match p.phase, input with
  | .ended _, _ => (p, [])
  | _, .cancelled => p.cancel
  | .opening, .resolved outcome => p.resolve timeout outcome
  | .opening, .fromViewer arrival => p.hearEarly arrival
  | .opening, .fromSource _ => (p, [])
  | .forwarding, .resolved _ => (p, [])
  | .forwarding, .fromViewer arrival => p.hearViewer arrival written
  | .forwarding, .fromSource arrival => p.hearSource arrival written

/-- A pair that has ended does nothing more. -/
theorem step_of_ended {p : Pair} {reason : TeardownReason} (h : p.phase = .ended reason)
    (timeout : Duration) (input : PairInput) (written : Except String Unit) :
    p.step timeout input written = (p, []) := by
  simp [step, h]

end Pair

end Quoteboard.Relay
