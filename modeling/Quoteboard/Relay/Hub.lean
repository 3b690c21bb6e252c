import Quoteboard.Config.Settings
import Quoteboard.Relay.Pair
import Quoteboard.Relay.Registry

/-!
# The relay

All pairs of a relay and their registry. Each pair goes on by itself; what it does is carried into
the registry and the metrics.
-/

namespace Quoteboard.Relay

open Quoteboard.Config Quoteboard.Metrics

/-- A relay and its pairs. -/
structure Hub where
  settings : RelaySettings
  registry : Registry
  /-- The pairs by their numbers. -/
  pairs : List Pair
  /-- Whether viewers are accepted. -/
  isServing : Bool

/-- Why a viewer does not get a connection. -/
inductive Refusal where
  /-- Nobody answers. -/
  | unreachable
  /-- The request is answered with this code. -/
  | status (code : Nat)
  deriving DecidableEq, Repr

namespace Hub

/-- The token that a relay registers its pairs under. -/
def root : RootId := 0

/-- A relay without pairs. -/
def new (settings : RelaySettings) : Hub :=
  ⟨settings, .new, [], true⟩

/-- Carry an effect of a pair into the registry. -/
def note (id : PairId) (r : Registry) : PairEffect → Registry
  | .noteOpen ok => r.recordOpen ok
  | .record recording => { r with record := r.record ++ [recording] }
  | .leave reason => ((r.teardown id reason).1.dropHandle id).1
  | _ => r

/-- Connect a viewer that asks for a path, over a network that reaches the relay or does not. -/
def connect (h : Hub) (reachable : Bool) (path : String) : Hub × Except Refusal PairId :=
  if reachable && h.isServing then
    if path = relayPath then
      let (registry, id) := h.registry.register root
      ({ h with registry := registry, pairs := h.pairs ++ [.new h.settings.sourceUrl] }, .ok id)
    else (h, .error (.status 404))
  else (h, .error .unreachable)

/-- A pair takes an input. -/
def step (h : Hub) (id : PairId) (input : PairInput) (written : Except String Unit) :
    Hub × List PairEffect :=
  match h.pairs[id]? with
  | none => (h, [])
  | some pair =>
    let (next, effects) := pair.step h.settings.connectTimeout input written
    ({ h with
        pairs := h.pairs.set id next
        registry := effects.foldl (note id) h.registry },
     effects)

/-- Shut down: no viewer is accepted any more, and every pair is told to stop. -/
def shutdown (h : Hub) : Hub :=
  let stopped := { h with isServing := false, registry := h.registry.cancelRoot root }
  (List.range h.pairs.length).foldl (fun h id ↦ (h.step id .cancelled (.ok ())).1) stopped

end Hub

/-- Why a server ends before it is told to. -/
inductive ServerError where
  /-- The endpoint with this number could not be taken. -/
  | bindFailed (portNumber : UInt16) (cause : String)
  | serverFailed (cause : String)
  deriving DecidableEq, Repr

/-- The wording of an ended server. -/
def ServerError.message : ServerError → String
  | .bindFailed n cause => "failed to bind to port " ++ toString n.toNat ++ ": " ++ cause
  | .serverFailed cause => "server error: " ++ cause

end Quoteboard.Relay
