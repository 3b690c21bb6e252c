import Quoteboard.Metrics.Recording

/-!
# The registry of pairs

The relay joins each viewer to a connection of its own to the source; the two make a pair. The
registry knows which pairs there are. However often a pair is torn down, and by whomever, it is
removed once, under the reason of the call that removed it.
-/

namespace Quoteboard.Relay

open Quoteboard.Metrics

/-- The number of a pair. Pairs are numbered in the order in which they are registered. -/
abbrev PairId := Nat

/-- The number of a root token. Cancelling it cancels all pairs registered under it. -/
abbrev RootId := Nat

/-- What is known of a pair that was registered. -/
structure PairEntry where
  root : RootId
  /-- Whether the pair has not been removed. -/
  isActive : Bool
  /-- Whether the pair's own token was cancelled. -/
  isStopped : Bool
  /-- Whether the handle of the pair is still held. -/
  isHeld : Bool
  deriving DecidableEq, Repr

/-- A pair that was just registered. -/
def PairEntry.new (root : RootId) : PairEntry := ⟨root, true, false, true⟩

/-- A pair that was removed. -/
def PairEntry.stop (m : PairEntry) : PairEntry :=
  { m with isActive := false, isStopped := true }

/-- The pairs, what has been counted of them, and what was recorded. -/
structure Registry where
  pairs : List PairEntry
  /-- How many pairs were registered. -/
  accepted : Nat
  /-- How many pairs were removed. -/
  tornDown : Nat
  /-- How many connections to the source could not be opened. -/
  failedOpens : Nat
  /-- Whether the latest attempt to open a connection to the source failed. -/
  lastOpenFailed : Bool
  cancelledRoots : List RootId
  record : List Recording
  deriving DecidableEq, Repr

/-- The counts at one moment. -/
structure Stats where
  activePairs : Nat
  accepted : Nat
  tornDown : Nat
  failedOpens : Nat
  lastOpenFailed : Bool
  deriving DecidableEq, Repr

namespace Registry

/-- The registry without pairs. -/
def new : Registry := ⟨[], 0, 0, 0, false, [], []⟩

/-- The number of pairs registered at present. -/
def active (r : Registry) : Nat :=
  r.pairs.countP (·.isActive)

/-- Whether a pair is registered at present. -/
def contains (r : Registry) (id : PairId) : Bool :=
  r.pairs[id]?.any (·.isActive)

/-- Whether the handle of a pair is held. -/
def isHeld (r : Registry) (id : PairId) : Bool :=
  r.pairs[id]?.any (·.isHeld)

/-- Whether a pair has been told to stop, by itself or by its root. -/
def isCancelled (r : Registry) (m : PairEntry) : Bool :=
  m.isStopped || r.cancelledRoots.contains m.root

/-- The counts at present. -/
def stats (r : Registry) : Stats :=
  ⟨r.active, r.accepted, r.tornDown, r.failedOpens, r.lastOpenFailed⟩

/-- Record something, and the number of active pairs after it. -/
def note (r : Registry) (counter : Counter) : Registry :=
  { r with record := r.record ++ [.one counter, .activePairs r.active] }

/-- Register a new pair under a root; its handle is held. -/
def register (r : Registry) (root : RootId) : Registry × PairId :=
  let grown := { r with pairs := r.pairs ++ [PairEntry.new root], accepted := r.accepted + 1 }
  (grown.note .pairsAccepted, r.pairs.length)

/-- Remove a pair and cancel its token; tells whether this call removed it. -/
def teardown (r : Registry) (id : PairId) (reason : TeardownReason) : Registry × Bool :=
  if r.contains id then
    let rest := { r with pairs := r.pairs.modify id .stop, tornDown := r.tornDown + 1 }
    (rest.note (.teardowns reason), true)
  else (r, false)

/-- Remove some pairs, one after another; tells how many were removed. -/
def teardownEach (r : Registry) (reason : TeardownReason) : List PairId → Registry × Nat
  | [] => (r, 0)
  | id :: ids =>
    let (r, removed) := r.teardown id reason
    let (r, n) := r.teardownEach reason ids
    (r, n + if removed then 1 else 0)

/-- The numbers of the pairs registered at present. -/
def activeIds (r : Registry) : List PairId :=
  (List.range r.pairs.length).filter r.contains

/-- Remove all pairs; tells how many there were. -/
def teardownAll (r : Registry) (reason : TeardownReason) : Registry × Nat :=
  r.teardownEach reason r.activeIds

/-- Remove a pair by its handle; gives nothing if the handle is not held. -/
def handleTeardown (r : Registry) (id : PairId) (reason : TeardownReason) :
    Registry × Option Bool :=
  if r.isHeld id then
    let (r, removed) := r.teardown id reason
    (r, some removed)
  else (r, none)

/-- Drop the handle of a pair, which removes the pair unless it was removed before; tells whether
the handle was held. -/
def dropHandle (r : Registry) (id : PairId) : Registry × Bool :=
  if r.isHeld id then
    let pairs := r.pairs.modify id fun m ↦ { m with isHeld := false }
    (({ r with pairs := pairs }.teardown id .dropped).1, true)
  else (r, false)

/-- Cancel a root token. -/
def cancelRoot (r : Registry) (root : RootId) : Registry :=
  { r with cancelledRoots := root :: r.cancelledRoots }

/-- Note the outcome of an attempt to open a connection to the source. -/
def recordOpen (r : Registry) (ok : Bool) : Registry :=
  let r := { r with lastOpenFailed := !ok }
  if ok then r
  else
    { r with
        failedOpens := r.failedOpens + 1
        record := r.record ++ [.one .sourceFailures] }

/-- Recording something leaves the pairs alone. -/
@[simp] theorem pairs_note (r : Registry) (counter : Counter) :
    (r.note counter).pairs = r.pairs := rfl

/-- A new pair is registered. -/
theorem contains_register (r : Registry) (root : RootId) :
    (r.register root).1.contains (r.register root).2 = true := by
  simp [register, contains, PairEntry.new]

/-- A pair that was torn down is not registered any more. -/
theorem contains_teardown (r : Registry) (id : PairId) (reason : TeardownReason) :
    (r.teardown id reason).1.contains id = false := by
  rw [teardown]
  split
  · cases h : r.pairs[id]? <;> simp [contains, h, PairEntry.stop]
  · next h => exact Bool.eq_false_iff.mpr h

/-- Only one call removes a pair. -/
theorem teardown_teardown (r : Registry) (id : PairId) (first second : TeardownReason) :
    ((r.teardown id first).1.teardown id second).2 = false := by
  rw [teardown, contains_teardown]
  rfl

end Registry

end Quoteboard.Relay
