import Quoteboard.Relay.Reason

/-!
# Metrics

What the program records about itself. The record is the list of all recordings made; the value of
a metric is found from that list.
-/

namespace Quoteboard.Metrics

open Quoteboard.Relay (TeardownReason)

/-- The way a frame goes through the relay. -/
inductive Direction where
  /-- From the viewer to the source. -/
  | toSource
  /-- From the source to the viewer. -/
  | toViewer
  deriving DecidableEq, Repr

/-- The name of a direction. -/
def Direction.name : Direction → String
  | .toSource => "upstream"
  | .toViewer => "downstream"

/-- A count that only grows. -/
inductive Counter where
  | pairsAccepted
  | teardowns (reason : TeardownReason)
  | framesForwarded (direction : Direction)
  | framesDropped (direction : Direction)
  | sourceFailures
  /-- Attempts to reconnect, made on request (`true`) or automatically. -/
  | reconnects (manual : Bool)
  | eventsDropped
  | protocolErrors
  | samplesIngested
  | samplesEvicted
  deriving DecidableEq, Repr

/-- One recording. -/
inductive Recording where
  /-- A count grew; it may grow by nothing. -/
  | add (counter : Counter) (amount : Nat)
  /-- There are now this many active pairs. -/
  | activePairs (count : Nat)
  /-- A snapshot was ingested and drawn, which took some time. -/
  | ingestTime
  deriving DecidableEq, Repr

/-- Count one more. -/
def Recording.one (counter : Counter) : Recording := .add counter 1

/-- What ingesting a snapshot records of its samples; evictions only if there were any. -/
def Recording.samples (appended evicted : Nat) : List Recording :=
  .add .samplesIngested appended :: if 0 < evicted then [.add .samplesEvicted evicted] else []

/-- How much a recording adds to a counter. -/
def Recording.amount (counter : Counter) : Recording → Nat
  | .add c n => if c = counter then n else 0
  | _ => 0

/-- Whether a recording is about a counter. -/
def Recording.isAbout (counter : Counter) : Recording → Bool
  | .add c _ => c = counter
  | _ => false

/-- The value of a counter. -/
def total (counter : Counter) : List Recording → Nat
  | [] => 0
  | r :: rest => r.amount counter + total counter rest

/-- The number of active pairs, once it has been recorded. -/
def activePairs? (record : List Recording) : Option Nat :=
  (record.filterMap fun
    | .activePairs n => some n
    | _ => none).getLast?

/-- How many snapshots were ingested and drawn. -/
def ingestCount (record : List Recording) : Nat :=
  record.countP (· = .ingestTime)

/-- Nothing has been counted at first. -/
@[simp] theorem total_nil (counter : Counter) : total counter [] = 0 := rfl

/-- Counts of successive records add up. -/
@[simp] theorem total_append (counter : Counter) (r s : List Recording) :
    total counter (r ++ s) = total counter r + total counter s := by
  induction r with
  | nil => simp [total]
  | cons _ _ ih => simp [total, ih, Nat.add_assoc]

/-- Ingests of successive records add up. -/
@[simp] theorem ingestCount_append (r s : List Recording) :
    ingestCount (r ++ s) = ingestCount r + ingestCount s := by
  simp [ingestCount]

end Quoteboard.Metrics
