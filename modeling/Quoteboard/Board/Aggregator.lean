import Quoteboard.Board.TimeSeries
import Quoteboard.Market.Snapshot
import Quoteboard.Table

/-!
# The aggregator

The state one viewer keeps of the stream: for each instrument ever quoted the latest samples, and
the latest set of positions. A view is a copy of that state at one version.
-/

namespace Quoteboard.Board

open Quoteboard.Market

/-- How many samples are kept of an instrument unless told otherwise. -/
def defaultWindow : Nat := 1000

/-- What ingesting one snapshot changed. -/
structure Outcome where
  /-- The version after the snapshot. -/
  version : Nat
  samplesAppended : Nat
  samplesEvicted : Nat
  /-- How many instruments were quoted for the first time. -/
  newInstruments : Nat
  positionsReplaced : Bool
  deriving DecidableEq, Repr

/-- The latest samples of each instrument, the latest positions, and the number of snapshots
ingested. -/
structure Aggregator where
  window : Nat
  series : Table Identifier TimeSeries
  positions : List Position
  version : Nat
  window_pos : 0 < window

/-- The positions held in an instrument, in order. -/
def heldIn (instrument : Identifier) (positions : List Position) : List Position :=
  positions.filter (·.instrument = instrument)

namespace Aggregator

/-- The aggregator that has seen nothing; its window is at least one sample. -/
def new (window : Nat) : Aggregator where
  window := max window 1
  series := .empty
  positions := []
  version := 0
  window_pos := room_pos window

/-- The series of all instruments, and what has been counted while adding to them. -/
structure Progress where
  series : Table Identifier TimeSeries
  appended : Nat
  evicted : Nat
  added : Nat

/-- Add one quote to the series of its instrument, which is made if there is none. -/
def Progress.add (window : Nat) (time : Float) (p : Progress) (q : Quote) : Progress :=
  let known := p.series.get? q.instrument
  let series := known.getD (.empty window)
  { series := p.series.insert q.instrument (series.push ⟨time, q.bestBid, q.bestAsk⟩)
    appended := p.appended + 1
    evicted := p.evicted + if series.isFull then 1 else 0
    added := p.added + if known.isNone then 1 else 0 }

/-- Take in one snapshot. -/
def ingest (a : Aggregator) (s : Snapshot) : Aggregator × Outcome :=
  let time := displayTime s.timestamp
  let p := s.quotes.foldl (Progress.add a.window time) ⟨a.series, 0, 0, 0⟩
  ({ window := a.window
     series := p.series
     positions := s.positions.getD a.positions
     version := a.version + 1
     window_pos := a.window_pos },
   { version := a.version + 1
     samplesAppended := p.appended
     samplesEvicted := p.evicted
     newInstruments := p.added
     positionsReplaced := s.positions.isSome })

/-- Whether storage can be reserved for every instrument that a snapshot quotes first. -/
def canHold (a : Aggregator) (s : Snapshot) : Bool :=
  isReservable a.window || s.quotes.all fun q ↦ a.series.contains q.instrument

/-- Take in one snapshot, unless storage for a new series cannot be reserved. -/
def ingest? (a : Aggregator) (s : Snapshot) : Option (Aggregator × Outcome) :=
  if a.canHold s then some (a.ingest s) else none

/-- Take in snapshots one after another. -/
def ingestAll (a : Aggregator) (ss : List Snapshot) : Aggregator :=
  ss.foldl (fun a s ↦ (a.ingest s).1) a

/-- The samples of an instrument, the oldest first; none if it was never quoted. -/
def samples (a : Aggregator) (instrument : Identifier) : List Sample :=
  ((a.series.get? instrument).map (·.toList)).getD []

/-- The latest positions in an instrument. -/
def positionsFor (a : Aggregator) (instrument : Identifier) : List Position :=
  heldIn instrument a.positions

/-- The instruments quoted so far, in increasing order. -/
def instruments (a : Aggregator) : List Identifier := a.series.keys

end Aggregator

/-- A copy of the state of an aggregator. -/
structure View where
  version : Nat
  series : Table Identifier (List Sample)
  positions : List Position
  deriving DecidableEq

namespace View

/-- The view of nothing. -/
def empty : View := ⟨0, .empty, []⟩

/-- The samples of an instrument, the oldest first. -/
def samples (v : View) (instrument : Identifier) : List Sample :=
  (v.series.get? instrument).getD []

/-- The positions in an instrument. -/
def positionsFor (v : View) (instrument : Identifier) : List Position :=
  heldIn instrument v.positions

end View

/-- Copy the present state. -/
def Aggregator.view (a : Aggregator) : View :=
  ⟨a.version, a.series.map (·.toList), a.positions⟩

/-- A view has the samples of the state it was taken of. -/
theorem View.samples_view (a : Aggregator) (instrument : Identifier) :
    a.view.samples instrument = a.samples instrument := by
  simp [View.samples, Aggregator.view, Aggregator.samples, Table.get?_map]

/-- A view has the positions of the state it was taken of. -/
theorem View.positionsFor_view (a : Aggregator) (instrument : Identifier) :
    a.view.positionsFor instrument = a.positionsFor instrument := rfl

/-- Each snapshot raises the version by one. -/
theorem Aggregator.version_ingest (a : Aggregator) (s : Snapshot) :
    (a.ingest s).1.version = a.version + 1 := rfl

/-- The window never changes. -/
theorem Aggregator.window_ingest (a : Aggregator) (s : Snapshot) :
    (a.ingest s).1.window = a.window := rfl

end Quoteboard.Board
