import Quoteboard.Board.Aggregator
import Quoteboard.Chart.Labels

/-!
# Chart frames

What a chart needs to draw one instrument: the bid line, the ask line, and the bounds of the price
axis. An update has one panel for each instrument of a view.
-/

namespace Quoteboard.Chart

open Quoteboard.Market Quoteboard.Board

/-- One plotted point. -/
structure Point where
  x : Float
  y : Float
  deriving DecidableEq, Repr

/-- How far the axis reaches beyond the least and the greatest price. -/
def axisPadding : Float := 1.0

/-- The lesser of two prices; of a price and a value that is no number, the price. -/
def lesser (a b : Float) : Float :=
  if a.isNaN then b else if b.isNaN then a else if a ≤ b then a else b

/-- The greater of two prices; of a price and a value that is no number, the price. -/
def greater (a b : Float) : Float :=
  if a.isNaN then b else if b.isNaN then a else if b ≤ a then a else b

/-- The least of some prices. -/
def least? : List Float → Option Float
  | [] => none
  | y :: ys => some (ys.foldl lesser y)

/-- The greatest of some prices. -/
def greatest? : List Float → Option Float
  | [] => none
  | y :: ys => some (ys.foldl greater y)

/-- The chart of one instrument. -/
structure Frame where
  instrument : Identifier
  label : String
  bids : List Point
  asks : List Point
  /-- The lower bound of the price axis, if there are prices. -/
  yMin : Option Float
  /-- The upper bound of the price axis, if there are prices. -/
  yMax : Option Float
  deriving DecidableEq, Repr

/-- All prices of some samples: the bids, then the asks. -/
def prices (samples : List Sample) : List Float :=
  samples.map (·.bestBid) ++ samples.map (·.bestAsk)

namespace Frame

/-- The chart of an instrument's samples, the oldest first. -/
def ofSamples (instrument : Identifier) (label : String) (samples : List Sample) : Frame where
  instrument := instrument
  label := label
  bids := samples.map fun s ↦ ⟨s.time, s.bestBid⟩
  asks := samples.map fun s ↦ ⟨s.time, s.bestAsk⟩
  yMin := (least? (prices samples)).map (· - axisPadding)
  yMax := (greatest? (prices samples)).map (· + axisPadding)

/-- The number of samples shown. -/
def size (f : Frame) : Nat := f.bids.length

/-- Whether no sample is shown. -/
def isEmpty (f : Frame) : Bool := f.bids.isEmpty

/-- A frame shows as many bids as there are samples. -/
theorem size_ofSamples (instrument : Identifier) (label : String) (samples : List Sample) :
    (ofSamples instrument label samples).size = samples.length := by
  simp [size, ofSamples]

end Frame

/-- The chart of one instrument and the positions held in it. -/
structure Panel where
  frame : Frame
  positions : List Position
  deriving DecidableEq, Repr

/-- All that is drawn at one version: a panel for each instrument, in increasing order. -/
structure Update where
  version : Nat
  panels : List Panel
  deriving DecidableEq, Repr

/-- The panel of one instrument of a view. -/
def Panel.ofView (v : View) (labels : Labels) (instrument : Identifier) (samples : List Sample) :
    Panel :=
  ⟨Frame.ofSamples instrument (labels.label instrument) samples, v.positionsFor instrument⟩

/-- The update that draws a view. -/
def Update.ofView (v : View) (labels : Labels) : Update :=
  ⟨v.version, v.series.toList.map fun e ↦ Panel.ofView v labels e.1 e.2⟩

/-- The sum of doubles, added from the left to a negative zero. -/
def total (xs : List Float) : Float :=
  xs.foldl (· + ·) (-0.0)

/-- What is said about a panel in one line. -/
structure Summary where
  label : String
  samples : Nat
  bestBid : Option Float
  bestAsk : Option Float
  yMin : Option Float
  yMax : Option Float
  positions : Nat
  netPosition : Float
  totalProfit : Float
  deriving DecidableEq, Repr

/-- Sum up a panel. -/
def Panel.summary (p : Panel) : Summary where
  label := p.frame.label
  samples := p.frame.size
  bestBid := p.frame.bids.getLast?.map (·.y)
  bestAsk := p.frame.asks.getLast?.map (·.y)
  yMin := p.frame.yMin
  yMax := p.frame.yMax
  positions := p.positions.length
  netPosition := total (p.positions.map (·.size))
  totalProfit := total (p.positions.map (·.profit))

end Quoteboard.Chart
