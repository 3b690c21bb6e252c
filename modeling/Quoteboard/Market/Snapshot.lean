import Quoteboard.Market.Identifier

/-!
# Snapshots

One message from the source of quotes: the best bid and ask of some instruments at one moment
and, if the message carries them, the positions of all clients.
-/

namespace Quoteboard.Market

/-- The best bid and the best ask for one instrument. -/
structure Quote where
  instrument : Identifier
  bestBid : Float
  bestAsk : Float
  deriving DecidableEq, Repr

/-- What one client holds in one instrument. -/
structure Position where
  client : Identifier
  instrument : Identifier
  size : Float
  profit : Float
  volume : Float
  deriving DecidableEq, Repr

/-- One message: its source timestamp, its quotes in order, and a full set of positions unless it
carries none. -/
structure Snapshot where
  timestamp : Int
  quotes : List Quote
  positions : Option (List Position)
  deriving DecidableEq, Repr

end Quoteboard.Market
