import Quoteboard.Json.Written
import Quoteboard.Market.Drafts

/-!
# The stored form of a snapshot

A snapshot written as JSON under the names of its own fields, and read back.
-/

namespace Quoteboard.Market

open Quoteboard.Json

/-- The value an identifier is written as. -/
def Identifier.toValue : Identifier → Value
  | .id n => .integer n
  | .name s => .text s

/-- The value a quote is written as. -/
def Quote.toValue (q : Quote) : Value :=
  .object [("instrument", q.instrument.toValue), ("best_bid", .real q.bestBid),
    ("best_ask", .real q.bestAsk)]

/-- The value a position is written as. -/
def Position.toValue (p : Position) : Value :=
  .object [("client_id", p.client.toValue), ("instrument_key", p.instrument.toValue),
    ("position", .real p.size), ("pnl", .real p.profit), ("volume", .real p.volume)]

/-- The value a snapshot is written as; absent positions are `null`. -/
def Snapshot.toValue (s : Snapshot) : Value :=
  .object [("timestamp", .integer s.timestamp), ("entries", .array (s.quotes.map Quote.toValue)),
    ("positions", match s.positions with
      | none => .null
      | some ps => .array (ps.map Position.toValue))]

/-- Write a snapshot. -/
def Snapshot.toText (s : Snapshot) : String :=
  s.toValue.toText

/-- A stored snapshot as a record. -/
def Snapshot.storedSchema : Schema SnapshotDraft Snapshot :=
  Snapshot.schema "SnapshotMessage" "entries"
    (readSequence (Quote.schema "QuoteEntry" "instrument").read)
    (Position.schema "PositionRecord" "instrument_key").read false

/-- Read a stored snapshot. -/
def Snapshot.ofText (text : String) : Except Json.Error Snapshot :=
  readDocument storedSchema.read text

/-- Read a stored identifier. -/
def Identifier.ofText (text : String) : Except Json.Error Identifier :=
  readDocument Identifier.read text

end Quoteboard.Market
