import Quoteboard.Json.Record
import Quoteboard.Market.Snapshot

/-!
# Records of a snapshot

How identifiers, quotes and positions are written as JSON, apart from the names of the records
and of some of their fields, which differ between the feed and the stored form.
-/

namespace Quoteboard.Market

open Quoteboard.Json Quoteboard.Text

/-- The identifier that a value stands for: a signed 64-bit integer or a string. -/
def Identifier.ofValue? : Value → Option Identifier
  | .integer n => if fitsInt64 n then some (.id n) else none
  | .text s => some (.name s)
  | _ => none

/-- Read an identifier. The value is read whole before its kind is looked at. -/
def Identifier.read : Reader Identifier := fun room node ↦ do
  let value ← node.read room
  match ofValue? value with
  | some k => pure k
  | none => .error (.noVariant "Identifier")

/-- A quote of which some fields have been read. -/
structure QuoteDraft where
  instrument : Option Identifier
  bestBid : Option Float
  bestAsk : Option Float

/-- A position of which some fields have been read. -/
structure PositionDraft where
  client : Option Identifier
  instrument : Option Identifier
  size : Option Float
  profit : Option Float
  volume : Option Float

/-- A quote as a record, given the record's name and the name of its instrument field. -/
def Quote.schema (record instrument : String) : Schema QuoteDraft Quote where
  name := record
  fields := [
    { name := instrument
      isSet := fun d ↦ d.instrument.isSome
      read := fun room node ↦
        (Identifier.read room node).map fun v d ↦ { d with instrument := some v }
      mayEndBefore := false },
    { name := "best_bid"
      isSet := fun d ↦ d.bestBid.isSome
      read := fun room node ↦ (readDouble room node).map fun v d ↦ { d with bestBid := some v }
      mayEndBefore := false },
    { name := "best_ask"
      isSet := fun d ↦ d.bestAsk.isSome
      read := fun room node ↦ (readDouble room node).map fun v d ↦ { d with bestAsk := some v }
      mayEndBefore := false }]
  blank := ⟨none, none, none⟩
  finish := fun d ↦ do
    let key ← required instrument d.instrument
    let bid ← required "best_bid" d.bestBid
    let ask ← required "best_ask" d.bestAsk
    pure ⟨key, bid, ask⟩

/-- A position as a record, given the record's name and the name of its instrument field. -/
def Position.schema (record instrument : String) : Schema PositionDraft Position where
  name := record
  fields := [
    { name := "client_id"
      isSet := fun d ↦ d.client.isSome
      read := fun room node ↦ (Identifier.read room node).map fun v d ↦ { d with client := some v }
      mayEndBefore := false },
    { name := instrument
      isSet := fun d ↦ d.instrument.isSome
      read := fun room node ↦
        (Identifier.read room node).map fun v d ↦ { d with instrument := some v }
      mayEndBefore := false },
    { name := "position"
      isSet := fun d ↦ d.size.isSome
      read := fun room node ↦ (readDouble room node).map fun v d ↦ { d with size := some v }
      mayEndBefore := false },
    { name := "pnl"
      isSet := fun d ↦ d.profit.isSome
      read := fun room node ↦ (readDouble room node).map fun v d ↦ { d with profit := some v }
      mayEndBefore := false },
    { name := "volume"
      isSet := fun d ↦ d.volume.isSome
      read := fun room node ↦ (readDouble room node).map fun v d ↦ { d with volume := some v }
      mayEndBefore := false }]
  blank := ⟨none, none, none, none, none⟩
  finish := fun d ↦ do
    let client ← required "client_id" d.client
    let key ← required instrument d.instrument
    let size ← required "position" d.size
    let profit ← required "pnl" d.profit
    let volume ← required "volume" d.volume
    pure ⟨client, key, size, profit, volume⟩

/-- A snapshot of which some fields have been read. Its positions are read as `none` where they
are written as `null`. -/
structure SnapshotDraft where
  timestamp : Option Int
  quotes : Option (List Quote)
  positions : Option (Option (List Position))

/-- A snapshot as a record, given the names that differ between its forms and the readers of its
quotes and positions. Absent positions count as `null`; in the array form they may be absent only
where `positionsMayEnd` says so. -/
def Snapshot.schema (record quotes : String) (readQuotes : Reader (List Quote))
    (readPosition : Reader Position) (positionsMayEnd : Bool) : Schema SnapshotDraft Snapshot where
  name := record
  fields := [
    { name := "timestamp"
      isSet := fun d ↦ d.timestamp.isSome
      read := fun room node ↦ (readInt64 room node).map fun v d ↦ { d with timestamp := some v }
      mayEndBefore := false },
    { name := quotes
      isSet := fun d ↦ d.quotes.isSome
      read := fun room node ↦ (readQuotes room node).map fun v d ↦ { d with quotes := some v }
      mayEndBefore := false },
    { name := "positions"
      isSet := fun d ↦ d.positions.isSome
      read := fun room node ↦
        (readOptional (readSequence readPosition) room node).map fun v d ↦
          { d with positions := some v }
      mayEndBefore := positionsMayEnd }]
  blank := ⟨none, none, none⟩
  finish := fun d ↦ do
    let timestamp ← required "timestamp" d.timestamp
    let entries ← required quotes d.quotes
    pure ⟨timestamp, entries, d.positions.getD none⟩

end Quoteboard.Market
