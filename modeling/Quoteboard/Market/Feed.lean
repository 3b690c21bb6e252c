import Quoteboard.Market.Drafts
import Quoteboard.Table

/-!
# The feed format

A message of the feed is a JSON record with the fields `timestamp`, `snapshot` and, optionally,
`positions`. The snapshot is an array of quotes, or an object whose values are quotes. An object
yields one quote for each key, the last one written: first the keys that are unsigned 64-bit
numerals, by number, then the others by their code points.
-/

namespace Quoteboard.Market.Feed

open Quoteboard.Json Quoteboard.Text

-- Other instances may be in scope; all that compare payloads are to use the same one.
instance (priority := high) instDecidableEqBytes : DecidableEq ByteArray :=
  ByteArray.instDecidableEq

/-- What is received as one message. -/
inductive Payload where
  | text (content : String)
  | binary (content : ByteArray)
  deriving DecidableEq

/-- Why a payload is discarded. -/
inductive ProtocolError where
  /-- The payload is no message of the feed; the wording of the cause is given. -/
  | malformed (cause : String)
  /-- The bytes are not UTF-8. -/
  | notUtf8
  deriving DecidableEq, Repr

/-- The wording of a discarded payload. -/
def ProtocolError.message : ProtocolError → String
  | .malformed cause => "malformed snapshot: " ++ cause
  | .notUtf8 => "binary payload is not UTF-8"

/-- The value of the only member with this name. -/
def only? (name : String) (members : List (String × Value)) : Option Value :=
  match members.filter (·.1 = name) with
  | [(_, value)] => some value
  | _ => none

/-- The double that a value stands for. -/
def doubleOf? : Value → Option Float
  | .integer n => some (doubleOfInt n)
  | .real x => some x
  | _ => none

/-- The quote with these three fields. -/
def quoteOfFields? (symbol bid ask : Value) : Option Quote := do
  let instrument ← Identifier.ofValue? symbol
  let bestBid ← doubleOf? bid
  let bestAsk ← doubleOf? ask
  pure ⟨instrument, bestBid, bestAsk⟩

/-- The quote that a value stands for: an object with each of the three fields once, or an array
of exactly the three. -/
def quoteOf? : Value → Option Quote
  | .object members => do
    let symbol ← only? "symbol" members
    let bid ← only? "best_bid" members
    let ask ← only? "best_ask" members
    quoteOfFields? symbol bid ask
  | .array [symbol, bid, ask] => quoteOfFields? symbol bid ask
  | _ => none

/-- The index that a key stands for, if it is an unsigned 64-bit numeral. -/
def index? (key : String) : Option Nat :=
  unsigned? maxUInt64 key.toList

/-- The quotes of an object in the order of their keys. -/
def inKeyOrder (quotes : Table String Quote) : List Quote :=
  let indexed := quotes.toList.filterMap fun e ↦ (index? e.1).map (·, e.2)
  let named := quotes.toList.filter fun e ↦ (index? e.1).isNone
  (indexed.mergeSort fun a b ↦ a.1 ≤ b.1).map (·.2) ++ named.map (·.2)

/-- The quote of one member of an object. -/
def memberQuote? (member : String × Value) : Option (String × Quote) :=
  (quoteOf? member.2).map (member.1, ·)

/-- The quotes that a value stands for. -/
def quotesOf? : Value → Option (List Quote)
  | .array items => items.mapM quoteOf?
  | .object members => (members.mapM memberQuote?).map fun ms ↦ inKeyOrder (Table.ofList ms)
  | _ => none

/-- Read the quotes of a message. The value is read whole before its shape is looked at. -/
def readQuotes : Reader (List Quote) := fun room node ↦ do
  let value ← node.read room
  match quotesOf? value with
  | some quotes => pure quotes
  | none => .error (.noVariant "WireEntries")

/-- A message of the feed as a record. -/
def schema : Schema SnapshotDraft Snapshot :=
  Snapshot.schema "WireSnapshot" "snapshot" readQuotes
    (Position.schema "WirePosition" "symbol").read true

/-- Decode the text of a message. -/
def decode (text : String) : Except Json.Error Snapshot :=
  readDocument schema.read text

/-- Decode a text, and put the cause into words if that fails. -/
def receiveText (text : String) : Except ProtocolError Snapshot :=
  (decode text).mapError fun cause ↦ .malformed cause.message

/-- Decode a payload; bytes have to hold UTF-8 text. -/
def receive : Payload → Except ProtocolError Snapshot
  | .text content => receiveText content
  | .binary content =>
    match String.fromUTF8? content with
    | some text => receiveText text
    | none => .error .notUtf8

end Quoteboard.Market.Feed
