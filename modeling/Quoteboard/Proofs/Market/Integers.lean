import Quoteboard.Proofs.Json.Editing
import Quoteboard.Proofs.Market.Shapes

/-!
# Numbers that stand for integers

A timestamp is an integer, and an identifier may be one. Whatever number literal is written where a
message has one, the message is decoded exactly if the literal is a signed 64-bit integer, and then
to the message that has this integer there; any other literal is refused, never rounded or cut.
-/

namespace Quoteboard.Market.Feed

open Quoteboard.Json

/-! ### Where an integer may stand -/

/-- The identifiers of a position. -/
inductive PositionKey where
  | client
  | instrument

/-- The name of the field that holds the identifier. -/
def PositionKey.field : PositionKey → String
  | .client => "client_id"
  | .instrument => "symbol"

/-- The position with another identifier. -/
def PositionKey.set (key : PositionKey) (k : Identifier) (p : Position) : Position :=
  match key with
  | .client => { p with client := k }
  | .instrument => { p with instrument := k }

/-- Where an integer may stand in a message: its timestamp, the identifier of the quote with a
number, or one of those of the position with a number. -/
inductive Place where
  | timestamp
  | quote (i : Nat)
  | position (i : Nat) (key : PositionKey)

/-- Whether a message has this place. -/
def Place.IsIn (node : Node) : Place → Prop
  | .timestamp => True
  | .quote i => ∃ quotes ∈ node.valuesOf messageFields "snapshot", i < quotes.parts.length
  | .position i _ => ∃ positions ∈ node.valuesOf messageFields "positions",
      i < positions.parts.length

/-- A quote in which a number is the identifier. -/
def quoteWith (l : Literal) (quote : Node) : Node :=
  quote.modifyField quoteFields "symbol" fun _ ↦ .number l

/-- A position in which a number is this identifier. -/
def positionWith (l : Literal) (key : PositionKey) (position : Node) : Node :=
  position.modifyField positionFields key.field fun _ ↦ .number l

/-- The field of a message that has this place. -/
def Place.field : Place → String
  | .timestamp => "timestamp"
  | .quote _ => "snapshot"
  | .position _ _ => "positions"

/-- What the value of this field becomes when a number is put in the place. -/
def Place.put (l : Literal) : Place → Node → Node
  | .timestamp => fun _ ↦ .number l
  | .quote i => (·.modifyPart i (quoteWith l))
  | .position i key => (·.modifyPart i (positionWith l key))

/-- A message in which a number stands in this place. -/
def messageWith (l : Literal) (node : Node) (place : Place) : Node :=
  node.modifyField messageFields place.field (place.put l)

/-- The quotes that are written, with another identifier in the one with this number. In an object
that is the quote of a member, which counts unless its key is repeated behind it. -/
inductive AreQuotesWith (i : Nat) (k : Identifier) : Node → List Quote → Prop
  | array {items : Items} {quotes : List Quote} (each : List.Forall₂ IsQuote items.toList quotes) :
      AreQuotesWith i k (.array items) (quotes.modify i ({ · with instrument := k }))
  | object {members : Members} {named entries : List (String × Quote)}
      (each : AreNamed members.toList named)
      (are : AreEntries (named.modify i fun e ↦ (e.1, { e.2 with instrument := k })) entries) :
      AreQuotesWith i k (.object members) (entries.map (·.2))

/-- Whether a message differs from another, which was written as this tree, by an integer in this
place and in nothing else. -/
def Place.Holds (node : Node) (m : Snapshot) (n : Int) (m' : Snapshot) : Place → Prop
  | .timestamp => m' = { m with timestamp := n }
  | .quote i => ∃ quotes, Only (node.valuesOf messageFields "snapshot")
      (AreQuotesWith i (.id n) · quotes) ∧ m' = { m with quotes := quotes }
  | .position i key =>
    m' = { m with positions := m.positions.map (·.modify i (key.set (.id n))) }

variable {l : Literal} {node : Node} {i : Nat}

/-! ### One record -/

/-- A number is an identifier if it is an integer. -/
theorem isIdentifier_number_iff {k : Identifier} :
    IsIdentifier (.number l) k ↔ ∃ n, (Node.number l).IsInt64 n ∧ k = .id n := by
  cases k with
  | id n => simp [IsIdentifier]
  | name s => simp [IsIdentifier]

/-- A field with a number in it is an identifier if the number is an integer. -/
theorem only_isIdentifier_iff {names : List String} {name : String} {such : Node → Prop}
    (some_value : Only (node.valuesOf names name) such) {k : Identifier} :
    Only ((node.modifyField names name fun _ ↦ .number l).valuesOf names name) (IsIdentifier · k) ↔
      ∃ n, (Node.number l).IsInt64 n ∧ k = .id n := by
  obtain ⟨_, one, -⟩ := some_value
  rw [Node.valuesOf_modifyField_self, one, List.map_singleton, only_singleton_iff,
    isIdentifier_number_iff]

/-- A value is one identifier at most. -/
theorem IsIdentifier.unique {k k' : Identifier} (h : IsIdentifier node k)
    (h' : IsIdentifier node k') : k' = k := by
  rw [← @identifier_read_eq_ok_iff 0] at h h'
  exact Except.ok.inj (h'.symm.trans h)

/-- A value is one quote at most. -/
theorem IsQuote.unique {q q' : Quote} (h : IsQuote node q) (h' : IsQuote node q') : q' = q := by
  obtain ⟨k, bid, ask⟩ := q'
  obtain rfl : k = q.instrument := h.instrument.unique h'.instrument fun _ ↦ IsIdentifier.unique
  obtain rfl : bid = q.bestBid := h.bestBid.unique h'.bestBid fun _ ↦ Node.IsDouble.unique
  obtain rfl : ask = q.bestAsk := h.bestAsk.unique h'.bestAsk fun _ ↦ Node.IsDouble.unique
  rfl

/-- A value is one position at most. -/
theorem IsPosition.unique {p p' : Position} (h : IsPosition node p) (h' : IsPosition node p') :
    p' = p := by
  obtain ⟨client, instrument, size, profit, volume⟩ := p'
  obtain rfl : client = p.client := h.client.unique h'.client fun _ ↦ IsIdentifier.unique
  obtain rfl : instrument = p.instrument :=
    h.instrument.unique h'.instrument fun _ ↦ IsIdentifier.unique
  obtain rfl : size = p.size := h.size.unique h'.size fun _ ↦ Node.IsDouble.unique
  obtain rfl : profit = p.profit := h.profit.unique h'.profit fun _ ↦ Node.IsDouble.unique
  obtain rfl : volume = p.volume := h.volume.unique h'.volume fun _ ↦ Node.IsDouble.unique
  rfl

/-- A quote with a number for its identifier is a quote if the number is an integer. -/
theorem isQuote_quoteWith_iff {q q' : Quote} (is_quote : IsQuote node q) :
    IsQuote (quoteWith l node) q' ↔
      ∃ n, (Node.number l).IsInt64 n ∧ q' = { q with instrument := .id n } := by
  obtain ⟨record, instrument, best_bid, best_ask⟩ := is_quote
  have kept {name : String} (differ : name ≠ "symbol") :
      (quoteWith l node).valuesOf quoteFields name = node.valuesOf quoteFields name :=
    Node.valuesOf_modifyField_of_ne (by decide) differ
  constructor
  · rintro ⟨-, instrument', best_bid', best_ask'⟩
    rw [kept (by decide)] at best_bid' best_ask'
    obtain ⟨n, is_integer, is_id⟩ := (only_isIdentifier_iff instrument).mp instrument'
    have bid := best_bid.unique best_bid' fun _ ↦ Node.IsDouble.unique
    have ask := best_ask.unique best_ask' fun _ ↦ Node.IsDouble.unique
    exact ⟨n, is_integer, by rw [← is_id, ← bid, ← ask]⟩
  · rintro ⟨n, is_integer, rfl⟩
    have is_id := (only_isIdentifier_iff instrument).mpr ⟨n, is_integer, rfl⟩
    rw [← kept (by decide)] at best_bid best_ask
    exact ⟨Node.isRecord_modifyField.mpr record, is_id, best_bid, best_ask⟩

/-- A position with a number for one of its identifiers is a position if the number is an
integer. -/
theorem isPosition_positionWith_iff {key : PositionKey} {p p' : Position}
    (is_position : IsPosition node p) : IsPosition (positionWith l key node) p' ↔
      ∃ n, (Node.number l).IsInt64 n ∧ p' = key.set (.id n) p := by
  have kept {name : String} (differ : name ≠ key.field) :
      (positionWith l key node).valuesOf positionFields name = node.valuesOf positionFields name :=
    Node.valuesOf_modifyField_of_ne (by cases key <;> decide) differ
  obtain ⟨record, client, instrument, size, profit, volume⟩ := is_position
  constructor
  · rintro ⟨-, client', instrument', size', profit', volume'⟩
    rw [kept (by cases key <;> decide)] at size' profit' volume'
    have same_size := size.unique size' fun _ ↦ Node.IsDouble.unique
    have same_profit := profit.unique profit' fun _ ↦ Node.IsDouble.unique
    have same_volume := volume.unique volume' fun _ ↦ Node.IsDouble.unique
    cases key with
    | client =>
      obtain ⟨n, is_integer, is_id⟩ := (only_isIdentifier_iff client).mp client'
      rw [kept (by decide)] at instrument'
      have same_instrument := instrument.unique instrument' fun _ ↦ IsIdentifier.unique
      refine ⟨n, is_integer, ?_⟩
      rw [PositionKey.set, ← is_id, ← same_instrument, ← same_size, ← same_profit, ← same_volume]
    | instrument =>
      obtain ⟨n, is_integer, is_id⟩ := (only_isIdentifier_iff instrument).mp instrument'
      rw [kept (by decide)] at client'
      have same_client := client.unique client' fun _ ↦ IsIdentifier.unique
      refine ⟨n, is_integer, ?_⟩
      rw [PositionKey.set, ← is_id, ← same_client, ← same_size, ← same_profit, ← same_volume]
  · rintro ⟨n, is_integer, rfl⟩
    have record' : (positionWith l key node).IsRecord positionFields :=
      Node.isRecord_modifyField.mpr record
    rw [← kept (by cases key <;> decide)] at size profit volume
    cases key with
    | client =>
      have is_id := (only_isIdentifier_iff client).mpr ⟨n, is_integer, rfl⟩
      rw [← kept (by decide)] at instrument
      exact ⟨record', is_id, instrument, size, profit, volume⟩
    | instrument =>
      have is_id := (only_isIdentifier_iff instrument).mpr ⟨n, is_integer, rfl⟩
      rw [← kept (by decide)] at client
      exact ⟨record', client, is_id, size, profit, volume⟩

/-! ### One record among others -/

/-- Where the element with a number becomes another, so does what it is. -/
theorem forall₂_modify_iff {α β : Type} {r : α → β → Prop} {f : α → α} {p : Int → Prop}
    {g : Int → β → β} {xs : List α} {ys ys' : List β} (each : List.Forall₂ r xs ys)
    (one : Relator.RightUnique r)
    (becomes : ∀ x y y', r x y → (r (f x) y' ↔ ∃ n, p n ∧ y' = g n y)) (inside : i < xs.length) :
    List.Forall₂ r (xs.modify i f) ys' ↔ ∃ n, p n ∧ ys' = ys.modify i (g n) := by
  -- Behind the place nothing changes, so that what stands there is what it was.
  induction each generalizing i ys' with
  | nil => cases inside
  | @cons x y xs ys here others ih =>
    cases i with
    | zero =>
      simp only [List.modify_zero_cons, List.forall₂_cons_left_iff, becomes x y _ here]
      constructor
      · rintro ⟨_, ys', ⟨n, such, rfl⟩, others', rfl⟩
        exact ⟨n, such, by rw [List.right_unique_forall₂' one others' others]⟩
      · rintro ⟨n, such, rfl⟩
        exact ⟨_, _, ⟨n, such, rfl⟩, others, rfl⟩
    | succ i =>
      simp only [List.modify_succ_cons, List.forall₂_cons_left_iff,
        ih (Nat.lt_of_succ_lt_succ inside)]
      constructor
      · rintro ⟨y', _, here', ⟨n, such, rfl⟩, rfl⟩
        exact ⟨n, such, by rw [one here here']⟩
      · rintro ⟨n, such, rfl⟩
        exact ⟨y, _, here, ⟨n, such, rfl⟩, rfl⟩

/-- Items are quotes, with a number for the identifier of one, if the number is an integer. -/
theorem forall₂_quoteWith_iff {items : List Node} {quotes quotes' : List Quote}
    (each : List.Forall₂ IsQuote items quotes) (inside : i < items.length) :
    List.Forall₂ IsQuote (items.modify i (quoteWith l)) quotes' ↔
      ∃ n, (Node.number l).IsInt64 n ∧
        quotes' = quotes.modify i ({ · with instrument := .id n }) :=
  forall₂_modify_iff each (fun _ _ _ h h' ↦ (h.unique h').symm)
    (fun _ _ _ ↦ isQuote_quoteWith_iff) inside

/-- Members are quotes, with a number for the identifier of one, if the number is an integer. -/
theorem areNamed_quoteWith_iff {members : List (RawText × Node)}
    {named named' : List (String × Quote)} (each : AreNamed members named)
    (inside : i < members.length) :
    AreNamed (members.modify i fun member ↦ (member.1, quoteWith l member.2)) named' ↔
      ∃ n, (Node.number l).IsInt64 n ∧
        named' = named.modify i fun e ↦ (e.1, { e.2 with instrument := .id n }) := by
  refine forall₂_modify_iff each ?_ ?_ inside
  · rintro member ⟨name, q⟩ ⟨name', q'⟩ ⟨denotes, is_quote⟩ ⟨denotes', is_quote'⟩
    exact Prod.ext (denotes'.unique denotes) (is_quote'.unique is_quote)
  · rintro member ⟨name, q⟩ ⟨name', q'⟩ ⟨denotes, is_quote⟩
    simp only [isQuote_quoteWith_iff is_quote, Prod.mk.injEq]
    constructor
    · rintro ⟨denotes', n, is_integer, rfl⟩
      exact ⟨n, is_integer, denotes.unique denotes', rfl⟩
    · rintro ⟨n, is_integer, rfl, rfl⟩
      exact ⟨denotes, n, is_integer, rfl⟩

/-- Quotes with a number for the identifier of one are quotes if the number is an integer. -/
theorem areQuotes_modifyPart_iff {quotes quotes' : List Quote} (are : AreQuotes node quotes)
    (inside : i < node.parts.length) : AreQuotes (node.modifyPart i (quoteWith l)) quotes' ↔
      ∃ n, (Node.number l).IsInt64 n ∧ AreQuotesWith i (.id n) node quotes' := by
  cases are with
  | @array items _ each =>
    constructor
    · rintro ⟨each'⟩
      rw [Items.toList_modify, forall₂_quoteWith_iff each inside] at each'
      obtain ⟨n, is_integer, rfl⟩ := each'
      exact ⟨n, is_integer, .array each⟩
    · rintro ⟨n, is_integer, ⟨each'⟩⟩
      refine .array ?_
      rw [Items.toList_modify, forall₂_quoteWith_iff each' inside]
      exact ⟨n, is_integer, rfl⟩
  | @object members _ _ each _ =>
    rw [Node.parts, List.length_map] at inside
    constructor
    · intro are'
      cases are' with
      | object each' entries =>
        rw [Members.toList_modify] at each'
        obtain ⟨n, is_integer, rfl⟩ := (areNamed_quoteWith_iff each inside).mp each'
        exact ⟨n, is_integer, .object each entries⟩
    · rintro ⟨n, is_integer, with_it⟩
      cases with_it with
      | object each' entries =>
        refine .object ?_ entries
        rw [Members.toList_modify]
        exact (areNamed_quoteWith_iff each' inside).mpr ⟨n, is_integer, rfl⟩

/-- Quotes may have any identifier in the place of one. -/
theorem exists_areQuotesWith {quotes : List Quote} (are : AreQuotes node quotes) (i : Nat)
    (k : Identifier) : ∃ quotes', AreQuotesWith i k node quotes' := by
  cases are with
  | array each => exact ⟨_, .array each⟩
  | object each => exact ⟨_, .object each (areEntries_ordered _)⟩

/-- Items are positions, with a number for an identifier of one, if the number is an integer. -/
theorem forall₂_positionWith_iff {key : PositionKey} {items : List Node}
    {positions positions' : List Position} (each : List.Forall₂ IsPosition items positions)
    (inside : i < items.length) :
    List.Forall₂ IsPosition (items.modify i (positionWith l key)) positions' ↔
      ∃ n, (Node.number l).IsInt64 n ∧ positions' = positions.modify i (key.set (.id n)) :=
  forall₂_modify_iff each (fun _ _ _ h h' ↦ (h.unique h').symm)
    (fun _ _ _ ↦ isPosition_positionWith_iff) inside

/-- Positions with a number for an identifier of one are positions if the number is an integer. -/
theorem arePositions_modifyPart_iff {key : PositionKey}
    {positions positions' : Option (List Position)} (are : ArePositions [node] positions)
    (inside : i < node.parts.length) :
    ArePositions [node.modifyPart i (positionWith l key)] positions' ↔ ∃ n,
      (Node.number l).IsInt64 n ∧ positions' = positions.map (·.modify i (key.set (.id n))) := by
  cases are with
  | null => cases inside
  | @array items ps each =>
    constructor
    · intro are'
      cases are' with
      | array each' =>
        rw [Items.toList_modify, forall₂_positionWith_iff each inside] at each'
        obtain ⟨n, is_integer, rfl⟩ := each'
        exact ⟨n, is_integer, rfl⟩
    · rintro ⟨n, is_integer, rfl⟩
      refine .array ?_
      rw [Items.toList_modify, forall₂_positionWith_iff each inside]
      exact ⟨n, is_integer, rfl⟩

/-! ### Messages -/

/-- A message has one value for its positions at most. -/
theorem ArePositions.eq_singleton {values : List Node} {positions : Option (List Position)}
    (are : ArePositions values positions) {value : Node} (inside : value ∈ values) :
    values = [value] := by
  cases are with
  | absent => cases inside
  | null | array => rw [List.mem_singleton.mp inside]

/-- The value that has the place becomes another. -/
theorem valuesOf_messageWith {place : Place} {value : Node}
    (one : node.valuesOf messageFields place.field = [value]) :
    (messageWith l node place).valuesOf messageFields place.field = [place.put l value] := by
  rw [messageWith, Node.valuesOf_modifyField_self, one, List.map_singleton]

/-- The other values of a message stay. -/
theorem valuesOf_messageWith_of_ne {place : Place} {name : String} (differ : name ≠ place.field) :
    (messageWith l node place).valuesOf messageFields name = node.valuesOf messageFields name :=
  Node.valuesOf_modifyField_of_ne (by cases place <;> simp [Place.field, messageFields]) differ

section

variable {m m' : Snapshot} (is_message : IsMessage node m)
  (one : ∀ m', IsMessage node m' → m' = m)

include is_message one

private theorem isMessage_timestamp_iff : IsMessage (messageWith l node .timestamp) m' ↔
    ∃ n, (Node.number l).IsInt64 n ∧ Place.timestamp.Holds node m n m' := by
  obtain ⟨value, one_value, -⟩ := is_message.timestamp
  have changed : (messageWith l node .timestamp).valuesOf messageFields "timestamp" =
      [.number l] := valuesOf_messageWith one_value
  constructor
  · rintro ⟨-, timestamp', quotes', positions'⟩
    rw [changed, only_singleton_iff] at timestamp'
    rw [valuesOf_messageWith_of_ne (by simp [Place.field])] at quotes' positions'
    -- With the old timestamp put back, the message is what the old tree is, so the rest has stayed.
    have same := one { m' with timestamp := m.timestamp }
      ⟨is_message.record, is_message.timestamp, quotes', positions'⟩
    exact ⟨m'.timestamp, timestamp', by rw [Place.Holds, ← same]⟩
  · rintro ⟨n, is_integer, rfl⟩
    refine ⟨Node.isRecord_modifyField.mpr is_message.record, ?_, ?_, ?_⟩
    · rwa [changed, only_singleton_iff]
    · rw [valuesOf_messageWith_of_ne (by simp [Place.field])]
      exact is_message.quotes
    · rw [valuesOf_messageWith_of_ne (by simp [Place.field])]
      exact is_message.positions

private theorem isMessage_quote_iff (inside : (Place.quote i).IsIn node) :
    IsMessage (messageWith l node (.quote i)) m' ↔
      ∃ n, (Node.number l).IsInt64 n ∧ (Place.quote i).Holds node m n m' := by
  obtain ⟨value, one_value, are⟩ := is_message.quotes
  obtain ⟨value', inside, there⟩ := inside
  obtain rfl : value' = value := List.mem_singleton.mp (one_value ▸ inside)
  have changed : (messageWith l node (.quote i)).valuesOf messageFields "snapshot" =
      [value'.modifyPart i (quoteWith l)] := valuesOf_messageWith one_value
  constructor
  · rintro ⟨-, timestamp', quotes', positions'⟩
    rw [changed, only_singleton_iff, areQuotes_modifyPart_iff are there] at quotes'
    rw [valuesOf_messageWith_of_ne (by simp [Place.field])] at timestamp' positions'
    obtain ⟨n, is_integer, with_it⟩ := quotes'
    have same := one { m' with quotes := m.quotes }
      ⟨is_message.record, timestamp', is_message.quotes, positions'⟩
    exact ⟨n, is_integer, m'.quotes, ⟨value', one_value, with_it⟩, by rw [← same]⟩
  · rintro ⟨n, is_integer, quotes', with_it, rfl⟩
    rw [one_value, only_singleton_iff] at with_it
    refine ⟨Node.isRecord_modifyField.mpr is_message.record, ?_, ?_, ?_⟩
    · rw [valuesOf_messageWith_of_ne (by simp [Place.field])]
      exact is_message.timestamp
    · rw [changed, only_singleton_iff, areQuotes_modifyPart_iff are there]
      exact ⟨n, is_integer, with_it⟩
    · rw [valuesOf_messageWith_of_ne (by simp [Place.field])]
      exact is_message.positions

private theorem isMessage_position_iff {key : PositionKey}
    (inside : (Place.position i key).IsIn node) :
    IsMessage (messageWith l node (.position i key)) m' ↔
      ∃ n, (Node.number l).IsInt64 n ∧ (Place.position i key).Holds node m n m' := by
  obtain ⟨value, inside, there⟩ := inside
  have one_value := is_message.positions.eq_singleton inside
  have are : ArePositions [value] m.positions := one_value ▸ is_message.positions
  have changed : (messageWith l node (.position i key)).valuesOf messageFields "positions" =
      [value.modifyPart i (positionWith l key)] := valuesOf_messageWith one_value
  constructor
  · rintro ⟨-, timestamp', quotes', positions'⟩
    rw [changed, arePositions_modifyPart_iff are there] at positions'
    rw [valuesOf_messageWith_of_ne (by simp [Place.field])] at timestamp' quotes'
    obtain ⟨n, is_integer, has⟩ := positions'
    have same := one { m' with positions := m.positions }
      ⟨is_message.record, timestamp', quotes', is_message.positions⟩
    exact ⟨n, is_integer, by rw [Place.Holds, ← has, ← same]⟩
  · rintro ⟨n, is_integer, rfl⟩
    refine ⟨Node.isRecord_modifyField.mpr is_message.record, ?_, ?_, ?_⟩
    · rw [valuesOf_messageWith_of_ne (by simp [Place.field])]
      exact is_message.timestamp
    · rw [valuesOf_messageWith_of_ne (by simp [Place.field])]
      exact is_message.quotes
    · rw [changed, arePositions_modifyPart_iff are there]
      exact ⟨n, is_integer, rfl⟩

/-- A message with a number in a place of an integer is a message if the number is an integer, and
then one that differs there only. -/
theorem isMessage_messageWith_iff {place : Place} (inside : place.IsIn node) :
    IsMessage (messageWith l node place) m' ↔
      ∃ n, (Node.number l).IsInt64 n ∧ place.Holds node m n m' := by
  cases place with
  | timestamp => exact isMessage_timestamp_iff is_message one
  | quote => exact isMessage_quote_iff is_message one inside
  | position => exact isMessage_position_iff is_message one inside

end

/-- In every place of a message there may be any integer. -/
theorem Place.exists_holds {m : Snapshot} (is_message : IsMessage node m) (place : Place)
    (n : Int) : ∃ m', place.Holds node m n m' := by
  cases place with
  | timestamp | position => exact ⟨_, rfl⟩
  | quote i =>
    obtain ⟨value, one_value, are⟩ := is_message.quotes
    obtain ⟨quotes', with_it⟩ := exists_areQuotesWith are i (.id n)
    exact ⟨_, quotes', ⟨value, one_value, with_it⟩, rfl⟩

/-- A number that is an integer is in reach wherever it stands. -/
theorem isReadable_of_isInt64 {n : Int} (is_integer : (Node.number l).IsInt64 n) {room : Nat} :
    (Node.number l).IsReadable room where
  depth_le := Nat.zero_le _
  value_isSome := by
    have value := (Literal.isInt64_iff.mp is_integer).1
    simp [Node.literals, value]
  denotes := by simp [Node.texts]

/-- A message keeps within the limits with an integer in a place. -/
theorem IsWithinLimits.messageWith (limits : IsWithinLimits node) {n : Int}
    (is_integer : (Node.number l).IsInt64 n) (place : Place) :
    IsWithinLimits (messageWith l node place) where
  names := Node.hasNames_modifyField.mpr limits.names
  quotes value inside := by
    cases place with
    | timestamp | position =>
      rw [valuesOf_messageWith_of_ne (by simp [Place.field])] at inside
      exact limits.quotes value inside
    | quote i =>
      have inside : value ∈ (node.valuesOf messageFields "snapshot").map
          (·.modifyPart i (quoteWith l)) := by
        rwa [← Node.valuesOf_modifyField_self]
      obtain ⟨quotes, before, rfl⟩ := List.mem_map.mp inside
      exact (limits.quotes quotes before).modifyPart fun quote readable ↦
        readable.modifyField fun _ _ ↦ isReadable_of_isInt64 is_integer
  positions items inside := by
    cases place with
    | timestamp | quote =>
      rw [valuesOf_messageWith_of_ne (by simp [Place.field])] at inside
      exact limits.positions items inside
    | position i key =>
      have inside : .array items ∈ (node.valuesOf messageFields "positions").map
          (·.modifyPart i (positionWith l key)) := by
        rwa [← Node.valuesOf_modifyField_self]
      obtain ⟨positions, before, becomes⟩ := List.mem_map.mp inside
      cases positions with
      | array items' =>
        cases becomes
        rw [Items.toList_modify]
        exact forall_mem_modify (limits.positions items' before) fun _ names ↦
          Node.hasNames_modifyField.mpr names
      | _ => cases becomes

/-- Where a message that is decoded has an integer, any number may be written: the text is decoded
exactly if the number is a signed 64-bit integer, and then to the message with this integer. -/
theorem decodes_integers_exactly {text : String} {m : Snapshot} {place : Place}
    (document : IsDocument node text.toList) (decoded : decode text = .ok m)
    (inside : place.IsIn node) (l : Literal) {text' : String}
    (document' : IsDocument (messageWith l node place) text'.toList) :
    ((∃ m', decode text' = .ok m') ↔ ∃ n, (Node.number l).IsInt64 n) ∧
    ∀ m', decode text' = .ok m' ↔
      ∃ n, (Node.number l).IsInt64 n ∧ place.Holds node m n m' := by
  obtain ⟨is_message, limits⟩ := (decode_eq_ok_iff_of_document document).mp decoded
  have one (m' : Snapshot) (is_message' : IsMessage node m') : m' = m := by
    have decoded' := (decode_eq_ok_iff_of_document document).mpr ⟨is_message', limits⟩
    exact Except.ok.inj (decoded'.symm.trans decoded)
  have which (m' : Snapshot) : decode text' = .ok m' ↔
      ∃ n, (Node.number l).IsInt64 n ∧ place.Holds node m n m' := by
    rw [decode_eq_ok_iff_of_document document', isMessage_messageWith_iff is_message one inside]
    refine and_iff_left_of_imp ?_
    rintro ⟨n, is_integer, -⟩
    exact limits.messageWith is_integer place
  refine ⟨?_, which⟩
  constructor
  · rintro ⟨m', decoded'⟩
    obtain ⟨n, is_integer, -⟩ := (which m').mp decoded'
    exact ⟨n, is_integer⟩
  · rintro ⟨n, is_integer⟩
    obtain ⟨m', holds⟩ := place.exists_holds is_message n
    exact ⟨m', (which m').mpr ⟨n, is_integer, holds⟩⟩

/-! ### The bounds of the integers -/

/-- The least signed 64-bit integer, as written. -/
def leastLiteral : Literal :=
  ⟨true, "9223372036854775808".toList.filterMap Text.digit?, none, none⟩

/-- One more than the greatest signed 64-bit integer, as written. -/
def beyondLiteral : Literal := { leastLiteral with negative := false }

/-- Two quotes, the first with the least integer for its identifier. -/
def leastText : String :=
  "\x7b\"timestamp\":1,\"snapshot\":[[-9223372036854775808,1,2],[\"b\",1,2]]\x7d"

/-- Two quotes, the first with a number for its identifier that is no signed 64-bit integer. -/
def beyondText : String :=
  "\x7b\"timestamp\":1,\"snapshot\":[[9223372036854775808,1,2],[\"b\",1,2]]\x7d"

theorem leastText_isDocument : IsDocument
    (messageWith leastLiteral (sampleFrame (.array sampleItems)) (.quote 0)) leastText.toList :=
  isDocument_iff.mpr ⟨by cbv, by cbv, rfl⟩

theorem beyondText_isDocument : IsDocument
    (messageWith beyondLiteral (sampleFrame (.array sampleItems)) (.quote 0)) beyondText.toList :=
  isDocument_iff.mpr ⟨by cbv, by cbv, rfl⟩

/-- The least integer is an identifier, and the number behind the greatest is not. -/
theorem decodes_least_integer : decode leastText = .ok
      ⟨1, [⟨.id (-9223372036854775808), doubleOfInt 1, doubleOfInt 2⟩,
        ⟨.name "b", doubleOfInt 1, doubleOfInt 2⟩], none⟩ ∧
    ¬ ∃ m, decode beyondText = .ok m := by
  have each : List.Forall₂ IsQuote sampleItems.toList sampleMessage.quotes :=
    .cons (sampleQuote_isQuote "a") (.cons (sampleQuote_isQuote "b") .nil)
  have decoded : decode listedText = .ok sampleMessage :=
    (decode_eq_ok_iff_of_quotes listedText_isDocument rfl).mpr
      ⟨sampleFrame_isFrame _, sampleItems_isReadable, .array each⟩
  have inside : (Place.quote 0).IsIn (sampleFrame (.array sampleItems)) :=
    ⟨_, List.mem_singleton_self _, by decide⟩
  constructor
  · have least : (Node.number leastLiteral).IsInt64 (-9223372036854775808) :=
      ⟨_, rfl, rfl, rfl, by decide, rfl⟩
    exact ((decodes_integers_exactly listedText_isDocument decoded inside leastLiteral
      leastText_isDocument).2 _).mpr ⟨_, least, _, ⟨_, rfl, .array each⟩, rfl⟩
  · rw [(decodes_integers_exactly listedText_isDocument decoded inside beyondLiteral
      beyondText_isDocument).1]
    rintro ⟨n, is_integer⟩
    obtain ⟨value, fits⟩ := Literal.isInt64_iff.mp is_integer
    have great : beyondLiteral.value? = some (.integer 9223372036854775808) := rfl
    rw [great] at value
    cases value
    cases fits

end Quoteboard.Market.Feed
