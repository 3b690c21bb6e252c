import Mathlib
import Quoteboard.Proofs.Market.Format

/-!
# Decoding accepts exactly the format

A text is decoded to a message exactly if it is a document whose tree is that message and keeps
within the limits of the reader; every other text is refused as malformed.
-/

namespace Quoteboard.Market

open Quoteboard.Json

/-! ### The records of the format -/

/-- The fields of a quote are independent of one another. -/
theorem Quote.schema_isLawful {record instrument : String}
    (fresh : instrument ∉ ["best_bid", "best_ask"]) :
    (Quote.schema record instrument).IsLawful := by
  simp only [List.mem_cons, List.not_mem_nil, or_false, not_or] at fresh
  obtain ⟨no_bid, no_ask⟩ := fresh
  have each {f : Json.Field QuoteDraft} (hf : f ∈ (Quote.schema record instrument).fields) := by
    simpa only [Quote.schema, List.mem_cons, List.not_mem_nil, or_false] using hf
  exact {
    nodup := by simp [Schema.names, Quote.schema, no_bid, no_ask]
    thorough := fun f hf room node set read ↦ by
      rcases each hf with rfl | rfl | rfl
      all_goals obtain ⟨v, read_value, -⟩ := map_eq_ok_iff.mp read
      · exact Feed.identifier_read_thorough read_value
      all_goals exact readDouble_thorough read_value
    isSet_blank := fun f hf ↦ by rcases each hf with rfl | rfl | rfl <;> rfl
    isSet_read := fun f hf g hg room node set d read ↦ by
      rcases each hf with rfl | rfl | rfl
      all_goals
        obtain ⟨v, -, rfl⟩ := map_eq_ok_iff.mp read
        rcases each hg with rfl | rfl | rfl
      all_goals simp [no_bid, no_ask, Ne.symm no_bid, Ne.symm no_ask]
    comm := fun f hf g hg differ room node node' set set' d read read' ↦ by
      rcases each hf with rfl | rfl | rfl
      all_goals
        obtain ⟨v, -, rfl⟩ := map_eq_ok_iff.mp read
        rcases each hg with rfl | rfl | rfl
      all_goals
        obtain ⟨w, -, rfl⟩ := map_eq_ok_iff.mp read'
        first | exact absurd rfl differ | rfl }

/-- The fields of a position are independent of one another. -/
theorem Position.schema_isLawful {record instrument : String}
    (fresh : instrument ∉ ["client_id", "position", "pnl", "volume"]) :
    (Position.schema record instrument).IsLawful := by
  simp only [List.mem_cons, List.not_mem_nil, or_false, not_or] at fresh
  obtain ⟨no_client, no_size, no_profit, no_volume⟩ := fresh
  have each {f : Json.Field PositionDraft} (hf : f ∈ (Position.schema record instrument).fields) := by
    simpa only [Position.schema, List.mem_cons, List.not_mem_nil, or_false] using hf
  exact {
    nodup := by
      simp [Schema.names, Position.schema, no_size, no_profit, no_volume, Ne.symm no_client]
    thorough := fun f hf room node set read ↦ by
      rcases each hf with rfl | rfl | rfl | rfl | rfl
      all_goals obtain ⟨v, read_value, -⟩ := map_eq_ok_iff.mp read
      · exact Feed.identifier_read_thorough read_value
      · exact Feed.identifier_read_thorough read_value
      all_goals exact readDouble_thorough read_value
    isSet_blank := fun f hf ↦ by rcases each hf with rfl | rfl | rfl | rfl | rfl <;> rfl
    isSet_read := fun f hf g hg room node set d read ↦ by
      rcases each hf with rfl | rfl | rfl | rfl | rfl
      all_goals
        obtain ⟨v, -, rfl⟩ := map_eq_ok_iff.mp read
        rcases each hg with rfl | rfl | rfl | rfl | rfl
      all_goals simp [no_client, no_size, no_profit, no_volume, Ne.symm no_client, Ne.symm no_size,
        Ne.symm no_profit, Ne.symm no_volume]
    comm := fun f hf g hg differ room node node' set set' d read read' ↦ by
      rcases each hf with rfl | rfl | rfl | rfl | rfl
      all_goals
        obtain ⟨v, -, rfl⟩ := map_eq_ok_iff.mp read
        rcases each hg with rfl | rfl | rfl | rfl | rfl
      all_goals
        obtain ⟨w, -, rfl⟩ := map_eq_ok_iff.mp read'
        first | exact absurd rfl differ | rfl }

/-- The fields of a snapshot are independent of one another. -/
theorem Snapshot.schema_isLawful {record quotes : String} {readQuotes : Reader (List Quote)}
    {readPosition : Reader Position} {may_end : Bool} (fresh : quotes ∉ ["timestamp", "positions"])
    (thorough_quotes : Thorough readQuotes) (thorough_position : Thorough readPosition) :
    (Snapshot.schema record quotes readQuotes readPosition may_end).IsLawful := by
  simp only [List.mem_cons, List.not_mem_nil, or_false, not_or] at fresh
  obtain ⟨no_timestamp, no_positions⟩ := fresh
  have each {f : Json.Field SnapshotDraft}
      (hf : f ∈ (Snapshot.schema record quotes readQuotes readPosition may_end).fields) := by
    simpa only [Snapshot.schema, List.mem_cons, List.not_mem_nil, or_false] using hf
  exact {
    nodup := by simp [Schema.names, Snapshot.schema, no_positions, Ne.symm no_timestamp]
    thorough := fun f hf room node set read ↦ by
      rcases each hf with rfl | rfl | rfl
      all_goals obtain ⟨v, read_value, -⟩ := map_eq_ok_iff.mp read
      · exact readInt64_thorough read_value
      · exact thorough_quotes read_value
      · exact readOptional_thorough (readSequence_thorough thorough_position) read_value
    isSet_blank := fun f hf ↦ by rcases each hf with rfl | rfl | rfl <;> rfl
    isSet_read := fun f hf g hg room node set d read ↦ by
      rcases each hf with rfl | rfl | rfl
      all_goals
        obtain ⟨v, -, rfl⟩ := map_eq_ok_iff.mp read
        rcases each hg with rfl | rfl | rfl
      all_goals simp [no_timestamp, no_positions, Ne.symm no_timestamp, Ne.symm no_positions]
    comm := fun f hf g hg differ room node node' set set' d read read' ↦ by
      rcases each hf with rfl | rfl | rfl
      all_goals
        obtain ⟨v, -, rfl⟩ := map_eq_ok_iff.mp read
        rcases each hg with rfl | rfl | rfl
      all_goals
        obtain ⟨w, -, rfl⟩ := map_eq_ok_iff.mp read'
        first | exact absurd rfl differ | rfl }

/-- A field that has to be there is there. -/
theorem required_eq_ok_iff {α : Type} {name : String} {found : Option α} {a : α} :
    required name found = .ok a ↔ found = some a := by
  cases found <;> simp [required]

namespace Feed

/-- A position as it is read in a message. -/
def positionSchema : Schema PositionDraft Position := Position.schema "WirePosition" "symbol"

theorem positionSchema_isLawful : positionSchema.IsLawful := Position.schema_isLawful (by decide)

variable {room : Nat} {node : Node}

/-- A draft of a position that is finished was filled with the five fields. -/
theorem fills_position_iff {values : String → List Node} {p : Position} :
    (∃ d, Fills room values positionSchema.fields positionSchema.blank d ∧
      positionSchema.finish d = .ok p) ↔
    Only (values "client_id") (IsIdentifier · p.client) ∧
      Only (values "symbol") (IsIdentifier · p.instrument) ∧
      Only (values "position") (·.IsDouble p.size) ∧ Only (values "pnl") (·.IsDouble p.profit) ∧
      Only (values "volume") (·.IsDouble p.volume) := by
  simp only [← @identifier_read_eq_ok_iff room, ← @readDouble_eq_ok_iff room]
  constructor
  · rintro ⟨d, fills, finish⟩
    have some_value := positionSchema_isLawful.values_ne_nil fills
    obtain ⟨client, has_client, finish⟩ := bind_eq_ok_iff.mp finish
    obtain ⟨instrument, has_instrument, finish⟩ := bind_eq_ok_iff.mp finish
    obtain ⟨size, has_size, finish⟩ := bind_eq_ok_iff.mp finish
    obtain ⟨profit, has_profit, finish⟩ := bind_eq_ok_iff.mp finish
    obtain ⟨volume, has_volume, finish⟩ := bind_eq_ok_iff.mp finish
    cases finish
    rw [required_eq_ok_iff] at has_client has_instrument has_size has_profit has_volume
    simp only [positionSchema, Position.schema, List.forall_mem_cons, has_client, has_instrument,
      has_size, has_profit, has_volume, Option.isSome_some, forall_const] at some_value
    obtain ⟨some_client, some_instrument, some_size, some_profit, some_volume, -⟩ := some_value
    obtain ⟨_, is_client, fills⟩ := fills.first rfl some_client
    obtain ⟨_, is_instrument, fills⟩ := fills.first rfl some_instrument
    obtain ⟨_, is_size, fills⟩ := fills.first rfl some_size
    obtain ⟨_, is_profit, fills⟩ := fills.first rfl some_profit
    obtain ⟨_, is_volume, fills⟩ := fills.first rfl some_volume
    cases fills
    cases has_client
    cases has_instrument
    cases has_size
    cases has_profit
    cases has_volume
    exact ⟨is_client, is_instrument, is_size, is_profit, is_volume⟩
  · rintro ⟨is_client, is_instrument, is_size, is_profit, is_volume⟩
    exact ⟨⟨some p.client, some p.instrument, some p.size, some p.profit, some p.volume⟩,
      .only rfl is_client (.only rfl is_instrument (.only rfl is_size (.only rfl is_profit
        (.only rfl is_volume .nil)))), rfl⟩

/-- An array in which the last field has a value has one for every field. -/
theorem mayEnd_of_last {δ α : Type} {s : Schema δ α} {name : String} {value : Node}
    (last : s.names.idxOf name + 1 = s.fields.length) (one : node.valuesOf s.names name = [value]) :
    s.MayEnd node := by
  cases node with
  | array items =>
    intro f found
    have inside : items.toList[s.names.idxOf name]? = some value :=
      Option.toList_eq_singleton_iff.mp one
    have filled := (List.getElem?_eq_some_iff.mp inside).1
    have left := (List.getElem?_eq_some_iff.mp found).1
    omega
  | _ => trivial

/-- What is read as a position is one, and its names denote strings. -/
theorem position_read_eq_ok_iff (whole : node.IsWhole) {p : Position} :
    positionSchema.read (room + 1) node = .ok p ↔ IsPosition node p ∧ node.HasNames := by
  rw [Schema.read_eq_ok_iff positionSchema_isLawful whole]
  constructor
  · rintro ⟨record, names, -, below, d, ⟨⟩, filled⟩
    obtain ⟨client, instrument, size, profit, volume⟩ := fills_position_iff.mp ⟨d, filled⟩
    exact ⟨⟨record, client, instrument, size, profit, volume⟩, names⟩
  · rintro ⟨⟨record, client, instrument, size, profit, volume⟩, names⟩
    have ⟨last, one, _⟩ := volume
    obtain ⟨d, filled⟩ := fills_position_iff.mpr ⟨client, instrument, size, profit, volume⟩
    exact ⟨record, names, mayEnd_of_last (by decide) one, room, d, rfl, filled⟩

/-- What is read as positions is `null` or an array of positions. -/
theorem positions_read_eq_ok_iff (whole : node.IsWhole) {positions : Option (List Position)} :
    readOptional (readSequence positionSchema.read) (room + 2) node = .ok positions ↔
      ArePositions [node] positions ∧
        ∀ items, node = .array items → ∀ position ∈ items.toList, position.HasNames := by
  have each {items : Items} {ps : List Position} (whole : items.IsWhole) :
      List.Forall₂ (fun node p ↦ positionSchema.read (room + 1) node = .ok p) items.toList ps ↔
        (∀ node ∈ items.toList, node.HasNames) ∧ List.Forall₂ IsPosition items.toList ps := by
    rw [← List.forall₂_and_left]
    refine forall₂_iff_of_read (List.forall₂_same.mpr fun _ _ ↦ rfl) ?_
    rintro node hn _ p rfl
    rw [position_read_eq_ok_iff (Items.IsWhole.of_mem whole hn), and_comm]
  rw [readOptional_eq_ok_iff]
  constructor
  · rintro (⟨rfl, rfl⟩ | ⟨-, ps, read, rfl⟩)
    · exact ⟨.null, fun _ e ↦ nomatch e⟩
    · obtain ⟨items, _, rfl, ⟨⟩, read⟩ := (readSequence_eq_ok_iff whole).mp read
      obtain ⟨names, are⟩ := (each whole).mp read
      refine ⟨.array are, ?_⟩
      rintro _ ⟨⟩
      exact names
  · rintro ⟨are, names⟩
    cases are with
    | null => exact .inl ⟨rfl, rfl⟩
    | @array items ps are =>
      have read := (each whole).mpr ⟨names items rfl, are⟩
      exact .inr ⟨nofun, ps, (readSequence_eq_ok_iff whole).mpr ⟨items, _, rfl, rfl, read⟩, rfl⟩

/-- Positions that are missing, or are all there is and are read, are positions. -/
theorem positions_of_values_iff {values : List Node} (whole : ∀ value ∈ values, value.IsWhole)
    {positions : Option (List Position)} :
    (values = [] ∧ positions = none ∨ Only values
      (readOptional (readSequence positionSchema.read) (room + 2) · = .ok positions)) ↔
    ArePositions values positions ∧
      ∀ items, .array items ∈ values → ∀ position ∈ items.toList, position.HasNames := by
  have alone {node : Node} (inside : node ∈ values) :=
    @positions_read_eq_ok_iff room node (whole node inside) positions
  constructor
  · rintro (⟨rfl, rfl⟩ | ⟨node, rfl, read⟩)
    · exact ⟨.absent, fun _ h ↦ absurd h List.not_mem_nil⟩
    · obtain ⟨are, names⟩ := (alone (List.mem_singleton_self _)).mp read
      exact ⟨are, fun items h ↦ names items (List.mem_singleton.mp h).symm⟩
  · rintro ⟨are, names⟩
    have read {node : Node} (one : values = [node]) (are : ArePositions [node] positions) :
        readOptional (readSequence positionSchema.read) (room + 2) node = .ok positions := by
      subst one
      refine (alone (List.mem_singleton_self _)).mpr ⟨are, ?_⟩
      rintro items rfl
      exact names items (List.mem_singleton_self _)
    cases are with
    | absent => exact .inl ⟨rfl, rfl⟩
    | null => exact .inr ⟨_, rfl, read rfl .null⟩
    | array each => exact .inr ⟨_, rfl, read rfl (.array each)⟩

theorem positionSchema_thorough : Thorough positionSchema.read :=
  Schema.read_thorough positionSchema_isLawful.thorough

theorem schema_isLawful : schema.IsLawful :=
  Snapshot.schema_isLawful (by decide) readQuotes_thorough positionSchema_thorough

/-- A draft of a message that is finished was filled with the fields of the message. -/
theorem fills_message_iff {values : String → List Node} {m : Snapshot} :
    (∃ d, Fills room values schema.fields schema.blank d ∧ schema.finish d = .ok m) ↔
    Only (values "timestamp") (·.IsInt64 m.timestamp) ∧
      Only (values "snapshot") (readQuotes room · = .ok m.quotes) ∧
      (values "positions" = [] ∧ m.positions = none ∨ Only (values "positions")
        (readOptional (readSequence positionSchema.read) room · = .ok m.positions)) := by
  simp only [← @readInt64_eq_ok_iff room]
  constructor
  · rintro ⟨d, fills, finish⟩
    have some_value := schema_isLawful.values_ne_nil fills
    obtain ⟨timestamp, has_timestamp, finish⟩ := bind_eq_ok_iff.mp finish
    obtain ⟨quotes, has_quotes, finish⟩ := bind_eq_ok_iff.mp finish
    cases finish
    rw [required_eq_ok_iff] at has_timestamp has_quotes
    simp only [schema, Snapshot.schema, List.forall_mem_cons, has_timestamp, has_quotes,
      Option.isSome_some, forall_const] at some_value
    obtain ⟨some_timestamp, some_quotes, -⟩ := some_value
    obtain ⟨_, is_timestamp, fills⟩ := fills.first rfl some_timestamp
    obtain ⟨_, are_quotes, fills⟩ := fills.first rfl some_quotes
    by_cases none_left : values "positions" = []
    · cases (fills_nothing_iff (by simpa using none_left)).mp fills
      cases has_timestamp
      cases has_quotes
      exact ⟨is_timestamp, are_quotes, .inl ⟨none_left, rfl⟩⟩
    · obtain ⟨_, are_positions, fills⟩ := fills.first rfl none_left
      cases fills
      cases has_timestamp
      cases has_quotes
      exact ⟨is_timestamp, are_quotes, .inr are_positions⟩
  · rintro ⟨is_timestamp, are_quotes, ⟨none_left, no_positions⟩ | are_positions⟩
    · refine ⟨⟨some m.timestamp, some m.quotes, none⟩,
        .only rfl is_timestamp (.only rfl are_quotes (.absent none_left .nil)), ?_⟩
      obtain ⟨timestamp, quotes, positions⟩ := m
      cases no_positions
      rfl
    · exact ⟨⟨some m.timestamp, some m.quotes, some m.positions⟩,
        .only rfl is_timestamp (.only rfl are_quotes (.only rfl are_positions .nil)), rfl⟩

/-- An array in which the second of three fields has a value may end before the third. -/
theorem mayEnd_message {value : Node} (one : node.valuesOf messageFields "snapshot" = [value]) :
    schema.MayEnd node := by
  cases node with
  | array items =>
    intro f found
    have inside : items.toList[1]? = some value := Option.toList_eq_singleton_iff.mp one
    have filled := (List.getElem?_eq_some_iff.mp inside).1
    have left := (List.getElem?_eq_some_iff.mp found).1
    have third : items.toList.length = 2 := by
      have three : schema.fields.length = 3 := rfl
      omega
    rw [third] at found
    cases found
    rfl
  | _ => trivial

/-- What is read as a message is one that keeps within the limits. -/
theorem message_read_eq_ok_iff (whole : node.IsWhole) {m : Snapshot} :
    schema.read maxNesting node = .ok m ↔ IsMessage node m ∧ IsWithinLimits node := by
  have whole_value {name : String} :
      ∀ value ∈ node.valuesOf messageFields name, value.IsWhole :=
    fun _ hv ↦ whole.of_mem_valuesOf hv
  have are_quotes_iff {value : Node} (one : node.valuesOf messageFields "snapshot" = [value]) :
      readQuotes 126 value = .ok m.quotes ↔ value.IsReadable 126 ∧ AreQuotes value m.quotes :=
    readQuotes_eq_ok_iff (whole_value value (one ▸ List.mem_singleton_self _))
  have are_positions_iff := @positions_of_values_iff 124
    (node.valuesOf messageFields "positions") whole_value m.positions
  rw [Schema.read_eq_ok_iff schema_isLawful whole]
  constructor
  · rintro ⟨record, names, -, below, d, level, filled⟩
    obtain rfl : below = 126 := (Nat.succ.inj level).symm
    obtain ⟨timestamp, ⟨quotes, one_quotes, read_quotes⟩, read_positions⟩ :=
      fills_message_iff.mp ⟨d, filled⟩
    obtain ⟨readable, are_quotes⟩ := (are_quotes_iff one_quotes).mp read_quotes
    obtain ⟨are_positions, position_names⟩ := are_positions_iff.mp read_positions
    refine ⟨⟨record, timestamp, ⟨quotes, one_quotes, are_quotes⟩, are_positions⟩,
      names, fun value hv ↦ ?_, position_names⟩
    obtain rfl := List.mem_singleton.mp (one_quotes ▸ hv)
    exact readable
  · rintro ⟨⟨record, timestamp, ⟨quotes, one_quotes, are_quotes⟩, are_positions⟩,
      names, readable, position_names⟩
    have read_quotes := (are_quotes_iff one_quotes).mpr
      ⟨readable quotes (one_quotes ▸ List.mem_singleton_self _), are_quotes⟩
    have read_positions := are_positions_iff.mpr ⟨are_positions, position_names⟩
    obtain ⟨d, filled⟩ :=
      fills_message_iff.mpr ⟨timestamp, ⟨quotes, one_quotes, read_quotes⟩, read_positions⟩
    exact ⟨record, names, mayEnd_message one_quotes, 126, d, rfl, filled⟩

/-- Decoding gives a message exactly of a document that is this message and keeps within the
limits. -/
theorem decode_eq_ok_iff {text : String} {m : Snapshot} : decode text = .ok m ↔
    ∃ node, IsDocument node text.toList ∧ IsMessage node m ∧ IsWithinLimits node := by
  have thorough : Thorough schema.read := Schema.read_thorough schema_isLawful.thorough
  rw [decode, readDocument_eq_ok_iff thorough]
  constructor
  · rintro ⟨node, is_document, read⟩
    exact ⟨node, is_document, (message_read_eq_ok_iff is_document.isWhole).mp read⟩
  · rintro ⟨node, is_document, is_message⟩
    exact ⟨node, is_document, (message_read_eq_ok_iff is_document.isWhole).mpr is_message⟩

/-- Which message a document is decoded to. -/
theorem decode_eq_ok_iff_of_document {text : String} (document : IsDocument node text.toList)
    {m : Snapshot} : decode text = .ok m ↔ IsMessage node m ∧ IsWithinLimits node := by
  rw [decode_eq_ok_iff]
  constructor
  · rintro ⟨_, document', is_message⟩
    obtain rfl := (isDocument_iff.mp document').1.symm.trans (isDocument_iff.mp document).1
    exact is_message
  · intro is_message
    exact ⟨node, document, is_message⟩

/-- A text is received as a message exactly if it is a document that is this message and keeps
within the limits, and refused as malformed exactly if it is none. -/
theorem receiveText_iff (text : String) :
    (∀ m, receiveText text = .ok m ↔
      ∃ node, IsDocument node text.toList ∧ IsMessage node m ∧ IsWithinLimits node) ∧
    ((∃ cause, receiveText text = .error (.malformed cause)) ↔
      ¬ ∃ node m, IsDocument node text.toList ∧ IsMessage node m ∧ IsWithinLimits node) := by
  rw [receiveText]
  cases decoded : decode text with
  | ok m =>
    obtain ⟨node, is_message⟩ := decode_eq_ok_iff.mp decoded
    constructor
    · intro m'
      rw [← decode_eq_ok_iff, decoded]
      simp [Except.mapError]
    · refine ⟨fun ⟨_, refused⟩ ↦ (nomatch refused), fun none_is ↦ ?_⟩
      exact absurd ⟨node, m, is_message⟩ none_is
  | error cause =>
    constructor
    · intro m
      rw [← decode_eq_ok_iff, decoded]
      simp [Except.mapError]
    · refine ⟨?_, fun _ ↦ ⟨_, rfl⟩⟩
      rintro - ⟨node, m, is_message⟩
      have accepted := decode_eq_ok_iff.mpr ⟨node, is_message⟩
      rw [decoded] at accepted
      cases accepted

/-! ### A key that is no string -/

/-- A key of characters that stand for themselves. -/
def plainKey (s : String) : RawText := ⟨s.toList.map .char, .closed⟩

/-- A number of one digit. -/
def oneDigit (c : Char) : Node := .number ⟨false, (Text.digit? c).toList, none, none⟩

/-- A message whose one quote stands under half of a surrogate pair. -/
def halfPairText : String :=
  "\x7b\"timestamp\":1,\"snapshot\":\x7b\"\\ud800\":" ++
    "\x7b\"symbol\":1,\"best_bid\":1,\"best_ask\":2\x7d\x7d\x7d"

/-- The quote that stands under half of a surrogate pair, as written. -/
def halfPairQuote : Node :=
  .object (.more (plainKey "symbol") (oneDigit '1') (.more (plainKey "best_bid") (oneDigit '1')
    (.more (plainKey "best_ask") (oneDigit '2') (.stop .closed))))

/-- The quotes of the message, as written. -/
def halfPairMembers : Members := .more ⟨[.unit 0xd800], .closed⟩ halfPairQuote (.stop .closed)

/-- The message whose one quote stands under half of a surrogate pair, as written. -/
def halfPairNode : Node :=
  .object (.more (plainKey "timestamp") (oneDigit '1')
    (.more (plainKey "snapshot") (.object halfPairMembers) (.stop .closed)))

/-- The tree of the message is what the scanner makes of its text. -/
theorem root_halfPairText : (Document.scan halfPairText.toList).root = halfPairNode := by cbv

theorem halfPairNode_isDocument : IsDocument halfPairNode halfPairText.toList :=
  isDocument_iff.mpr ⟨root_halfPairText, by cbv, rfl⟩

theorem one_isInt64 : (oneDigit '1').IsInt64 1 := ⟨_, rfl, rfl, rfl, nofun, rfl⟩

theorem halfPairQuote_isQuote :
    IsQuote halfPairQuote ⟨.id 1, doubleOfInt 1, doubleOfInt 2⟩ where
  record := trivial
  instrument := ⟨oneDigit '1', rfl, one_isInt64⟩
  bestBid := ⟨oneDigit '1', rfl, _, rfl, .inl ⟨1, rfl, rfl⟩⟩
  bestAsk := ⟨oneDigit '2', rfl, _, rfl, .inl ⟨2, rfl, rfl⟩⟩

/-- A document with a timestamp and an object of nothing but quotes is refused for a key that
denotes no string. -/
theorem refuses_halfPairText :
    (∃ node members, IsDocument node halfPairText.toList ∧ node.IsRecord messageFields ∧
      Only (node.valuesOf messageFields "timestamp") (·.IsInt64 1) ∧
      node.valuesOf messageFields "snapshot" = [.object members] ∧
      (∀ member ∈ members.toList, ∃ q, IsQuote member.2 q) ∧
      node.valuesOf messageFields "positions" = []) ∧
    receiveText halfPairText = .error (.malformed "unexpected end of hex escape") := by
  constructor
  · refine ⟨halfPairNode, halfPairMembers, halfPairNode_isDocument, trivial,
      ⟨_, rfl, one_isInt64⟩, rfl, ?_, rfl⟩
    intro member hm
    obtain rfl := List.mem_singleton.mp hm
    exact ⟨_, halfPairQuote_isQuote⟩
  · have read : schema.read maxNesting halfPairNode = .error .unpairedSurrogate := rfl
    have refused : decode halfPairText = .error .unpairedSurrogate := by
      rw [decode, readDocument, root_halfPairText, read]
      rfl
    rw [receiveText, refused]
    rfl

end Feed

end Quoteboard.Market
