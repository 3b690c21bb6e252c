import Quoteboard.Proofs.Json.Extension
import Quoteboard.Proofs.Market.Shapes

/-!
# Members that are no fields

Members that name no field of their record may be added to a message, to its positions and to its
quotes, at any places, and may be left out again: the message is the same, and it is refused with
them exactly if it is refused without them. In a message and in its positions the values that are
added may be any; those in a quote have to be in reach of the reader, because quotes are read whole
before it is known what they are.
-/

namespace Quoteboard.Market.Feed

open Quoteboard.Json

/-- A quote to which members are added. Its own values stay, and what is added is in reach of the
reader from where it stands: within the quote, the quotes and the message. -/
def ExtendsQuote : Node → Node → Prop :=
  Node.Extends quoteFields (fun _ _ _ ↦ False) (·.IsReadable 124)

/-- A position to which members are added. -/
def ExtendsPosition : Node → Node → Prop :=
  Node.Extends positionFields (fun _ _ _ ↦ False) (fun _ ↦ True)

/-- Quotes each of which is extended. None is added to them: every member of an object of quotes is
a quote. -/
inductive ExtendsQuotes : Node → Node → Prop
  | array {items items' : Items} (each : items.Extends (fun _ ↦ ExtendsQuote) 0 items') :
      ExtendsQuotes (.array items) (.array items')
  | object {members members' : Members}
      (each : members.Extends (fun _ ↦ ExtendsQuote) (fun _ _ ↦ False) members') :
      ExtendsQuotes (.object members) (.object members')

/-- Positions each of which is extended. -/
inductive ExtendsPositions : Node → Node → Prop
  | array {items items' : Items} (each : items.Extends (fun _ ↦ ExtendsPosition) 0 items') :
      ExtendsPositions (.array items) (.array items')

/-- What the fields of a message become when their records are extended. -/
def ExtendsField (name : String) (value value' : Node) : Prop :=
  name = "snapshot" ∧ ExtendsQuotes value value' ∨
    name = "positions" ∧ ExtendsPositions value value'

/-- A message to which members are added, to its records as well. -/
def ExtendsMessage : Node → Node → Prop :=
  Node.Extends messageFields ExtendsField (fun _ ↦ True)

variable {node node' : Node}

/-! ### Values that are extended one by one -/

section

variable {r : Node → Node → Prop} {p : Node → Prop} {values values' : List Node}

private theorem forall_mem_iff_of_forall₂ (each : List.Forall₂ r values values')
    (same : ∀ value value', r value value' → (p value ↔ p value')) :
    (∀ value ∈ values, p value) ↔ ∀ value ∈ values', p value := by
  induction each with
  | nil => exact Iff.rfl
  | cons here _ ih => simp only [List.forall_mem_cons, same _ _ here, ih]

private theorem only_iff_of_forall₂ (each : List.Forall₂ r values values')
    (same : ∀ value value', r value value' → (p value ↔ p value')) :
    Only values p ↔ Only values' p := by
  cases each with
  | nil => exact Iff.rfl
  | cons here others =>
    cases others with
    | cons => exact ⟨nofun, nofun⟩
    | nil =>
      rw [only_singleton_iff, only_singleton_iff]
      exact same _ _ here

end

/-! ### Quotes -/

/-- What is added to a quote does not make it another. -/
theorem ExtendsQuote.isQuote_iff (extension : ExtendsQuote node node') {q : Quote} :
    IsQuote node q ↔ IsQuote node' q := by
  have same {name : String} (field : name ∈ quoteFields) :=
    extension.valuesOf_eq field fun _ _ ↦ not_false
  have record := extension.isRecord_iff
  constructor
  · rintro ⟨is_record, instrument, best_bid, best_ask⟩
    refine ⟨record.mp is_record, ?_, ?_, ?_⟩
    all_goals rw [same (by decide)]; assumption
  · rintro ⟨is_record, instrument, best_bid, best_ask⟩
    rw [same (by decide)] at instrument best_bid best_ask
    exact ⟨record.mpr is_record, instrument, best_bid, best_ask⟩

theorem ExtendsQuote.isSpelt_iff (extension : ExtendsQuote node node') :
    node.IsSpelt ↔ node'.IsSpelt :=
  Node.Extends.isSpelt_iff extension nofun

theorem ExtendsQuote.isReadable_iff (extension : ExtendsQuote node node') :
    node.IsReadable 125 ↔ node'.IsReadable 125 :=
  Node.Extends.isReadable_iff extension nofun fun _ ↦ id

/-- What is added to quotes does not make them others. -/
theorem ExtendsQuotes.areQuotes_iff (extension : ExtendsQuotes node node') {quotes : List Quote} :
    AreQuotes node quotes ↔ AreQuotes node' quotes := by
  cases extension with
  | @array items items' each =>
    have same : List.Forall₂ IsQuote items'.toList quotes ↔
        List.Forall₂ IsQuote items.toList quotes :=
      forall₂_iff_of_read each.forall₂ fun _ _ _ _ here ↦ here.isQuote_iff.symm
    constructor
    · rintro ⟨are⟩
      exact .array (same.mpr are)
    · rintro ⟨are⟩
      exact .array (same.mp are)
  | @object members members' each =>
    have same {named : List (String × Quote)} :
        AreNamed members'.toList named ↔ AreNamed members.toList named :=
      forall₂_iff_of_read (each.forall₂ fun _ _ ↦ not_false) fun member _ member' e here ↦ by
        rw [here.1, here.2.isQuote_iff]
    constructor
    · intro are
      cases are with
      | object are entries => exact .object (same.mpr are) entries
    · intro are
      cases are with
      | object are entries => exact .object (same.mp are) entries

theorem ExtendsQuotes.isSpelt_iff (extension : ExtendsQuotes node node') :
    node.IsSpelt ↔ node'.IsSpelt := by
  cases extension with
  | array each =>
    rw [Node.isSpelt_array_iff, Node.isSpelt_array_iff]
    exact each.isSpelt_iff fun _ _ _ here ↦ here.isSpelt_iff
  | object each =>
    rw [Node.isSpelt_object_iff, Node.isSpelt_object_iff]
    exact each.isSpelt_iff (fun _ _ _ here ↦ here.isSpelt_iff) nofun

/-- Quotes can be read whole if they can be without what is added to them. -/
theorem ExtendsQuotes.isReadable_iff (extension : ExtendsQuotes node node') :
    node.IsReadable 126 ↔ node'.IsReadable 126 := by
  cases extension with
  | array each =>
    rw [Node.isReadable_array_iff, Node.isReadable_array_iff]
    exact each.forall_iff fun _ _ _ here ↦ here.isReadable_iff
  | object each =>
    rw [Node.isReadable_object_iff, Node.isReadable_object_iff]
    exact each.forall_iff (fun _ _ _ here ↦ and_congr_right' here.isReadable_iff) nofun

/-! ### Positions -/

/-- What is added to a position does not make it another. -/
theorem ExtendsPosition.isPosition_iff (extension : ExtendsPosition node node') {p : Position} :
    IsPosition node p ↔ IsPosition node' p := by
  have same {name : String} (field : name ∈ positionFields) :=
    extension.valuesOf_eq field fun _ _ ↦ not_false
  have record := extension.isRecord_iff
  constructor
  · rintro ⟨is_record, client, instrument, size, profit, volume⟩
    refine ⟨record.mp is_record, ?_, ?_, ?_, ?_, ?_⟩
    all_goals rw [same (by decide)]; assumption
  · rintro ⟨is_record, client, instrument, size, profit, volume⟩
    rw [same (by decide)] at client instrument size profit volume
    exact ⟨record.mpr is_record, client, instrument, size, profit, volume⟩

theorem ExtendsPositions.isSpelt_iff (extension : ExtendsPositions node node') :
    node.IsSpelt ↔ node'.IsSpelt := by
  obtain ⟨each⟩ := extension
  rw [Node.isSpelt_array_iff, Node.isSpelt_array_iff]
  exact each.isSpelt_iff fun _ _ _ here ↦ Node.Extends.isSpelt_iff here nofun

/-- Positions that may be extended are the positions they were. -/
theorem arePositions_iff_of_extends {values values' : List Node}
    (each : List.Forall₂ (fun value value' ↦ value' = value ∨ ExtendsPositions value value')
      values values') {positions : Option (List Position)} :
    ArePositions values positions ↔ ArePositions values' positions := by
  cases each with
  | nil => exact Iff.rfl
  | cons here others =>
    cases others with
    | cons => exact ⟨nofun, nofun⟩
    | nil =>
      rcases here with rfl | extension
      · exact Iff.rfl
      · obtain ⟨each⟩ := extension
        have same {ps : List Position} :
            List.Forall₂ IsPosition _ ps ↔ List.Forall₂ IsPosition _ ps :=
          forall₂_iff_of_read each.forall₂ fun _ _ _ _ here ↦ here.isPosition_iff.symm
        constructor
        · intro are
          cases are with
          | array are => exact .array (same.mpr are)
        · intro are
          cases are with
          | array are => exact .array (same.mp are)

/-- The names of positions denote strings if they do without what is added. -/
theorem ExtendsPositions.hasNames_iff (extension : ExtendsPositions node node') :
    (∀ items, node = .array items → ∀ position ∈ items.toList, position.HasNames) ↔
      ∀ items, node' = .array items → ∀ position ∈ items.toList, position.HasNames := by
  obtain ⟨each⟩ := extension
  have same := each.forall_iff fun _ _ _ here ↦ Node.Extends.hasNames_iff here
  constructor
  · rintro names _ ⟨⟩
    exact same.mp (names _ rfl)
  · rintro names _ ⟨⟩
    exact same.mpr (names _ rfl)

/-! ### Messages -/

theorem ExtendsMessage.isSpelt_iff (extension : ExtendsMessage node node') :
    node.IsSpelt ↔ node'.IsSpelt := by
  refine Node.Extends.isSpelt_iff extension ?_
  rintro name value value' (⟨-, quotes⟩ | ⟨-, positions⟩)
  · exact quotes.isSpelt_iff
  · exact positions.isSpelt_iff

private theorem ExtendsMessage.quotes (extension : ExtendsMessage node node') :
    List.Forall₂ (fun value value' ↦ value' = value ∨ ExtendsQuotes value value')
      (node.valuesOf messageFields "snapshot") (node'.valuesOf messageFields "snapshot") := by
  refine (Node.Extends.valuesOf extension (by decide)).imp fun _ _ here ↦ here.imp_right ?_
  rintro (⟨-, quotes⟩ | ⟨other, -⟩)
  · exact quotes
  · exact absurd other (by decide)

private theorem ExtendsMessage.positions (extension : ExtendsMessage node node') :
    List.Forall₂ (fun value value' ↦ value' = value ∨ ExtendsPositions value value')
      (node.valuesOf messageFields "positions") (node'.valuesOf messageFields "positions") := by
  refine (Node.Extends.valuesOf extension (by decide)).imp fun _ _ here ↦ here.imp_right ?_
  rintro (⟨other, -⟩ | ⟨-, positions⟩)
  · exact absurd other (by decide)
  · exact positions

private theorem ExtendsMessage.timestamp_eq (extension : ExtendsMessage node node') :
    node'.valuesOf messageFields "timestamp" = node.valuesOf messageFields "timestamp" := by
  refine Node.Extends.valuesOf_eq extension (by decide) ?_
  -- Only quotes and positions are extended within their fields.
  rintro _ _ (⟨other, -⟩ | ⟨other, -⟩)
  all_goals exact absurd other (by decide)

/-- What is added to a message does not make it another. -/
theorem ExtendsMessage.isMessage_iff (extension : ExtendsMessage node node') {m : Snapshot} :
    IsMessage node m ↔ IsMessage node' m := by
  have record := Node.Extends.isRecord_iff extension
  have quotes : Only (node.valuesOf messageFields "snapshot") (AreQuotes · m.quotes) ↔
      Only (node'.valuesOf messageFields "snapshot") (AreQuotes · m.quotes) := by
    refine only_iff_of_forall₂ extension.quotes ?_
    rintro _ _ (rfl | quotes)
    · exact Iff.rfl
    · exact quotes.areQuotes_iff
  have positions : ArePositions (node.valuesOf messageFields "positions") m.positions ↔
      ArePositions (node'.valuesOf messageFields "positions") m.positions :=
    arePositions_iff_of_extends extension.positions
  constructor
  · rintro ⟨is_record, timestamp, are_quotes, are_positions⟩
    rw [← extension.timestamp_eq] at timestamp
    exact ⟨record.mp is_record, timestamp, quotes.mp are_quotes, positions.mp are_positions⟩
  · rintro ⟨is_record, timestamp, are_quotes, are_positions⟩
    rw [extension.timestamp_eq] at timestamp
    exact ⟨record.mpr is_record, timestamp, quotes.mpr are_quotes, positions.mpr are_positions⟩

/-- A message keeps within the limits if it does without what is added. -/
theorem ExtendsMessage.isWithinLimits_iff (extension : ExtendsMessage node node') :
    IsWithinLimits node ↔ IsWithinLimits node' := by
  have names := Node.Extends.hasNames_iff extension
  have readable : (∀ value ∈ node.valuesOf messageFields "snapshot", value.IsReadable 126) ↔
      ∀ value ∈ node'.valuesOf messageFields "snapshot", value.IsReadable 126 := by
    refine forall_mem_iff_of_forall₂ extension.quotes ?_
    rintro _ _ (rfl | quotes)
    · exact Iff.rfl
    · exact quotes.isReadable_iff
  have position_names := forall_mem_iff_of_forall₂ extension.positions
    (p := fun value ↦ ∀ items, value = .array items →
      ∀ position ∈ items.toList, position.HasNames) <| by
    rintro _ _ (rfl | positions)
    · exact Iff.rfl
    · exact positions.hasNames_iff
  constructor
  · rintro ⟨hn, hr, hp⟩
    refine ⟨names.mp hn, readable.mp hr, fun items inside ↦ ?_⟩
    refine position_names.mp ?_ _ inside _ rfl
    rintro _ inside items rfl
    exact hp items inside
  · rintro ⟨hn, hr, hp⟩
    refine ⟨names.mpr hn, readable.mpr hr, fun items inside ↦ ?_⟩
    refine position_names.mpr ?_ _ inside _ rfl
    rintro _ inside items rfl
    exact hp items inside

/-- Whether or not members are added that are no fields, and wherever they are, a message is decoded
to the same, which is told by its tree without them; and it can be written with them exactly if it
can be without. -/
theorem decodes_with_additions (extension : ExtendsMessage node node') :
    ((∃ text : String, IsDocument node text.toList) ↔
      ∃ text : String, IsDocument node' text.toList) ∧
    ∀ text text' : String, IsDocument node text.toList → IsDocument node' text'.toList →
      ∀ m, (decode text = .ok m ↔ decode text' = .ok m) ∧
        (decode text' = .ok m ↔ IsMessage node m ∧ IsWithinLimits node) := by
  constructor
  · rw [exists_isDocument_iff, exists_isDocument_iff, extension.isSpelt_iff]
  · intro text text' document document' m
    rw [decode_eq_ok_iff_of_document document, decode_eq_ok_iff_of_document document',
      ← extension.isMessage_iff, ← extension.isWithinLimits_iff]
    exact ⟨Iff.rfl, Iff.rfl⟩

/-! ### A message with additions -/

/-- A message of one quote. -/
def bareText : String :=
  "\x7b\"timestamp\":1,\"snapshot\":[\x7b\"symbol\":1,\"best_bid\":1,\"best_ask\":2\x7d]\x7d"

/-- The message of one quote with additions: a number out of range and half of a surrogate pair in
the message, an object in the quote. -/
def fullText : String :=
  "\x7b\"note\":[1e999,\"\\ud800\"],\"timestamp\":1," ++
    "\"snapshot\":[\x7b\"symbol\":1,\"best_bid\":1," ++
    "\"depth\":\x7b\"symbol\":2\x7d,\"best_ask\":2\x7d],\"note\":null\x7d"

/-- What is added to the message, as written. -/
def sampleNote : Node :=
  .array (.more
    (.number ⟨false, ['1'].filterMap Text.digit?, none,
      some (false, ['9', '9', '9'].filterMap Text.digit?)⟩)
    (.more (.text ⟨[.unit 0xd800], .closed⟩) (.stop .closed)))

/-- What is added to the quote, as written. -/
def sampleDepth : Node := .object (.more (plainKey "symbol") (oneDigit '2') (.stop .closed))

/-- The quote with its addition, as written. -/
def deepQuote : Node :=
  .object (.more (plainKey "symbol") (oneDigit '1') (.more (plainKey "best_bid") (oneDigit '1')
    (.more (plainKey "depth") sampleDepth
      (.more (plainKey "best_ask") (oneDigit '2') (.stop .closed)))))

/-- The message with its additions, as written. -/
def fullNode : Node :=
  .object (.more (plainKey "note") sampleNote (.more (plainKey "timestamp") (oneDigit '1')
    (.more (plainKey "snapshot") (.array (.more deepQuote (.stop .closed)))
      (.more (plainKey "note") .null (.stop .closed)))))

theorem bareText_isDocument :
    IsDocument (sampleFrame (.array (.more halfPairQuote (.stop .closed)))) bareText.toList :=
  isDocument_iff.mpr ⟨by cbv, by cbv, rfl⟩

theorem fullText_isDocument : IsDocument fullNode fullText.toList :=
  isDocument_iff.mpr ⟨by cbv, by cbv, rfl⟩

theorem sampleDepth_isReadable : sampleDepth.IsReadable 124 where
  depth_le := by decide
  value_isSome := by
    have all_read : sampleDepth.literals.all (·.value?.isSome) = true := rfl
    simpa using all_read
  denotes t ht := by
    obtain rfl : t = plainKey "symbol" := by
      simpa [sampleDepth, Node.texts, Members.texts, oneDigit] using ht
    exact ⟨_, plainKey_denotes _⟩

theorem fullText_extends :
    ExtendsMessage (sampleFrame (.array (.more halfPairQuote (.stop .closed)))) fullNode := by
  -- That the additions can be spelt is read off the document with them.
  have spelt := Node.isSpelt_object_iff.mp (exists_isDocument_iff.mp ⟨_, fullText_isDocument⟩)
  obtain ⟨note_spelt, first_spelt, -, -, -, ⟨cs, quotes_spelt⟩, -, last_spelt, -⟩ := spelt
  have deep_spelt := (Node.isSpelt_array_iff.mp ⟨cs, quotes_spelt⟩).1
  obtain ⟨-, -, -, -, depth_key_spelt, depth_spelt, -⟩ := Node.isSpelt_object_iff.mp deep_spelt
  have note_unknown : ∃ name, (plainKey "note").Denotes name ∧ name ∉ messageFields :=
    ⟨"note", plainKey_denotes _, by decide⟩
  have depth_unknown : ∃ name, (plainKey "depth").Denotes name ∧ name ∉ quoteFields :=
    ⟨"depth", plainKey_denotes _, by decide⟩
  have quote : ExtendsQuote halfPairQuote deepQuote :=
    .object (.kept (.inl rfl) (.kept (.inl rfl)
      (.added ⟨⟨depth_unknown, depth_key_spelt, depth_spelt⟩, sampleDepth_isReadable⟩
        (.kept (.inl rfl) (.stop _)))))
  have quotes : ExtendsField "snapshot" (.array (.more halfPairQuote (.stop .closed)))
      (.array (.more deepQuote (.stop .closed))) := .inl ⟨rfl, .array (.more quote (.stop _))⟩
  exact .object (.added ⟨⟨note_unknown, note_spelt, first_spelt⟩, trivial⟩ (.kept (.inl rfl)
    (.kept (.inr ⟨"snapshot", plainKey_denotes _, quotes⟩)
      (.added ⟨⟨note_unknown, note_spelt, last_spelt⟩, trivial⟩ (.stop _)))))

theorem halfPairQuote_isReadable : halfPairQuote.IsReadable 125 where
  depth_le := by decide
  value_isSome := by
    have all_read : halfPairQuote.literals.all (·.value?.isSome) = true := rfl
    simpa using all_read
  denotes t ht := by
    have plain : t = plainKey "symbol" ∨ t = plainKey "best_bid" ∨ t = plainKey "best_ask" := by
      simpa [halfPairQuote, Node.texts, Members.texts, oneDigit] using ht
    rcases plain with rfl | rfl | rfl
    all_goals exact ⟨_, plainKey_denotes _⟩

/-- The message of one quote is decoded, hence so is the one with additions. -/
theorem decodes_sample_additions :
    decode fullText = .ok ⟨1, [⟨.id 1, doubleOfInt 1, doubleOfInt 2⟩], none⟩ := by
  have frame := sampleFrame_isFrame (.array (.more halfPairQuote (.stop .closed)))
  have readable : (Node.array (.more halfPairQuote (.stop .closed))).IsReadable 126 := by
    rw [Node.isReadable_array_iff]
    rintro _ (_ | ⟨_, ⟨⟩⟩)
    exact halfPairQuote_isReadable
  have bare : decode bareText = .ok ⟨1, [⟨.id 1, doubleOfInt 1, doubleOfInt 2⟩], none⟩ :=
    (decode_eq_ok_iff_of_quotes bareText_isDocument rfl).mpr
      ⟨⟨frame.record, frame.names, frame.timestamp, frame.positions, frame.position_names⟩,
        readable, .array (.cons halfPairQuote_isQuote .nil)⟩
  have same := (decodes_with_additions fullText_extends).2 _ _ bareText_isDocument
    fullText_isDocument ⟨1, [⟨.id 1, doubleOfInt 1, doubleOfInt 2⟩], none⟩
  exact same.1.mp bare

end Quoteboard.Market.Feed
