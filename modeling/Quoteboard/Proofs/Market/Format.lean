import Quoteboard.Proofs.Json.Records
import Quoteboard.Proofs.Market.KeyOrder

/-!
# The format of messages

Which trees are messages of the feed, and which message each is, said without the reader; and what
a reader makes of the parts of one: identifiers, quotes, and the lists or objects of quotes.
-/

namespace Quoteboard.Market.Feed

open Quoteboard.Json Quoteboard.Text

/-! ### The format -/

/-- The fields of a quote. -/
def quoteFields : List String := ["symbol", "best_bid", "best_ask"]

/-- The fields of a position. -/
def positionFields : List String := ["client_id", "symbol", "position", "pnl", "volume"]

/-- The fields of a message. -/
def messageFields : List String := ["timestamp", "snapshot", "positions"]

/-- An identifier is a signed 64-bit integer or a string. -/
def IsIdentifier (node : Node) : Identifier → Prop
  | .id n => node.IsInt64 n
  | .name s => ∃ t, node = .text t ∧ t.Denotes s

/-- A quote is a record of an identifier and two numbers. -/
structure IsQuote (node : Node) (q : Quote) : Prop where
  record : node.IsRecord quoteFields
  instrument : Only (node.valuesOf quoteFields "symbol") (IsIdentifier · q.instrument)
  bestBid : Only (node.valuesOf quoteFields "best_bid") (·.IsDouble q.bestBid)
  bestAsk : Only (node.valuesOf quoteFields "best_ask") (·.IsDouble q.bestAsk)

/-- A position is a record of two identifiers and three numbers. -/
structure IsPosition (node : Node) (p : Position) : Prop where
  record : node.IsRecord positionFields
  client : Only (node.valuesOf positionFields "client_id") (IsIdentifier · p.client)
  instrument : Only (node.valuesOf positionFields "symbol") (IsIdentifier · p.instrument)
  size : Only (node.valuesOf positionFields "position") (·.IsDouble p.size)
  profit : Only (node.valuesOf positionFields "pnl") (·.IsDouble p.profit)
  volume : Only (node.valuesOf positionFields "volume") (·.IsDouble p.volume)

/-- The quotes of a message are an array of quotes, or an object of them, which yields the quotes of
its entries. -/
inductive AreQuotes : Node → List Quote → Prop
  | array {items : Items} {quotes : List Quote} (each : List.Forall₂ IsQuote items.toList quotes) :
      AreQuotes (.array items) quotes
  | object {members : Members} {named entries : List (String × Quote)}
      (each : List.Forall₂ (fun member e ↦ member.1.Denotes e.1 ∧ IsQuote member.2 e.2)
        members.toList named) (are : AreEntries named entries) :
      AreQuotes (.object members) (entries.map (·.2))

/-- The positions of a message are absent, `null`, or an array of positions. -/
inductive ArePositions : List Node → Option (List Position) → Prop
  | absent : ArePositions [] none
  | null : ArePositions [.null] none
  | array {items : Items} {positions : List Position}
      (each : List.Forall₂ IsPosition items.toList positions) :
      ArePositions [.array items] (some positions)

/-- A message is a record of a timestamp, quotes and possibly positions. -/
structure IsMessage (node : Node) (m : Snapshot) : Prop where
  record : node.IsRecord messageFields
  timestamp : Only (node.valuesOf messageFields "timestamp") (·.IsInt64 m.timestamp)
  quotes : Only (node.valuesOf messageFields "snapshot") (AreQuotes · m.quotes)
  positions : ArePositions (node.valuesOf messageFields "positions") m.positions

/-- What a message must keep to beyond its format. The names in the message and in its positions
denote strings, those of members that are passed over included; and all that stands in its quotes,
members that are passed over included, is in reach of the reader. -/
structure IsWithinLimits (node : Node) : Prop where
  names : node.HasNames
  quotes : ∀ value ∈ node.valuesOf messageFields "snapshot", value.IsReadable 126
  positions : ∀ items, .array items ∈ node.valuesOf messageFields "positions" →
    ∀ position ∈ items.toList, position.HasNames

/-! ### Identifiers and numbers -/

variable {room : Nat} {node : Node} {value : Value}

private theorem array_of_read {items : Items} (read : (Node.array items).read room = .ok value) :
    ∃ values, value = .array values := by
  cases room with
  | zero => cases read
  | succ room =>
    obtain ⟨values, -, rfl⟩ := map_eq_ok_iff.mp read
    exact ⟨values, rfl⟩

private theorem object_of_read {members : Members}
    (read : (Node.object members).read room = .ok value) : ∃ values, value = .object values := by
  cases room with
  | zero => cases read
  | succ room =>
    obtain ⟨values, -, rfl⟩ := map_eq_ok_iff.mp read
    exact ⟨values, rfl⟩

/-- The identifier that a value stands for is the one that was written. -/
theorem ofValue?_eq_some_iff (read : node.read room = .ok value) {k : Identifier} :
    Identifier.ofValue? value = some k ↔ IsIdentifier node k := by
  cases node with
  | number l =>
    obtain ⟨n, read_number, rfl⟩ := map_eq_ok_iff.mp read
    have number := Literal.read_eq_ok_iff.mp read_number
    cases k with
    | id i =>
      rw [IsIdentifier, Literal.isInt64_iff, number]
      cases n with
      | integer m =>
        simp only [Number.toValue, Identifier.ofValue?, Option.some.injEq, Number.integer.injEq]
        constructor
        · intro h
          split at h
          · next fits =>
            cases h
            exact ⟨rfl, fits⟩
          · cases h
        · rintro ⟨rfl, fits⟩
          rw [if_pos fits]
      | real x => simp [Number.toValue, Identifier.ofValue?]
    | name s =>
      cases n with
      | integer m =>
        simp only [Number.toValue, Identifier.ofValue?, IsIdentifier]
        split <;> simp
      | real x => simp [Number.toValue, Identifier.ofValue?, IsIdentifier]
  | text t =>
    obtain ⟨s, decoded, rfl⟩ := map_eq_ok_iff.mp read
    cases k with
    | id i => simp [Identifier.ofValue?, IsIdentifier, Node.IsInt64]
    | name s' =>
      simp [Identifier.ofValue?, IsIdentifier, ← RawText.decode_eq_ok_iff, decoded]
  | array items =>
    obtain ⟨values, rfl⟩ := array_of_read read
    cases k <;> simp [Identifier.ofValue?, IsIdentifier, Node.IsInt64]
  | object members =>
    obtain ⟨values, rfl⟩ := object_of_read read
    cases k <;> simp [Identifier.ofValue?, IsIdentifier, Node.IsInt64]
  | null | bool =>
    cases read
    cases k <;> simp [Identifier.ofValue?, IsIdentifier, Node.IsInt64]
  | flawed => cases read

/-- The double that a value stands for is the one that was written. -/
theorem doubleOf?_eq_some_iff (read : node.read room = .ok value) {x : Float} :
    doubleOf? value = some x ↔ node.IsDouble x := by
  cases node with
  | number l =>
    obtain ⟨n, read_number, rfl⟩ := map_eq_ok_iff.mp read
    have number := Literal.read_eq_ok_iff.mp read_number
    cases n with
    | integer m => simp [Number.toValue, doubleOf?, Node.IsDouble, number, eq_comm]
    | real y => simp [Number.toValue, doubleOf?, Node.IsDouble, number]
  | text t =>
    obtain ⟨s, decoded, rfl⟩ := map_eq_ok_iff.mp read
    simp [doubleOf?, Node.IsDouble]
  | array items =>
    obtain ⟨values, rfl⟩ := array_of_read read
    simp [doubleOf?, Node.IsDouble]
  | object members =>
    obtain ⟨values, rfl⟩ := object_of_read read
    simp [doubleOf?, Node.IsDouble]
  | null | bool =>
    cases read
    simp [doubleOf?, Node.IsDouble]
  | flawed => cases read

/-- What is read as an identifier is one. -/
theorem identifier_read_eq_ok_iff {k : Identifier} :
    Identifier.read room node = .ok k ↔ IsIdentifier node k := by
  rw [Identifier.read, bind_eq_ok_iff]
  constructor
  · rintro ⟨value, read, stands⟩
    split at stands
    · next found =>
      cases stands
      exact (ofValue?_eq_some_iff read).mp found
    · cases stands
  · intro is_identifier
    have read : ∃ value, node.read room = .ok value := by
      cases k with
      | id n =>
        obtain ⟨l, rfl, -⟩ := id is_identifier
        have number := (Literal.isInt64_iff.mp is_identifier).1
        exact ⟨_, map_eq_ok_iff.mpr ⟨_, Literal.read_eq_ok_iff.mpr number, rfl⟩⟩
      | name s =>
        obtain ⟨t, rfl, denotes⟩ := is_identifier
        exact ⟨_, map_eq_ok_iff.mpr ⟨s, RawText.decode_eq_ok_iff.mpr denotes, rfl⟩⟩
    obtain ⟨value, read⟩ := read
    refine ⟨value, read, ?_⟩
    rw [(ofValue?_eq_some_iff read).mpr is_identifier]
    rfl

theorem identifier_read_thorough : Thorough Identifier.read := by
  intro room node k read
  obtain ⟨value, read_value, -⟩ := bind_eq_ok_iff.mp read
  exact Node.read_thorough read_value

/-! ### Quotes -/

/-- The members with a name are those that are read under it. -/
theorem forall₂_named {members : Members} {values : List (String × Value)}
    (each : List.Forall₂ (fun member value ↦ member.1.decode = .ok value.1 ∧
      member.2.read room = .ok value.2) members.toList values) (name : String) :
    List.Forall₂ (fun node value ↦ node.read room = .ok value) (members.named name)
      ((values.filter (·.1 = name)).map (·.2)) := by
  fun_induction Members.toList members generalizing values with
  | case1 =>
    cases each
    exact .nil
  | case2 key node rest ih =>
    cases each with
    | @cons _ value _ values here others =>
      obtain ⟨decoded, read⟩ := here
      rw [Members.named_more (RawText.decode_eq_ok_iff.mp decoded)]
      by_cases same : name = value.1
      · rw [if_pos same, List.filter_cons_of_pos (by simp [same])]
        exact .cons read (ih others)
      · rw [if_neg same, List.filter_cons_of_neg (by simp [Ne.symm same])]
        exact ih others

/-- The only value of a name is the one that was written. -/
theorem only?_eq_some_iff {members : Members} {values : List (String × Value)}
    (each : List.Forall₂ (fun member value ↦ member.1.decode = .ok value.1 ∧
      member.2.read room = .ok value.2) members.toList values) {name : String} :
    only? name values = some value ↔
      ∃ node, members.named name = [node] ∧ node.read room = .ok value := by
  have named := forall₂_named each name
  rw [only?]
  split
  · next _ last found =>
    rw [found] at named
    obtain ⟨node, rest, read, others, split_named⟩ := List.forall₂_cons_right_iff.mp named
    obtain rfl := List.forall₂_nil_right_iff.mp others
    rw [split_named]
    constructor
    · rintro ⟨⟩
      exact ⟨node, rfl, read⟩
    · rintro ⟨_, ⟨⟩, read'⟩
      rw [read] at read'
      cases read'
      rfl
  · next several =>
    refine ⟨fun h ↦ (nomatch h), ?_⟩
    rintro ⟨node, only_one, -⟩
    rw [only_one] at named
    obtain ⟨last, rest, -, others, found⟩ := List.forall₂_cons_left_iff.mp named
    obtain rfl := List.forall₂_nil_left_iff.mp others
    obtain ⟨e, more, one, -, nothing⟩ := List.map_eq_cons_iff.mp found
    obtain rfl := List.map_eq_nil_iff.mp nothing
    exact absurd one (several e.1 e.2)

/-- The only member of a name is read. -/
theorem exists_read_of_named {members : Members} {values : List (String × Value)}
    (each : List.Forall₂ (fun member value ↦ member.1.decode = .ok value.1 ∧
      member.2.read room = .ok value.2) members.toList values) {name : String}
    (one : members.named name = [node]) : ∃ value, node.read room = .ok value := by
  have named := forall₂_named each name
  rw [one] at named
  obtain ⟨value, -, read, -⟩ := List.forall₂_cons_left_iff.mp named
  exact ⟨value, read⟩

/-- The quote with three fields is the one that was written. -/
theorem quoteOfFields?_eq_some_iff {symbol bid ask : Node} {symbol' bid' ask' : Value}
    (hs : symbol.read room = .ok symbol') (hb : bid.read room = .ok bid')
    (ha : ask.read room = .ok ask') {q : Quote} : quoteOfFields? symbol' bid' ask' = some q ↔
      IsIdentifier symbol q.instrument ∧ bid.IsDouble q.bestBid ∧ ask.IsDouble q.bestAsk := by
  rw [← ofValue?_eq_some_iff hs, ← doubleOf?_eq_some_iff hb, ← doubleOf?_eq_some_iff ha]
  simp only [quoteOfFields?, Option.bind_eq_bind, Option.bind_eq_some_iff, Option.pure_def,
    Option.some.injEq]
  constructor
  · rintro ⟨k, instrument, x, best_bid, y, best_ask, rfl⟩
    exact ⟨instrument, best_bid, best_ask⟩
  · rintro ⟨instrument, best_bid, best_ask⟩
    exact ⟨_, instrument, _, best_bid, _, best_ask, rfl⟩

/-- An array of three items is a quote if they are its fields. -/
theorem isQuote_array_iff {items : Items} {symbol bid ask : Node}
    (split_items : items.toList = [symbol, bid, ask]) {q : Quote} : IsQuote (.array items) q ↔
      IsIdentifier symbol q.instrument ∧ bid.IsDouble q.bestBid ∧ ask.IsDouble q.bestAsk := by
  have values : (Node.array items).valuesOf quoteFields "symbol" = [symbol] ∧
      (Node.array items).valuesOf quoteFields "best_bid" = [bid] ∧
      (Node.array items).valuesOf quoteFields "best_ask" = [ask] := by
    simp only [Node.valuesOf, Items.inPlace, split_items]
    exact ⟨rfl, rfl, rfl⟩
  obtain ⟨one_symbol, one_bid, one_ask⟩ := values
  constructor
  · rintro ⟨-, ⟨_, found_symbol, instrument⟩, ⟨_, found_bid, best_bid⟩, ⟨_, found_ask, best_ask⟩⟩
    cases one_symbol.symm.trans found_symbol
    cases one_bid.symm.trans found_bid
    cases one_ask.symm.trans found_ask
    exact ⟨instrument, best_bid, best_ask⟩
  · rintro ⟨instrument, best_bid, best_ask⟩
    refine ⟨?_, ⟨_, one_symbol, instrument⟩, ⟨_, one_bid, best_bid⟩, ⟨_, one_ask, best_ask⟩⟩
    simp [Node.IsRecord, split_items, quoteFields]

/-- The quote that a value stands for is the one that was written. -/
theorem quoteOf?_eq_some_iff (whole : node.IsWhole) (read : node.read room = .ok value)
    {q : Quote} : quoteOf? value = some q ↔ IsQuote node q := by
  cases node with
  | object members =>
    obtain ⟨below, values, rfl, each, rfl⟩ := (Node.read_object_eq_ok_iff whole).mp read
    simp only [quoteOf?, Option.bind_eq_bind, Option.bind_eq_some_iff, only?_eq_some_iff each]
    constructor
    · rintro ⟨_, ⟨symbol, one_symbol, hs⟩, _, ⟨bid, one_bid, hb⟩, _, ⟨ask, one_ask, ha⟩, stands⟩
      obtain ⟨instrument, best_bid, best_ask⟩ := (quoteOfFields?_eq_some_iff hs hb ha).mp stands
      exact ⟨trivial, ⟨symbol, one_symbol, instrument⟩, ⟨bid, one_bid, best_bid⟩,
        ⟨ask, one_ask, best_ask⟩⟩
    · rintro ⟨-, ⟨symbol, one_symbol, instrument⟩, ⟨bid, one_bid, best_bid⟩,
        ⟨ask, one_ask, best_ask⟩⟩
      obtain ⟨symbol', hs⟩ := exists_read_of_named each one_symbol
      obtain ⟨bid', hb⟩ := exists_read_of_named each one_bid
      obtain ⟨ask', ha⟩ := exists_read_of_named each one_ask
      exact ⟨symbol', ⟨symbol, one_symbol, hs⟩, bid', ⟨bid, one_bid, hb⟩, ask', ⟨ask, one_ask, ha⟩,
        (quoteOfFields?_eq_some_iff hs hb ha).mpr ⟨instrument, best_bid, best_ask⟩⟩
  | array items =>
    obtain ⟨below, values, rfl, each, rfl⟩ := (Node.read_array_eq_ok_iff whole).mp read
    by_cases three : values.length = 3
    · obtain ⟨symbol', bid', ask', rfl⟩ := List.length_eq_three.mp three
      obtain ⟨symbol, _, hs, others, split_items⟩ := List.forall₂_cons_right_iff.mp each
      obtain ⟨bid, _, hb, others', rfl⟩ := List.forall₂_cons_right_iff.mp others
      obtain ⟨ask, _, ha, nothing, rfl⟩ := List.forall₂_cons_right_iff.mp others'
      obtain rfl := List.forall₂_nil_right_iff.mp nothing
      rw [quoteOf?, quoteOfFields?_eq_some_iff hs hb ha, isQuote_array_iff split_items]
    · refine ⟨fun stands ↦ ?_, fun is_quote ↦ ?_⟩
      · unfold quoteOf? at stands
        split at stands
        · next e => cases e
        · next e =>
          cases e
          exact absurd rfl three
        · cases stands
      · have bound : items.toList.length ≤ 3 := is_quote.record
        obtain ⟨ask, found, -⟩ := is_quote.bestAsk
        have inside : items.toList[2]? = some ask := by
          rw [← Option.toList_eq_singleton_iff]
          exact found
        have := (List.getElem?_eq_some_iff.mp inside).1
        have := each.length_eq
        omega
  | number l =>
    obtain ⟨n, -, rfl⟩ := map_eq_ok_iff.mp read
    refine ⟨fun stands ↦ ?_, fun is_quote ↦ is_quote.record.elim⟩
    cases n <;> cases stands
  | text t =>
    obtain ⟨s, -, rfl⟩ := map_eq_ok_iff.mp read
    exact ⟨fun stands ↦ (nomatch stands), fun is_quote ↦ is_quote.record.elim⟩
  | null | bool =>
    cases read
    exact ⟨fun stands ↦ (nomatch stands), fun is_quote ↦ is_quote.record.elim⟩
  | flawed => cases read

private theorem mapM_eq_some_iff {α β : Type} {f : α → Option β} {xs : List α} {ys : List β} :
    xs.mapM f = some ys ↔ List.Forall₂ (fun x y ↦ f x = some y) xs ys := by
  induction xs generalizing ys with
  | nil => simp [eq_comm]
  | cons x xs ih =>
    simp only [List.mapM_cons, Option.bind_eq_bind, Option.bind_eq_some_iff, Option.pure_def,
      List.forall₂_cons_left_iff, ih]
    constructor
    · rintro ⟨y, first, ys, others, ⟨⟩⟩
      exact ⟨y, ys, first, others, rfl⟩
    · rintro ⟨y, ys, first, others, rfl⟩
      exact ⟨y, first, ys, others, rfl⟩

/-- What holds of the values of some items holds of the items. -/
theorem forall₂_iff_of_read {α β γ : Type} {reads : α → β → Prop} {p : β → γ → Prop}
    {q : α → γ → Prop} {xs : List α} {vs : List β} {rs : List γ} (each : List.Forall₂ reads xs vs)
    (same : ∀ x ∈ xs, ∀ v r, reads x v → (p v r ↔ q x r)) :
    List.Forall₂ p vs rs ↔ List.Forall₂ q xs rs := by
  induction each generalizing rs with
  | nil => simp
  | @cons x v xs vs here _ ih =>
    have others {rs : List γ} : List.Forall₂ p vs rs ↔ List.Forall₂ q xs rs :=
      ih fun x hx ↦ same x (List.mem_cons_of_mem _ hx)
    simp only [List.forall₂_cons_left_iff, others, same x List.mem_cons_self v _ here]

/-- The quote that a member stands for is the one that was written, under the name of its key. -/
theorem memberQuote?_eq_some_iff {key : RawText} {member : String × Value} (whole : node.IsWhole)
    (decoded : key.decode = .ok member.1) (read : node.read room = .ok member.2)
    {e : String × Quote} : memberQuote? member = some e ↔ key.Denotes e.1 ∧ IsQuote node e.2 := by
  rw [memberQuote?, Option.map_eq_some_iff, ← RawText.decode_eq_ok_iff, decoded]
  simp only [quoteOf?_eq_some_iff whole read, Except.ok.injEq]
  constructor
  · rintro ⟨q, is_quote, rfl⟩
    exact ⟨rfl, is_quote⟩
  · rintro ⟨same, is_quote⟩
    exact ⟨e.2, is_quote, by rw [same]⟩

/-- The quotes that a value stands for are those that were written. -/
theorem quotesOf?_eq_some_iff (whole : node.IsWhole) (read : node.read room = .ok value)
    {quotes : List Quote} : quotesOf? value = some quotes ↔ AreQuotes node quotes := by
  cases node with
  | array items =>
    obtain ⟨below, values, rfl, each, rfl⟩ := (Node.read_array_eq_ok_iff whole).mp read
    have same : List.Forall₂ (fun value q ↦ quoteOf? value = some q) values quotes ↔
        List.Forall₂ IsQuote items.toList quotes :=
      forall₂_iff_of_read each fun node hn value q read' ↦
        quoteOf?_eq_some_iff (Items.IsWhole.of_mem whole hn) read'
    rw [quotesOf?, mapM_eq_some_iff, same]
    constructor
    · exact .array
    · rintro ⟨each⟩
      exact each
  | object members =>
    obtain ⟨below, values, rfl, each, rfl⟩ := (Node.read_object_eq_ok_iff whole).mp read
    have same {named : List (String × Quote)} :
        List.Forall₂ (fun value e ↦ memberQuote? value = some e) values named ↔
          List.Forall₂ (fun member e ↦ member.1.Denotes e.1 ∧ IsQuote member.2 e.2)
            members.toList named :=
      forall₂_iff_of_read each fun member hm value e ⟨decoded, read'⟩ ↦
        memberQuote?_eq_some_iff (Members.IsWhole.of_mem whole hm) decoded read'
    rw [quotesOf?, Option.map_eq_some_iff]
    simp only [mapM_eq_some_iff, inKeyOrder_ofList_iff, same]
    constructor
    · rintro ⟨named, each, entries, are, rfl⟩
      exact .object each are
    · intro are_quotes
      cases are_quotes with
      | object each are => exact ⟨_, each, _, are, rfl⟩
  | number l =>
    obtain ⟨n, -, rfl⟩ := map_eq_ok_iff.mp read
    cases n <;> exact ⟨fun stands ↦ (nomatch stands), fun are ↦ (nomatch are)⟩
  | text t =>
    obtain ⟨s, -, rfl⟩ := map_eq_ok_iff.mp read
    exact ⟨fun stands ↦ (nomatch stands), fun are ↦ (nomatch are)⟩
  | null | bool =>
    cases read
    exact ⟨fun stands ↦ (nomatch stands), fun are ↦ (nomatch are)⟩
  | flawed => cases read

/-- What is read as quotes is quotes, and in reach of the reader. -/
theorem readQuotes_eq_ok_iff (whole : node.IsWhole) {quotes : List Quote} :
    readQuotes room node = .ok quotes ↔ node.IsReadable room ∧ AreQuotes node quotes := by
  rw [← Node.exists_read_iff room whole, readQuotes, bind_eq_ok_iff]
  constructor
  · rintro ⟨value, read, stand⟩
    split at stand
    · next found =>
      cases stand
      exact ⟨⟨value, read⟩, (quotesOf?_eq_some_iff whole read).mp found⟩
    · cases stand
  · rintro ⟨⟨value, read⟩, are⟩
    refine ⟨value, read, ?_⟩
    rw [(quotesOf?_eq_some_iff whole read).mpr are]
    rfl

theorem readQuotes_thorough : Thorough readQuotes := by
  intro room node quotes read
  obtain ⟨value, read_value, -⟩ := bind_eq_ok_iff.mp read
  exact Node.read_thorough read_value

end Quoteboard.Market.Feed
