import Quoteboard.Market.Stored
import Quoteboard.Proofs.Json.Writing
import Quoteboard.Proofs.Market.Decoding

/-!
# Stored snapshots are read as they were written

A snapshot whose timestamp and numbers of identifiers are signed 64-bit integers, and whose doubles
are finite and denoted by the literals that they are written as, is read back from its text. No
string is lost, and no identifier that is a number is taken for a name; an empty list of positions
is not taken for none.
-/

namespace Quoteboard.Market

open Quoteboard.Json Quoteboard.Text

variable {room : Nat}

/-! ### What is stored -/

/-- The number of an identifier is a signed 64-bit integer; a name may be any string. -/
def Identifier.Fits : Identifier → Prop
  | .id n => fitsInt64 n = true
  | .name _ => True

instance (k : Identifier) : Decidable k.Fits :=
  match k with
  | .id n => inferInstanceAs (Decidable (fitsInt64 n = true))
  | .name _ => .isTrue trivial

/-- The doubles of a quote. -/
def Quote.doubles (q : Quote) : List Float := [q.bestBid, q.bestAsk]

/-- The identifiers of a position. -/
def Position.identifiers (p : Position) : List Identifier := [p.client, p.instrument]

/-- The doubles of a position. -/
def Position.doubles (p : Position) : List Float := [p.size, p.profit, p.volume]

theorem Quote.forall_mem_doubles {q : Quote} {P : Float → Prop} :
    (∀ x ∈ q.doubles, P x) ↔ P q.bestBid ∧ P q.bestAsk := by
  simp [doubles]

theorem Position.forall_mem_identifiers {p : Position} {P : Identifier → Prop} :
    (∀ k ∈ p.identifiers, P k) ↔ P p.client ∧ P p.instrument := by
  simp [identifiers]

theorem Position.forall_mem_doubles {p : Position} {P : Float → Prop} :
    (∀ x ∈ p.doubles, P x) ↔ P p.size ∧ P p.profit ∧ P p.volume := by
  simp [doubles]

/-- The identifiers of a snapshot. -/
def Snapshot.identifiers (s : Snapshot) : List Identifier :=
  s.quotes.map (·.instrument) ++ (s.positions.getD []).flatMap Position.identifiers

/-- The doubles of a snapshot. -/
def Snapshot.doubles (s : Snapshot) : List Float :=
  s.quotes.flatMap Quote.doubles ++ (s.positions.getD []).flatMap Position.doubles

/-- The integers of a snapshot are signed 64-bit integers. -/
structure Snapshot.Fits (s : Snapshot) : Prop where
  timestamp : fitsInt64 s.timestamp = true
  identifiers : ∀ k ∈ s.identifiers, k.Fits

namespace Snapshot

variable {s : Snapshot}

theorem Fits.instrument (fits : s.Fits) {q : Quote} (hq : q ∈ s.quotes) : q.instrument.Fits :=
  fits.identifiers _ (List.mem_append_left _ (List.mem_map_of_mem hq))

theorem Fits.position (fits : s.Fits) {ps : List Position} (some_positions : s.positions = some ps)
    {p : Position} (hp : p ∈ ps) : ∀ k ∈ p.identifiers, k.Fits := by
  intro k hk
  apply fits.identifiers k
  rw [Snapshot.identifiers, some_positions]
  exact List.mem_append_right _ (List.mem_flatMap.mpr ⟨p, hp, hk⟩)

theorem mem_doubles_of_quote {q : Quote} (hq : q ∈ s.quotes) {x : Float} (hx : x ∈ q.doubles) :
    x ∈ s.doubles :=
  List.mem_append_left _ (List.mem_flatMap.mpr ⟨q, hq, hx⟩)

theorem mem_doubles_of_position {ps : List Position} (some_positions : s.positions = some ps)
    {p : Position} (hp : p ∈ ps) {x : Float} (hx : x ∈ p.doubles) : x ∈ s.doubles := by
  rw [doubles, some_positions]
  exact List.mem_append_right _ (List.mem_flatMap.mpr ⟨p, hp, hx⟩)

end Snapshot

/-! ### Written without loss -/

/-- A signed 64-bit integer is within the bounds of the format. -/
theorem isFaithful_integer {n : Int} (fits : fitsInt64 n = true) :
    (Value.integer n).IsFaithful room := by
  simp only [fitsInt64, Bool.and_eq_true, decide_eq_true_eq] at fits
  obtain ⟨low, high⟩ := fits
  have bounds : (maxInt64 : Int) ≤ maxUInt64 := by decide
  exact .integer low (by omega)

theorem Identifier.isFaithful {k : Identifier} (fits : k.Fits) : k.toValue.IsFaithful room := by
  cases k with
  | id n => exact isFaithful_integer fits
  | name s => exact .text s

theorem Quote.isFaithful {q : Quote} (fits : q.instrument.Fits)
    (reals : ∀ x ∈ q.doubles, (Value.real x).IsFaithful room) :
    q.toValue.IsFaithful (room + 1) := by
  rw [forall_mem_doubles] at reals
  apply Value.IsFaithful.object
  simp only [List.forall_mem_cons, List.not_mem_nil, IsEmpty.forall_iff, implies_true, and_true]
  exact ⟨Identifier.isFaithful fits, reals⟩

theorem Position.isFaithful {p : Position} (fits : ∀ k ∈ p.identifiers, k.Fits)
    (reals : ∀ x ∈ p.doubles, (Value.real x).IsFaithful room) :
    p.toValue.IsFaithful (room + 1) := by
  rw [forall_mem_identifiers] at fits
  rw [forall_mem_doubles] at reals
  apply Value.IsFaithful.object
  simp only [List.forall_mem_cons, List.not_mem_nil, IsEmpty.forall_iff, implies_true, and_true]
  exact ⟨Identifier.isFaithful fits.1, Identifier.isFaithful fits.2, reals⟩

/-- A snapshot is three deep around its doubles. -/
theorem Snapshot.isFaithful {s : Snapshot} (fits : s.Fits)
    (reals : ∀ x ∈ s.doubles, (Value.real x).IsFaithful room) :
    s.toValue.IsFaithful (room + 3) := by
  have quotes : (Value.array (s.quotes.map Quote.toValue)).IsFaithful (room + 2) := by
    apply Value.IsFaithful.array
    rw [List.forall_mem_map]
    intro q hq
    exact Quote.isFaithful (fits.instrument hq) fun x hx ↦ reals x (mem_doubles_of_quote hq hx)
  apply Value.IsFaithful.object
  simp only [List.forall_mem_cons, List.not_mem_nil, IsEmpty.forall_iff, implies_true, and_true]
  refine ⟨isFaithful_integer fits.timestamp, quotes, ?_⟩
  -- Absent positions are written as `null`, an empty list as an empty array.
  cases some_positions : s.positions with
  | none => exact .null
  | some ps =>
    apply Value.IsFaithful.array
    rw [List.forall_mem_map]
    intro p hp
    exact Position.isFaithful (fits.position some_positions hp)
      fun x hx ↦ reals x (mem_doubles_of_position some_positions hp hx)

/-! ### Interpreted as the records -/

/-- The value of the only member with a name is interpreted. -/
theorem only_named {α : Type} {reader : Reader α} {members : Members} {ms : List (String × Value)}
    (whole : members.IsWhole) (are_read : members.AreReadAs room ms) (name : String) {v : Value}
    (written : Feed.only? name ms = some v) {a : α} (interprets : Interprets reader room v a) :
    Only (members.named name) (reader room · = .ok a) := by
  obtain ⟨node, one, read⟩ := (Feed.only?_eq_some_iff are_read).mp written
  have inside : node ∈ members.named name := one ▸ List.mem_singleton_self node
  exact ⟨node, one, interprets node (Members.IsWhole.of_mem_named whole inside) read⟩

/-- An identifier is interpreted as it is, a number never as a name. -/
theorem Identifier.read_interprets {k : Identifier} (fits : k.Fits) :
    Interprets Identifier.read room k.toValue k := by
  intro node _ read
  have stands : Identifier.ofValue? k.toValue = some k := by
    cases k with
    | id n => exact if_pos fits
    | name s => rfl
  exact Feed.identifier_read_eq_ok_iff.mpr ((Feed.ofValue?_eq_some_iff read).mp stands)

/-- A stored quote as a record. -/
def Quote.storedSchema : Schema QuoteDraft Quote := Quote.schema "QuoteEntry" "instrument"

/-- A stored position as a record. -/
def Position.storedSchema : Schema PositionDraft Position :=
  Position.schema "PositionRecord" "instrument_key"

theorem Quote.storedSchema_isLawful : Quote.storedSchema.IsLawful :=
  Quote.schema_isLawful (by decide)

theorem Position.storedSchema_isLawful : Position.storedSchema.IsLawful :=
  Position.schema_isLawful (by decide)

theorem Snapshot.storedSchema_isLawful : Snapshot.storedSchema.IsLawful :=
  Snapshot.schema_isLawful (by decide)
    (readSequence_thorough (Schema.read_thorough Quote.storedSchema_isLawful.thorough))
    (Schema.read_thorough Position.storedSchema_isLawful.thorough)

theorem Quote.read_interprets {q : Quote} (fits : q.instrument.Fits) :
    Interprets Quote.storedSchema.read (room + 1) q.toValue q := by
  apply Schema.interprets Quote.storedSchema_isLawful
  intro members whole are_read
  -- Among the members that are written, each field has one: this is what `rfl` finds.
  have only {α : Type} {reader : Reader α} := @only_named room α reader _ _ whole are_read
  have instrument := only "instrument" rfl (Identifier.read_interprets fits)
  have best_bid := only "best_bid" rfl (readDouble_interprets q.bestBid)
  have best_ask := only "best_ask" rfl (readDouble_interprets q.bestAsk)
  have fills : Fills room (members.named ·) storedSchema.fields storedSchema.blank
      ⟨some q.instrument, some q.bestBid, some q.bestAsk⟩ :=
    .only rfl instrument (.only rfl best_bid (.only rfl best_ask .nil))
  exact ⟨_, fills, rfl⟩

theorem Position.read_interprets {p : Position} (fits : ∀ k ∈ p.identifiers, k.Fits) :
    Interprets Position.storedSchema.read (room + 1) p.toValue p := by
  rw [forall_mem_identifiers] at fits
  apply Schema.interprets Position.storedSchema_isLawful
  intro members whole are_read
  have only {α : Type} {reader : Reader α} := @only_named room α reader _ _ whole are_read
  have client := only "client_id" rfl (Identifier.read_interprets fits.1)
  have instrument := only "instrument_key" rfl (Identifier.read_interprets fits.2)
  have size := only "position" rfl (readDouble_interprets p.size)
  have profit := only "pnl" rfl (readDouble_interprets p.profit)
  have volume := only "volume" rfl (readDouble_interprets p.volume)
  have fills : Fills room (members.named ·) storedSchema.fields storedSchema.blank
      ⟨some p.client, some p.instrument, some p.size, some p.profit, some p.volume⟩ :=
    .only rfl client (.only rfl instrument (.only rfl size (.only rfl profit
      (.only rfl volume .nil))))
  exact ⟨_, fills, rfl⟩

/-- The elements of a list are interpreted as they are. -/
theorem readSequence_interprets_map {α : Type} {reader : Reader α} {toValue : α → Value}
    {as : List α} (each : ∀ a ∈ as, Interprets reader room (toValue a) a) :
    Interprets (readSequence reader) (room + 1) (.array (as.map toValue)) as := by
  apply readSequence_interprets
  rw [List.forall₂_map_left_iff, List.forall₂_same]
  exact each

/-- The value that the positions of a snapshot are written as. -/
def positionsValue : Option (List Position) → Value
  | none => .null
  | some ps => .array (ps.map Position.toValue)

theorem positions_interprets {s : Snapshot} (fits : s.Fits) :
    Interprets (readOptional (readSequence Position.storedSchema.read)) (room + 2)
      (positionsValue s.positions) s.positions := by
  cases some_positions : s.positions with
  | none => exact readOptional_interprets_null
  | some ps =>
    have each : ∀ p ∈ ps, Interprets Position.storedSchema.read (room + 1) p.toValue p :=
      fun p hp ↦ Position.read_interprets (fits.position some_positions hp)
    exact readOptional_interprets nofun (readSequence_interprets_map each)

theorem Snapshot.read_interprets {s : Snapshot} (fits : s.Fits) :
    Interprets Snapshot.storedSchema.read (room + 3) s.toValue s := by
  have interprets_quotes : Interprets (readSequence Quote.storedSchema.read) (room + 2)
      (.array (s.quotes.map Quote.toValue)) s.quotes :=
    readSequence_interprets_map fun q hq ↦ Quote.read_interprets (fits.instrument hq)
  apply Schema.interprets Snapshot.storedSchema_isLawful
  intro members whole are_read
  have only {α : Type} {reader : Reader α} := @only_named (room + 2) α reader _ _ whole are_read
  have timestamp := only "timestamp" rfl (readInt64_interprets fits.timestamp)
  have quotes := only "entries" rfl interprets_quotes
  have positions := only "positions" rfl (positions_interprets fits)
  have fills : Fills (room + 2) (members.named ·) storedSchema.fields storedSchema.blank
      ⟨some s.timestamp, some s.quotes, some s.positions⟩ :=
    .only rfl timestamp (.only rfl quotes (.only rfl positions .nil))
  exact ⟨_, fills, rfl⟩

/-- A stored snapshot is read as it was written: every timestamp and number of an identifier that
fits, every string, and whether there are positions. Its doubles are finite and denoted by the
literals that they are written as. -/
theorem Snapshot.ofText_toText {s : Snapshot} (fits : s.Fits)
    (finite : ∀ x ∈ s.doubles, x.isFinite = true) (reads_back : ∀ x ∈ s.doubles, ReadsBack x) :
    Snapshot.ofText s.toText = .ok s := by
  have thorough : Thorough Snapshot.storedSchema.read :=
    Schema.read_thorough Snapshot.storedSchema_isLawful.thorough
  have faithful : s.toValue.IsFaithful maxNesting :=
    Snapshot.isFaithful fits fun x hx ↦ .real (finite x hx) (reads_back x hx)
  exact readDocument_toText thorough faithful (Snapshot.read_interprets fits)

/-- A snapshot at the ends of what can be stored: the first timestamp, the least and the greatest
numbers, a number beside the name of the same digits, names with all that is escaped, and the least
and the greatest doubles. -/
def extremeSnapshot : Snapshot where
  timestamp := minInt64
  quotes := [⟨.id 7, 1.5, -0.0⟩, ⟨.name "7", 0.1, 1.5e-7⟩,
    ⟨.name "\"\\/\n\x00\x1f\x7f é€\u2028😀", 1e16, -123456789.125⟩]
  positions := some [⟨.id minInt64, .name "", 5e-324, 1.7976931348623157e308, 0⟩,
    ⟨.id maxInt64, .name "null", 1e-5, 1e15, 0.30000000000000004⟩]

/-- The snapshot at the ends of what can be stored is read as it was written. -/
theorem ofText_toText_extremeSnapshot :
    extremeSnapshot.Fits ∧ (∀ x ∈ extremeSnapshot.doubles, x.isFinite = true) ∧
      (∀ x ∈ extremeSnapshot.doubles, ReadsBack x) ∧
      Snapshot.ofText extremeSnapshot.toText = .ok extremeSnapshot := by
  have fits : extremeSnapshot.Fits := ⟨by decide, by decide⟩
  have finite : ∀ x ∈ extremeSnapshot.doubles, x.isFinite = true := by decide +kernel
  have read : ∀ x ∈ extremeSnapshot.doubles,
      readDouble 0 (Document.scan (writeReal x)).root = .ok x := by decide +kernel
  have reads_back : ∀ x ∈ extremeSnapshot.doubles, ReadsBack x :=
    fun x hx ↦ (readsBack_iff (finite x hx)).mpr (read x hx)
  exact ⟨fits, finite, reads_back, Snapshot.ofText_toText fits finite reads_back⟩

end Quoteboard.Market
