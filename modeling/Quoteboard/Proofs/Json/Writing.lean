import Quoteboard.Proofs.Json.Numbers
import Quoteboard.Proofs.Json.Records

/-!
# Values are read as they were written

The text of a value is a document, and reading it gives the value back. Strings come back whatever
their characters; an integer has to be within the bounds of the format, a double has to be finite
and denoted by the literal that it is written as, and the value must not be nested too deep.
-/

namespace Quoteboard.Json

open Quoteboard.Text

/-! ### Strings -/

private theorem toNat_lt_of_control {c : Char} (control : c < ' ') : c.toNat < 32 := by
  rw [Char.lt_def, UInt32.lt_iff_toNat_lt] at control
  exact control

private theorem hexUnit?_of_control {n : Nat} (lt : n < 32) :
    hexUnit? '0' '0' (hexDigitOf (n / 16)) (hexDigitOf (n % 16)) = some n := by
  have each : ∀ n : Fin 32,
      hexUnit? '0' '0' (hexDigitOf (n.val / 16)) (hexDigitOf (n.val % 16)) = some n.val := by
    decide
  exact each ⟨n, lt⟩

/-- A character is written as one element of a string, which denotes it. -/
theorem exists_spelt_char (c : Char) :
    ∃ p : Piece, p.SpeltAs (writeChar c) ∧ ∀ {ps : List Piece} {cs : List Char},
      PiecesDenote ps cs → PiecesDenote (p :: ps) (c :: cs) := by
  unfold writeChar
  split
  case h_8 no_quote no_backslash _ _ _ _ _ =>
    split
    · next control =>
      have small := toNat_lt_of_control control
      have not_low : isLowSurrogate c.toNat = false := by
        simp only [isLowSurrogate, Bool.and_eq_false_iff, decide_eq_false_iff_not]
        omega
      have not_high : isHighSurrogate c.toNat = false := by
        simp only [isHighSurrogate, Bool.and_eq_false_iff, decide_eq_false_iff_not]
        omega
      refine ⟨.unit c.toNat, .unit (hexUnit?_of_control small), fun denote ↦ ?_⟩
      have unit := PiecesDenote.unit not_low not_high denote
      rwa [Char.ofNat_toNat] at unit
    · next no_control => exact ⟨.char c, .plain no_quote no_backslash no_control, .char⟩
  all_goals exact ⟨.char _, .named rfl, .char⟩

/-- A string is written as a string that denotes it. -/
theorem exists_spelt_text (s : String) : ∃ t : RawText, t.SpeltAs (writeText s) ∧ t.Denotes s := by
  have pieces (cs : List Char) :
      ∃ ps, PiecesSpelt ps (cs.flatMap writeChar) ∧ PiecesDenote ps cs := by
    induction cs with
    | nil => exact ⟨[], .nil, .nil⟩
    | cons c cs ih =>
      obtain ⟨ps, spelt, denote⟩ := ih
      obtain ⟨p, spelt_here, denotes⟩ := exists_spelt_char c
      exact ⟨p :: ps, .cons spelt_here spelt, denotes denote⟩
  obtain ⟨ps, spelt, denote⟩ := pieces s.toList
  exact ⟨⟨ps, .closed⟩, .intro rfl spelt, rfl, denote⟩

/-! ### Values -/

/-- The literal that a double is written as, if it is written as one, denotes it. -/
def ReadsBack (x : Float) : Prop :=
  ∀ l : Literal, l.SpeltAs (writeReal x) → (Node.number l).IsDouble x

/-- Whether a value is written without loss for a reader with this much room. -/
inductive Value.IsFaithful : Nat → Value → Prop
  | null {room : Nat} : IsFaithful room .null
  | bool {room : Nat} (b : Bool) : IsFaithful room (.bool b)
  | integer {room : Nat} {n : Int} (low : minInt64 ≤ n) (high : n ≤ maxUInt64) :
      IsFaithful room (.integer n)
  | real {room : Nat} {x : Float} (finite : x.isFinite = true) (reads_back : ReadsBack x) :
      IsFaithful room (.real x)
  | text {room : Nat} (s : String) : IsFaithful room (.text s)
  | array {room : Nat} {items : List Value} (each : ∀ v ∈ items, IsFaithful room v) :
      IsFaithful (room + 1) (.array items)
  | object {room : Nat} {members : List (String × Value)}
      (each : ∀ member ∈ members, IsFaithful room member.2) :
      IsFaithful (room + 1) (.object members)

/-- A tree that is spelt as the value is written, and is read as the value. -/
structure Node.Returns (room : Nat) (node : Node) (v : Value) : Prop where
  spelt : node.SpeltAs v.write
  read : node.read room = .ok v

/-- The members of an object are read, key by key and value by value. -/
def Members.AreReadAs (room : Nat) (members : Members) (ms : List (String × Value)) : Prop :=
  List.Forall₂ (fun member value ↦ member.1.decode = .ok value.1 ∧
    member.2.read room = .ok value.2) members.toList ms

variable {room : Nat}

/-- The items of an array are written up to its end. -/
theorem exists_spelt_items {v : Value} {vs : List Value}
    (each : ∀ w ∈ v :: vs, ∃ node : Node, node.Returns room w) :
    ∃ (items : Items) (cs : List Char), v.write ++ writeItems vs = cs ++ [']'] ∧
      items.SpeltAs cs ∧
      List.Forall₂ (fun node w ↦ node.read room = .ok w) items.toList (v :: vs) := by
  obtain ⟨node, spelt, read⟩ := each v List.mem_cons_self
  cases vs with
  | nil =>
    refine ⟨.more node (.stop .closed), v.write ++ [], ?_, .last spelt.padded allSpace_nil,
      .cons read .nil⟩
    rw [List.append_nil, writeItems]
  | cons w ws =>
    obtain ⟨items, cs, written, spelt_rest, read_rest⟩ :=
      exists_spelt_items fun u hu ↦ each u (List.mem_cons_of_mem _ hu)
    refine ⟨.more node items, v.write ++ ([] ++ ',' :: cs), ?_,
      .more spelt.padded allSpace_nil spelt_rest, .cons read read_rest⟩
    rw [writeItems, List.cons_append, written]
    simp

/-- The members of an object are written up to its end. -/
theorem exists_spelt_members {k : String} {v : Value} {ms : List (String × Value)}
    (each : ∀ member ∈ (k, v) :: ms, ∃ node : Node, node.Returns room member.2) :
    ∃ (members : Members) (cs : List Char),
      writeText k ++ ':' :: v.write ++ writeMembers ms = cs ++ ['\x7d'] ∧ members.SpeltAs cs ∧
      members.AreReadAs room ((k, v) :: ms) := by
  obtain ⟨key, key_spelt, denotes⟩ := exists_spelt_text k
  obtain ⟨node, spelt, read⟩ := each (k, v) List.mem_cons_self
  have decoded := RawText.decode_eq_ok_iff.mpr denotes
  cases ms with
  | nil =>
    refine ⟨.more key node (.stop .closed), _, ?_,
      .last allSpace_nil key_spelt allSpace_nil spelt.padded allSpace_nil,
      .cons ⟨decoded, read⟩ .nil⟩
    simp [writeMembers]
  | cons m ms =>
    obtain ⟨members, cs, written, spelt_rest, read_rest⟩ :=
      exists_spelt_members fun u hu ↦ each u (List.mem_cons_of_mem _ hu)
    refine ⟨.more key node members, _, ?_,
      .more allSpace_nil key_spelt allSpace_nil spelt.padded allSpace_nil spelt_rest,
      .cons ⟨decoded, read⟩ read_rest⟩
    simp only [List.append_assoc, List.cons_append] at written
    simp [writeMembers, written]

/-- A literal with a fraction or an exponent denotes no integer. -/
theorem Literal.value?_eq_real {l : Literal} {x : Float} (is_real : l.isWhole = false)
    (is_double : (Node.number l).IsDouble x) : l.value? = some (.real x) := by
  obtain ⟨_, ⟨⟩, ⟨n, value, -⟩ | value⟩ := is_double
  · rw [Literal.value?_eq_integer_iff, Literal.integer?, is_real] at value
    cases value
  · exact value

/-- A number is read as what it denotes. -/
theorem Literal.SpeltAs.returns {l : Literal} {v : Value} (spelt : l.SpeltAs v.write) {n : Number}
    (value : l.value? = some n) (same : n.toValue = v) : (Node.number l).Returns room v where
  spelt := .number spelt
  read := map_eq_ok_iff.mpr ⟨n, Literal.read_eq_ok_iff.mpr value, same⟩

/-- A value that is written without loss is read as it was written. -/
theorem Value.IsFaithful.exists_returns {v : Value} (faithful : v.IsFaithful room) :
    ∃ node : Node, node.Returns room v := by
  induction faithful with
  | null => exact ⟨.null, .null, rfl⟩
  | bool b =>
    cases b with
    | false => exact ⟨.bool false, .no, rfl⟩
    | true => exact ⟨.bool true, .yes, rfl⟩
  | integer low high =>
    obtain ⟨l, spelt, value⟩ := exists_spelt_integer low high
    exact ⟨.number l, spelt.returns value rfl⟩
  | real finite reads_back =>
    obtain ⟨l, spelt, is_real⟩ := exists_spelt_real finite
    exact ⟨.number l, spelt.returns (Literal.value?_eq_real is_real (reads_back l spelt)) rfl⟩
  | text s =>
    obtain ⟨t, spelt, denotes⟩ := exists_spelt_text s
    have decoded := RawText.decode_eq_ok_iff.mpr denotes
    exact ⟨.text t, .text spelt, map_eq_ok_iff.mpr ⟨s, decoded, rfl⟩⟩
  | @array room items each ih =>
    cases items with
    | nil => exact ⟨.array (.stop .closed), .emptyArray allSpace_nil, rfl⟩
    | cons v vs =>
      obtain ⟨items, cs, written, spelt, read⟩ := exists_spelt_items ih
      refine ⟨.array items, ?_, ?_⟩
      · rw [Value.write, List.cons_append, written]
        exact .array spelt
      · exact (Node.read_array_eq_ok_iff spelt.isWhole).mpr ⟨room, _, rfl, read, rfl⟩
  | @object room members each ih =>
    cases members with
    | nil => exact ⟨.object (.stop .closed), .emptyObject allSpace_nil, rfl⟩
    | cons member members =>
      obtain ⟨members, cs, written, spelt, read⟩ := exists_spelt_members ih
      refine ⟨.object members, ?_, ?_⟩
      · rw [Value.write, List.cons_append, List.cons_append, written]
        exact .object spelt
      · exact (Node.read_object_eq_ok_iff spelt.isWhole).mpr ⟨room, _, rfl, read, rfl⟩

/-- A finite double is denoted by the literal that it is written as exactly if it is read of it. -/
theorem readsBack_iff {x : Float} (finite : x.isFinite = true) :
    ReadsBack x ↔ readDouble room (Document.scan (writeReal x)).root = .ok x := by
  have scanned {l : Literal} (spelt : l.SpeltAs (writeReal x)) :
      (Document.scan (writeReal x)).root = .number l :=
    (isDocument_iff.mp (Node.SpeltAs.number spelt).isDocument).1
  rw [readDouble_eq_ok_iff]
  constructor
  · intro reads_back
    obtain ⟨l, spelt, -⟩ := exists_spelt_real finite
    rw [scanned spelt]
    exact reads_back l spelt
  · intro is_double l spelt
    rwa [scanned spelt] at is_double

/-- The text of a value that is written without loss is a document. -/
theorem Node.Returns.isDocument {node : Node} {v : Value} (returns : node.Returns room v) :
    IsDocument node v.toText.toList := by
  rw [Value.toText, String.toList_ofList]
  exact returns.spelt.isDocument

/-! ### Readers of what was written -/

section

variable {δ α : Type} {reader : Reader α} {v : Value} {a : α}

/-- What the reader makes of a value, however it is written. -/
def Interprets (reader : Reader α) (room : Nat) (v : Value) (a : α) : Prop :=
  ∀ node : Node, node.IsWhole → node.read room = .ok v → reader room node = .ok a

/-- What a reader makes of a value that is written without loss, it makes of the text of the
value. -/
theorem readDocument_toText (thorough : Thorough reader) (faithful : v.IsFaithful maxNesting)
    (interprets : Interprets reader maxNesting v a) : readDocument reader v.toText = .ok a := by
  obtain ⟨node, returns⟩ := faithful.exists_returns
  have read := interprets node returns.spelt.isWhole returns.read
  exact (readDocument_eq_ok_iff thorough).mpr ⟨node, returns.isDocument, read⟩

/-- How a tree is read as a value: by its kind, and its parts in turn. -/
inductive Node.IsReadAs : Nat → Node → Value → Prop
  | null {room : Nat} : IsReadAs room .null .null
  | bool {room : Nat} (b : Bool) : IsReadAs room (.bool b) (.bool b)
  | integer {room : Nat} {l : Literal} {n : Int} (value : l.value? = some (.integer n)) :
      IsReadAs room (.number l) (.integer n)
  | real {room : Nat} {l : Literal} {x : Float} (value : l.value? = some (.real x)) :
      IsReadAs room (.number l) (.real x)
  | text {room : Nat} {t : RawText} {s : String} (denotes : t.Denotes s) :
      IsReadAs room (.text t) (.text s)
  | array {room : Nat} {items : Items} {vs : List Value}
      (each : List.Forall₂ (fun item w ↦ item.read room = .ok w) items.toList vs) :
      IsReadAs (room + 1) (.array items) (.array vs)
  | object {room : Nat} {members : Members} {ms : List (String × Value)}
      (are_read : members.AreReadAs room ms) : IsReadAs (room + 1) (.object members) (.object ms)

/-- A whole tree is read in one way only. -/
theorem Node.isReadAs_of_read {node : Node} (whole : node.IsWhole)
    (read : node.read room = .ok v) : node.IsReadAs room v := by
  cases node with
  | null =>
    cases read
    exact .null
  | bool b =>
    cases read
    exact .bool b
  | number l =>
    obtain ⟨n, read_number, rfl⟩ := map_eq_ok_iff.mp read
    have value := Literal.read_eq_ok_iff.mp read_number
    cases n with
    | integer n => exact .integer value
    | real x => exact .real value
  | text t =>
    obtain ⟨s, decoded, rfl⟩ := map_eq_ok_iff.mp read
    exact .text (RawText.decode_eq_ok_iff.mp decoded)
  | array items =>
    obtain ⟨below, vs, rfl, each, rfl⟩ := (Node.read_array_eq_ok_iff whole).mp read
    exact .array each
  | object members =>
    obtain ⟨below, ms, rfl, each, rfl⟩ := (Node.read_object_eq_ok_iff whole).mp read
    exact .object each
  | flawed => cases read

/-- A double is interpreted as it is. -/
theorem readDouble_interprets (x : Float) : Interprets readDouble room (.real x) x := by
  intro node whole read
  cases Node.isReadAs_of_read whole read with
  | real value => exact readDouble_eq_ok_iff.mpr ⟨_, rfl, .inr value⟩

/-- An integer is interpreted as it is if it fits. -/
theorem readInt64_interprets {n : Int} (fits : fitsInt64 n = true) :
    Interprets readInt64 room (.integer n) n := by
  intro node whole read
  cases Node.isReadAs_of_read whole read with
  | integer value => exact readInt64_eq_ok_iff.mpr (Literal.isInt64_iff.mpr ⟨value, fits⟩)

/-- Trees that are read as values are interpreted as the values are. -/
theorem forall₂_interprets {nodes : List Node} {vs : List Value} {as : List α}
    (whole : ∀ node ∈ nodes, node.IsWhole)
    (read : List.Forall₂ (fun node w ↦ node.read room = .ok w) nodes vs)
    (each : List.Forall₂ (Interprets reader room) vs as) :
    List.Forall₂ (fun node b ↦ reader room node = .ok b) nodes as := by
  induction read generalizing as with
  | nil =>
    cases each
    exact .nil
  | cons here _ ih =>
    obtain ⟨whole_here, whole⟩ := List.forall_mem_cons.mp whole
    cases each with
    | cons interprets others => exact .cons (interprets _ whole_here here) (ih whole others)

/-- Items are interpreted one by one. -/
theorem readSequence_interprets {vs : List Value} {as : List α}
    (each : List.Forall₂ (Interprets reader room) vs as) :
    Interprets (readSequence reader) (room + 1) (.array vs) as := by
  intro node whole read
  cases Node.isReadAs_of_read whole read with
  | array items_read =>
    have all_read := forall₂_interprets (fun _ ↦ Items.IsWhole.of_mem whole) items_read each
    exact (readSequence_eq_ok_iff whole).mpr ⟨_, room, rfl, rfl, all_read⟩

/-- What may be missing is missing where `null` is written. -/
theorem readOptional_interprets_null : Interprets (readOptional reader) room .null none := by
  intro node whole read
  cases Node.isReadAs_of_read whole read
  rfl

/-- What may be missing is there where anything else is written. -/
theorem readOptional_interprets (some_value : v ≠ .null) (interprets : Interprets reader room v a) :
    Interprets (readOptional reader) room v (some a) := by
  intro node whole read
  refine readOptional_eq_ok_iff.mpr (.inr ⟨?_, a, interprets node whole read, rfl⟩)
  rintro rfl
  cases read
  exact some_value rfl

/-- An object is interpreted as the record that its members fill in. -/
theorem Schema.interprets {s : Schema δ α} (lawful : s.IsLawful) {ms : List (String × Value)}
    (filled : ∀ {members : Members}, members.IsWhole → members.AreReadAs room ms →
      ∃ d, Fills room (members.named ·) s.fields s.blank d ∧ s.finish d = .ok a) :
    Interprets s.read (room + 1) (.object ms) a := by
  intro node whole read
  cases Node.isReadAs_of_read whole read with
  | @object _ members _ are_read =>
    obtain ⟨d, fills, finish⟩ := filled whole are_read
    have names : (Node.object members).HasNames := by
      intro member inside
      obtain ⟨i, bound, rfl⟩ := List.getElem_of_mem inside
      obtain ⟨decoded, -⟩ := are_read.get bound (are_read.length_eq ▸ bound)
      exact ⟨_, RawText.decode_eq_ok_iff.mp decoded⟩
    exact (Schema.read_eq_ok_iff lawful whole).mpr
      ⟨trivial, names, trivial, room, d, rfl, fills, finish⟩

end

end Quoteboard.Json
