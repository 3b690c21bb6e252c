import Mathlib.Data.List.Forall2
import Quoteboard.Json.Record
import Quoteboard.Proofs.Json.Scanning

/-!
# What a reader accepts

A tree that the grammar spells is whole. Of a whole tree, what a reader makes of strings, numbers,
sequences and values is said here without the reader, and every reader that gives a result has met a
whole tree.
-/

namespace Quoteboard.Json

open Quoteboard.Text

/-! ### Strings -/

/-- The characters that the elements of a string denote: two units that make a surrogate pair denote
one, and no unit of a pair stands alone. -/
inductive PiecesDenote : List Piece → List Char → Prop
  | nil : PiecesDenote [] []
  | char {c : Char} {ps : List Piece} {cs : List Char} (others : PiecesDenote ps cs) :
      PiecesDenote (.char c :: ps) (c :: cs)
  | unit {n : Nat} {ps : List Piece} {cs : List Char} (not_low : isLowSurrogate n = false)
      (not_high : isHighSurrogate n = false) (others : PiecesDenote ps cs) :
      PiecesDenote (.unit n :: ps) (Char.ofNat n :: cs)
  | pair {n m : Nat} {ps : List Piece} {cs : List Char} (high : isHighSurrogate n = true)
      (low : isLowSurrogate m = true) (others : PiecesDenote ps cs) :
      PiecesDenote (.unit n :: .unit m :: ps) (pairedChar n m :: cs)

/-- The string that is written. -/
def RawText.Denotes (t : RawText) (s : String) : Prop :=
  t.ending = .closed ∧ PiecesDenote t.pieces s.toList

/-- Only a closed string is not refused for its end. -/
theorem TextEnd.error?_eq_none_iff {e : TextEnd} : e.error? = none ↔ e = .closed := by
  cases e <;> simp [TextEnd.error?]

theorem isLowSurrogate_of_high {n : Nat} (high : isHighSurrogate n = true) :
    isLowSurrogate n = false := by
  simp only [isHighSurrogate, isLowSurrogate, Bool.and_eq_true, Bool.and_eq_false_iff,
    decide_eq_true_eq, decide_eq_false_iff_not] at high ⊢
  omega

private theorem decodePieces_of_denote {ps : List Piece} {cs : List Char}
    (h : PiecesDenote ps cs) : decodePieces .closed ps = .ok cs := by
  induction h with
  | nil => rfl
  | char _ ih => simp [decodePieces, ih, Except.map]
  | unit not_low not_high _ ih =>
    unfold decodePieces
    simp [not_low, not_high, ih, Except.map]
  | pair high low _ ih =>
    simp [decodePieces, isLowSurrogate_of_high high, high, low, ih, Except.map]

private theorem denote_of_decodePieces {ending : TextEnd} {ps : List Piece} {cs : List Char}
    (h : decodePieces ending ps = .ok cs) : ending = .closed ∧ PiecesDenote ps cs := by
  fun_induction decodePieces ending ps generalizing cs with
  | case1 | case4 | case6 | case7 | case8 => cases h
  | case2 no_error =>
    cases h
    exact ⟨TextEnd.error?_eq_none_iff.mp no_error, .nil⟩
  | case3 c ps ih =>
    obtain ⟨cs, decoded, rfl⟩ := map_eq_ok_iff.mp h
    obtain ⟨closed, denote⟩ := ih decoded
    exact ⟨closed, .char denote⟩
  | case5 n _ high m ps low ih =>
    obtain ⟨cs, decoded, rfl⟩ := map_eq_ok_iff.mp h
    obtain ⟨closed, denote⟩ := ih decoded
    exact ⟨closed, .pair high low denote⟩
  | case9 n ps not_low not_high ih =>
    obtain ⟨cs, decoded, rfl⟩ := map_eq_ok_iff.mp h
    obtain ⟨closed, denote⟩ := ih decoded
    exact ⟨closed, .unit (Bool.eq_false_iff.mpr not_low) (Bool.eq_false_iff.mpr not_high) denote⟩

/-- A string is decoded to what it denotes. -/
theorem RawText.decode_eq_ok_iff {t : RawText} {s : String} : t.decode = .ok s ↔ t.Denotes s := by
  rw [RawText.decode, map_eq_ok_iff]
  constructor
  · rintro ⟨cs, decoded, rfl⟩
    obtain ⟨closed, denote⟩ := denote_of_decodePieces decoded
    exact ⟨closed, by rwa [String.toList_ofList]⟩
  · rintro ⟨closed, denote⟩
    exact ⟨s.toList, closed ▸ decodePieces_of_denote denote, String.ofList_toList⟩

/-- A string denotes one text at most. -/
theorem RawText.Denotes.unique {t : RawText} {s s' : String} (h : t.Denotes s)
    (h' : t.Denotes s') : s' = s := by
  rw [← RawText.decode_eq_ok_iff] at h h'
  exact Except.ok.inj (h'.symm.trans h)

/-! ### Numbers -/

/-- The integer that the digits before the point denote, with the sign. -/
def Literal.signed (l : Literal) : Int :=
  if l.negative then -(ofDigits l.whole : Int) else ofDigits l.whole

/-- The signed 64-bit integer that a value is: digits without fraction and exponent, and no minus
in front of zero. -/
def Node.IsInt64 (node : Node) (n : Int) : Prop :=
  ∃ l, node = .number l ∧ l.isWhole = true ∧ l.signed = n ∧ (l.negative = true → n ≠ 0) ∧
    fitsInt64 n = true

/-- A literal is an integer if it looks like one, and the integer fits. -/
theorem Literal.integer?_eq_some_iff {l : Literal} {n : Int} (fits : fitsInt64 n = true) :
    l.integer? = some n ↔ l.isWhole = true ∧ l.signed = n ∧ (l.negative = true → n ≠ 0) := by
  have low : minInt64 = -0x8000000000000000 := rfl
  have high : maxInt64 = 0x7fffffffffffffff := rfl
  have great : maxUInt64 = 0xffffffffffffffff := rfl
  simp only [fitsInt64, Bool.and_eq_true, decide_eq_true_eq, low, high] at fits
  simp only [Literal.integer?, Literal.signed, great]
  cases l.isWhole
  · simp
  · cases l.negative <;> simp <;> omega

/-- A literal has an integer as its value if it is that integer. -/
theorem Literal.value?_eq_integer_iff {l : Literal} {n : Int} :
    l.value? = some (.integer n) ↔ l.integer? = some n := by
  rw [Literal.value?]
  cases l.integer? <;> simp

/-- A number is a signed 64-bit integer if that is its value. -/
theorem Literal.isInt64_iff {l : Literal} {n : Int} :
    (Node.number l).IsInt64 n ↔ l.value? = some (.integer n) ∧ fitsInt64 n = true := by
  rw [Literal.value?_eq_integer_iff]
  constructor
  · rintro ⟨_, ⟨⟩, is_whole, signed, no_minus_zero, fits⟩
    exact ⟨(Literal.integer?_eq_some_iff fits).mpr ⟨is_whole, signed, no_minus_zero⟩, fits⟩
  · rintro ⟨integer, fits⟩
    obtain ⟨is_whole, signed, no_minus_zero⟩ := (Literal.integer?_eq_some_iff fits).mp integer
    exact ⟨l, rfl, is_whole, signed, no_minus_zero, fits⟩

/-- The double that a value is, as the nearest to an integer or to a decimal fraction. -/
def Node.IsDouble (node : Node) (x : Float) : Prop :=
  ∃ l, node = .number l ∧
    ((∃ n, l.value? = some (.integer n) ∧ x = doubleOfInt n) ∨ l.value? = some (.real x))

/-- A value of a wrong kind is refused. -/
theorem Node.mismatch_ne_ok {α : Type} {node : Node} {expected : Expected} {a : α} :
    node.mismatch expected ≠ .ok a := by
  intro h
  obtain ⟨found, -, refused⟩ := bind_eq_ok_iff.mp h
  cases refused

/-- A number is read if it has a value. -/
theorem Literal.read_eq_ok_iff {l : Literal} {n : Number} : l.read = .ok n ↔ l.value? = some n := by
  rw [Literal.read]
  cases l.value? <;> simp

/-- What is read as a double is one. -/
theorem readDouble_eq_ok_iff {room : Nat} {node : Node} {x : Float} :
    readDouble room node = .ok x ↔ node.IsDouble x := by
  cases node with
  | number l =>
    rw [readDouble, map_eq_ok_iff]
    simp only [Literal.read_eq_ok_iff, Node.IsDouble]
    constructor
    · rintro ⟨n | y, value, rfl⟩
      · exact ⟨l, rfl, .inl ⟨n, value, rfl⟩⟩
      · exact ⟨l, rfl, .inr value⟩
    · rintro ⟨_, ⟨⟩, ⟨n, value, rfl⟩ | value⟩
      · exact ⟨.integer n, value, rfl⟩
      · exact ⟨.real x, value, rfl⟩
  | _ => simp [readDouble, Node.mismatch_ne_ok, Node.IsDouble]

/-- A value is one double at most. -/
theorem Node.IsDouble.unique {node : Node} {x y : Float} (h : node.IsDouble x)
    (h' : node.IsDouble y) : y = x := by
  rw [← @readDouble_eq_ok_iff 0] at h h'
  exact Except.ok.inj (h'.symm.trans h)

/-- What is read as a signed 64-bit integer is one. -/
theorem readInt64_eq_ok_iff {room : Nat} {node : Node} {n : Int} :
    readInt64 room node = .ok n ↔ node.IsInt64 n := by
  cases node with
  | number l =>
    rw [readInt64, bind_eq_ok_iff, Literal.isInt64_iff]
    simp only [Literal.read_eq_ok_iff]
    constructor
    · rintro ⟨m | y, value, read⟩
      · dsimp only at read
        split at read
        · next fits =>
          cases read
          exact ⟨value, fits⟩
        · cases read
      · cases read
    · rintro ⟨value, fits⟩
      refine ⟨.integer n, value, ?_⟩
      simp [fits]
  | _ => simp [readInt64, Node.mismatch_ne_ok, Node.IsInt64]

/-! ### Sequences -/

/-- The items of an array. -/
def Items.toList : Items → List Node
  | .stop _ => []
  | .more item rest => item :: rest.toList

/-- The members of an object. -/
def Members.toList : Members → List (RawText × Node)
  | .stop _ => []
  | .more key value rest => (key, value) :: rest.toList

section

variable {α : Type} {room : Nat}

/-- The items of an array without a flaw are without flaws. -/
theorem Items.IsWhole.of_mem {items : Items} (whole : items.IsWhole) {node : Node}
    (h : node ∈ items.toList) : node.IsWhole := by
  fun_induction Items.toList items with
  | case1 => cases h
  | case2 item rest ih =>
    rcases List.mem_cons.mp h with rfl | h
    · exact whole.1
    · exact ih whole.2 h

/-- The values of members without a flaw are without flaws. -/
theorem Members.IsWhole.of_mem {members : Members} (whole : members.IsWhole)
    {member : RawText × Node} (h : member ∈ members.toList) : member.2.IsWhole := by
  fun_induction Members.toList members with
  | case1 => cases h
  | case2 key value rest ih =>
    rcases List.mem_cons.mp h with rfl | h
    · exact whole.2.1
    · exact ih whole.2.2 h

/-- The items of an array are read one by one. -/
theorem Items.readAll_eq_ok_iff {item : Node → Except Error α} {items : Items} {values : List α}
    (whole : items.IsWhole) : items.readAll item = .ok values ↔
      List.Forall₂ (fun node value ↦ item node = .ok value) items.toList values := by
  fun_induction Items.toList items generalizing values with
  | case1 ending =>
    obtain rfl : ending = .closed := whole
    simp [Items.readAll, ItemsEnd.error?, demand, Except.map, eq_comm]
  | case2 node rest ih =>
    rw [Items.readAll, bind_eq_ok_iff, List.forall₂_cons_left_iff]
    constructor
    · rintro ⟨first, read, others⟩
      obtain ⟨more, read_more, e⟩ := bind_eq_ok_iff.mp others
      cases e
      exact ⟨first, more, read, (ih whole.2).mp read_more, rfl⟩
    · rintro ⟨first, more, read, read_more, rfl⟩
      exact ⟨first, read, bind_eq_ok_iff.mpr ⟨more, (ih whole.2).mpr read_more, rfl⟩⟩

/-- Items are read whole one by one. -/
theorem Items.read_eq_readAll (items : Items) :
    items.read room = items.readAll (Node.read room) := by
  fun_induction Items.toList items with
  | case1 ending => rfl
  | case2 node rest ih => rw [Items.read, Items.readAll, ih]

/-- Members are read whole one by one. -/
theorem Members.read_eq_ok_iff {members : Members} {values : List (String × Value)}
    (whole : members.IsWhole) : members.read room = .ok values ↔
      List.Forall₂ (fun member value ↦ member.1.decode = .ok value.1 ∧
        member.2.read room = .ok value.2) members.toList values := by
  fun_induction Members.toList members generalizing values with
  | case1 ending =>
    obtain rfl : ending = .closed := whole
    simp [Members.read, MembersEnd.read, MembersEnd.key?, MembersEnd.error?, demand, Except.map,
      eq_comm]
  | case2 key value rest ih =>
    rw [Members.read, bind_eq_ok_iff, List.forall₂_cons_left_iff]
    constructor
    · rintro ⟨name, decoded, others⟩
      obtain ⟨first, read, others⟩ := bind_eq_ok_iff.mp others
      obtain ⟨more, read_more, e⟩ := bind_eq_ok_iff.mp others
      cases e
      exact ⟨(name, first), more, ⟨decoded, read⟩, (ih whole.2.2).mp read_more, rfl⟩
    · rintro ⟨⟨name, first⟩, more, ⟨decoded, read⟩, read_more, rfl⟩
      refine ⟨name, decoded, bind_eq_ok_iff.mpr ⟨first, read, ?_⟩⟩
      exact bind_eq_ok_iff.mpr ⟨more, (ih whole.2.2).mpr read_more, rfl⟩

/-- What is read whole of an array. -/
theorem Node.read_array_eq_ok_iff {items : Items} {value : Value} (whole : items.IsWhole) :
    (Node.array items).read room = .ok value ↔ ∃ below values, room = below + 1 ∧
      List.Forall₂ (fun node value ↦ node.read below = .ok value) items.toList values ∧
      .array values = value := by
  cases room with
  | zero => simp [Node.read]
  | succ below =>
    simp [Node.read, map_eq_ok_iff, Items.read_eq_readAll, Items.readAll_eq_ok_iff whole]

/-- What is read whole of an object. -/
theorem Node.read_object_eq_ok_iff {members : Members} {value : Value} (whole : members.IsWhole) :
    (Node.object members).read room = .ok value ↔ ∃ below values, room = below + 1 ∧
      List.Forall₂ (fun member value ↦ member.1.decode = .ok value.1 ∧
        member.2.read below = .ok value.2) members.toList values ∧ .object values = value := by
  cases room with
  | zero => simp [Node.read]
  | succ below => simp [Node.read, map_eq_ok_iff, Members.read_eq_ok_iff whole]

/-- What is read as a sequence is one. -/
theorem readSequence_eq_ok_iff {item : Reader α} {node : Node} {values : List α}
    (whole : node.IsWhole) : readSequence item room node = .ok values ↔
      ∃ items below, node = .array items ∧ room = below + 1 ∧
        List.Forall₂ (fun node value ↦ item below node = .ok value) items.toList values := by
  cases node with
  | array items =>
    cases room with
    | zero => simp [readSequence]
    | succ room => simp [readSequence, Items.readAll_eq_ok_iff whole]
  | _ => simp [readSequence, Node.mismatch_ne_ok]

/-- What is read where `null` may stand. -/
theorem readOptional_eq_ok_iff {value : Reader α} {node : Node} {a : Option α} :
    readOptional value room node = .ok a ↔ (node = .null ∧ a = none) ∨
      (node ≠ .null ∧ ∃ b, value room node = .ok b ∧ a = some b) := by
  unfold readOptional
  split
  · simp [eq_comm]
  · next no_null =>
    rw [map_eq_ok_iff]
    constructor
    · rintro ⟨b, read, rfl⟩
      exact .inr ⟨no_null, b, read, rfl⟩
    · rintro (⟨e, -⟩ | ⟨-, b, read, rfl⟩)
      · exact absurd e no_null
      · exact ⟨b, read, rfl⟩

end

/-! ### Values read whole -/

mutual

/-- How many arrays and objects enclose one another. -/
def Node.depth : Node → Nat
  | .array items => items.depth + 1
  | .object members => members.depth + 1
  | _ => 0

/-- How many arrays and objects enclose one another in some item. -/
def Items.depth : Items → Nat
  | .stop _ => 0
  | .more item rest => max item.depth rest.depth

/-- How many arrays and objects enclose one another in some member. -/
def Members.depth : Members → Nat
  | .stop _ => 0
  | .more _ value rest => max value.depth rest.depth

end

mutual

/-- The numbers in a value. -/
def Node.literals : Node → List Literal
  | .number l => [l]
  | .array items => items.literals
  | .object members => members.literals
  | _ => []

/-- The numbers in items. -/
def Items.literals : Items → List Literal
  | .stop _ => []
  | .more item rest => item.literals ++ rest.literals

/-- The numbers in members. -/
def Members.literals : Members → List Literal
  | .stop _ => []
  | .more _ value rest => value.literals ++ rest.literals

end

mutual

/-- The strings in a value, keys included. -/
def Node.texts : Node → List RawText
  | .text t => [t]
  | .array items => items.texts
  | .object members => members.texts
  | _ => []

/-- The strings in items, keys included. -/
def Items.texts : Items → List RawText
  | .stop _ => []
  | .more item rest => item.texts ++ rest.texts

/-- The strings in members, keys included. -/
def Members.texts : Members → List RawText
  | .stop _ => []
  | .more key value rest => key :: (value.texts ++ rest.texts)

end

/-- What is in reach of a reader: nothing is nested deeper than there is room, every number is in
range, and every string denotes one. -/
structure InReach (room depth : Nat) (literals : List Literal) (texts : List RawText) : Prop where
  depth_le : depth ≤ room
  value_isSome : ∀ l ∈ literals, l.value?.isSome = true
  denotes : ∀ t ∈ texts, ∃ s, t.Denotes s

/-- Two things are in reach if each is. -/
theorem InReach.append_iff {room d d' : Nat} {ls ls' : List Literal} {ts ts' : List RawText} :
    InReach room (max d d') (ls ++ ls') (ts ++ ts') ↔
      InReach room d ls ts ∧ InReach room d' ls' ts' := by
  constructor
  · rintro ⟨depth_le, value_isSome, denotes⟩
    exact ⟨⟨by omega, fun l hl ↦ value_isSome l (List.mem_append_left _ hl),
        fun t ht ↦ denotes t (List.mem_append_left _ ht)⟩,
      ⟨by omega, fun l hl ↦ value_isSome l (List.mem_append_right _ hl),
        fun t ht ↦ denotes t (List.mem_append_right _ ht)⟩⟩
  · rintro ⟨first, others⟩
    refine ⟨Nat.max_le.mpr ⟨first.depth_le, others.depth_le⟩, fun l hl ↦ ?_, fun t ht ↦ ?_⟩
    · exact (List.mem_append.mp hl).elim (first.value_isSome l) (others.value_isSome l)
    · exact (List.mem_append.mp ht).elim (first.denotes t) (others.denotes t)

/-- A key is in reach of a reader if it denotes a string. -/
theorem InReach.cons_text_iff {room d : Nat} {ls : List Literal} {t : RawText} {ts : List RawText} :
    InReach room d ls (t :: ts) ↔ (∃ s, t.Denotes s) ∧ InReach room d ls ts := by
  constructor
  · rintro ⟨depth_le, value_isSome, denotes⟩
    exact ⟨denotes t List.mem_cons_self, depth_le, value_isSome,
      fun t' ht ↦ denotes t' (List.mem_cons_of_mem _ ht)⟩
  · rintro ⟨denoted, depth_le, value_isSome, denotes⟩
    refine ⟨depth_le, value_isSome, fun t' ht ↦ ?_⟩
    rcases List.mem_cons.mp ht with rfl | ht
    · exact denoted
    · exact denotes t' ht

/-- One more enclosing array or object takes one more room. -/
theorem InReach.succ_iff {room d : Nat} {ls : List Literal} {ts : List RawText} :
    InReach (room + 1) (d + 1) ls ts ↔ InReach room d ls ts := by
  constructor
  · rintro ⟨depth_le, value_isSome, denotes⟩
    exact ⟨Nat.le_of_succ_le_succ depth_le, value_isSome, denotes⟩
  · rintro ⟨depth_le, value_isSome, denotes⟩
    exact ⟨Nat.succ_le_succ depth_le, value_isSome, denotes⟩

/-- Whether a value can be read whole. -/
def Node.IsReadable (room : Nat) (node : Node) : Prop :=
  InReach room node.depth node.literals node.texts

/-- Nothing is out of reach where there is nothing. -/
theorem InReach.nothing (room : Nat) : InReach room 0 [] [] :=
  ⟨Nat.zero_le _, by simp, by simp⟩

mutual

/-- A whole value is read exactly if it can be. -/
theorem Node.exists_read_iff (room : Nat) : {node : Node} → node.IsWhole →
    ((∃ value, node.read room = .ok value) ↔ node.IsReadable room)
  | .null, _ => ⟨fun _ ↦ .nothing room, fun _ ↦ ⟨_, rfl⟩⟩
  | .bool _, _ => ⟨fun _ ↦ .nothing room, fun _ ↦ ⟨_, rfl⟩⟩
  | .number l, _ => by
    simp only [Node.read, map_eq_ok_iff, Literal.read_eq_ok_iff]
    constructor
    · rintro ⟨_, n, value, rfl⟩
      exact ⟨Nat.zero_le _, by simp [Node.literals, value], by simp [Node.texts]⟩
    · intro h
      obtain ⟨n, value⟩ := Option.isSome_iff_exists.mp (h.value_isSome l (by simp [Node.literals]))
      exact ⟨_, n, value, rfl⟩
  | .text t, _ => by
    simp only [Node.read, map_eq_ok_iff, RawText.decode_eq_ok_iff]
    constructor
    · rintro ⟨_, s, denotes, rfl⟩
      exact InReach.cons_text_iff.mpr ⟨⟨s, denotes⟩, .nothing room⟩
    · intro h
      obtain ⟨s, denotes⟩ := h.denotes t (by simp [Node.texts])
      exact ⟨_, s, denotes, rfl⟩
  | .array items, whole => by
    cases room with
    | zero =>
      refine ⟨fun ⟨_, read⟩ ↦ ?_, fun h ↦ absurd h.depth_le (Nat.not_succ_le_zero _)⟩
      cases read
    | succ room =>
      have inside := Items.exists_read_iff room whole
      rw [Node.IsReadable, Node.depth, Node.literals, Node.texts, InReach.succ_iff, ← inside]
      simp [Node.read, map_eq_ok_iff]
  | .object members, whole => by
    cases room with
    | zero =>
      refine ⟨fun ⟨_, read⟩ ↦ ?_, fun h ↦ absurd h.depth_le (Nat.not_succ_le_zero _)⟩
      cases read
    | succ room =>
      have inside := Members.exists_read_iff room whole
      rw [Node.IsReadable, Node.depth, Node.literals, Node.texts, InReach.succ_iff, ← inside]
      simp [Node.read, map_eq_ok_iff]
  | .flawed _, whole => whole.elim

/-- Whole items are read exactly if they can be. -/
theorem Items.exists_read_iff (room : Nat) : {items : Items} → items.IsWhole →
    ((∃ values, items.read room = .ok values) ↔
      InReach room items.depth items.literals items.texts)
  | .stop ending, closed => by
    obtain rfl : ending = .closed := closed
    exact ⟨fun _ ↦ .nothing room, fun _ ↦ ⟨_, rfl⟩⟩
  | .more item rest, ⟨whole, others⟩ => by
    have first := Node.exists_read_iff room whole
    have more := Items.exists_read_iff room others
    rw [Items.depth, Items.literals, Items.texts, InReach.append_iff, ← more, ← Node.IsReadable,
      ← first]
    simp only [Items.read, bind_eq_ok_iff]
    constructor
    · rintro ⟨_, value, read, values, read_more, -⟩
      exact ⟨⟨value, read⟩, values, read_more⟩
    · rintro ⟨⟨value, read⟩, values, read_more⟩
      exact ⟨_, value, read, values, read_more, rfl⟩

/-- Whole members are read exactly if they can be. -/
theorem Members.exists_read_iff (room : Nat) : {members : Members} → members.IsWhole →
    ((∃ values, members.read room = .ok values) ↔
      InReach room members.depth members.literals members.texts)
  | .stop ending, closed => by
    obtain rfl : ending = .closed := closed
    exact ⟨fun _ ↦ .nothing room, fun _ ↦ ⟨_, rfl⟩⟩
  | .more key value rest, ⟨closed, whole, others⟩ => by
    have first := Node.exists_read_iff room whole
    have more := Members.exists_read_iff room others
    rw [Members.depth, Members.literals, Members.texts, InReach.cons_text_iff, InReach.append_iff,
      ← more, ← Node.IsReadable, ← first]
    simp only [Members.read, bind_eq_ok_iff, RawText.decode_eq_ok_iff]
    constructor
    · rintro ⟨_, name, denotes, value, read, values, read_more, -⟩
      exact ⟨⟨name, denotes⟩, ⟨value, read⟩, values, read_more⟩
    · rintro ⟨⟨name, denotes⟩, ⟨value, read⟩, values, read_more⟩
      exact ⟨_, name, denotes, value, read, values, read_more, rfl⟩

end

/-! ### Flaws are refused -/

/-- A reader that gives a result only where there is no flaw. -/
def Thorough {α : Type} (reader : Reader α) : Prop :=
  ∀ {room : Nat} {node : Node} {a : α}, reader room node = .ok a → node.skip = .ok ()

/-- A reader of numbers is thorough, as a number has no flaw. -/
theorem readInt64_thorough : Thorough readInt64 := by
  intro room node n read
  obtain ⟨l, rfl, -⟩ := readInt64_eq_ok_iff.mp read
  rfl

theorem readDouble_thorough : Thorough readDouble := by
  intro room node x read
  obtain ⟨l, rfl, -⟩ := readDouble_eq_ok_iff.mp read
  rfl

/-- A string that denotes one is passed over. -/
theorem RawText.skip_of_decode {t : RawText} {s : String} (decoded : t.decode = .ok s) :
    t.skip = .ok () :=
  RawText.skip_eq_ok_iff.mpr (RawText.decode_eq_ok_iff.mp decoded).1

/-- Items that are read one by one have no flaw. -/
theorem Items.skip_of_readAll {α : Type} {item : Node → Except Error α} {items : Items}
    {values : List α} (thorough : ∀ node a, item node = .ok a → node.skip = .ok ())
    (read : items.readAll item = .ok values) : items.skip = .ok () := by
  fun_induction Items.toList items generalizing values with
  | case1 ending =>
    cases ending with
    | closed => rfl
    | _ => cases read
  | case2 node rest ih =>
    obtain ⟨first, read_first, others⟩ := bind_eq_ok_iff.mp read
    obtain ⟨more, read_more, -⟩ := bind_eq_ok_iff.mp others
    exact Items.skip_more.mpr ⟨thorough node first read_first, ih read_more⟩

theorem readSequence_thorough {α : Type} {item : Reader α} (thorough : Thorough item) :
    Thorough (readSequence item) := by
  intro room node values read
  cases node with
  | array items =>
    cases room with
    | zero => cases read
    | succ room => exact Items.skip_of_readAll (fun _ _ ↦ thorough) read
  | _ => exact absurd read Node.mismatch_ne_ok

theorem readOptional_thorough {α : Type} {value : Reader α} (thorough : Thorough value) :
    Thorough (readOptional value) := by
  intro room node a read
  rcases readOptional_eq_ok_iff.mp read with ⟨rfl, -⟩ | ⟨-, b, read_value, -⟩
  · rfl
  · exact thorough read_value

/-- The end of an object that is not refused behind its last key has no flaw. -/
theorem MembersEnd.skip_of_demand {ending : MembersEnd} (read : demand ending.error? = .ok ()) :
    (Members.stop ending).skip = .ok () := by
  cases ending with
  | closed => rfl
  | badKey key =>
    refine Members.skip_stop.mpr (.inr ⟨key, rfl, TextEnd.error?_eq_none_iff.mp ?_⟩)
    cases e : key.ending.error? with
    | none => rfl
    | some cause => simp [MembersEnd.error?, e, demand] at read
  | _ => cases read

theorem MembersEnd.skip_of_read {ending : MembersEnd} (read : ending.read = .ok ()) :
    (Members.stop ending).skip = .ok () := by
  apply MembersEnd.skip_of_demand
  unfold MembersEnd.read at read
  split at read
  · obtain ⟨_, -, demanded⟩ := bind_eq_ok_iff.mp read
    exact demanded
  · exact read

mutual

/-- A value that is read whole has no flaw. -/
theorem Node.skip_of_read {room : Nat} : {node : Node} → {value : Value} →
    node.read room = .ok value → node.skip = .ok ()
  | .null, _, _ | .bool _, _, _ | .number _, _, _ => rfl
  | .text t, _, read => by
    obtain ⟨s, decoded, -⟩ := map_eq_ok_iff.mp read
    exact RawText.skip_of_decode decoded
  | .array items, _, read => by
    cases room with
    | zero => cases read
    | succ room =>
      obtain ⟨values, read_items, -⟩ := map_eq_ok_iff.mp read
      exact Items.skip_of_read read_items
  | .object members, _, read => by
    cases room with
    | zero => cases read
    | succ room =>
      obtain ⟨values, read_members, -⟩ := map_eq_ok_iff.mp read
      exact Members.skip_of_read read_members
  | .flawed _, _, read => nomatch read

/-- Items that are read whole have no flaw. -/
theorem Items.skip_of_read {room : Nat} : {items : Items} → {values : List Value} →
    items.read room = .ok values → items.skip = .ok ()
  | .stop ending, _, read => by
    cases ending with
    | closed => rfl
    | _ => cases read
  | .more item rest, _, read => by
    obtain ⟨first, read_first, others⟩ := bind_eq_ok_iff.mp read
    obtain ⟨more, read_more, -⟩ := bind_eq_ok_iff.mp others
    exact Items.skip_more.mpr ⟨Node.skip_of_read read_first, Items.skip_of_read read_more⟩

/-- Members that are read whole have no flaw. -/
theorem Members.skip_of_read {room : Nat} : {members : Members} → {values : List (String × Value)} →
    members.read room = .ok values → members.skip = .ok ()
  | .stop ending, _, read => by
    obtain ⟨_, ended, -⟩ := map_eq_ok_iff.mp read
    exact MembersEnd.skip_of_read ended
  | .more key value rest, _, read => by
    obtain ⟨name, -, others⟩ := bind_eq_ok_iff.mp read
    obtain ⟨first, read_first, others⟩ := bind_eq_ok_iff.mp others
    obtain ⟨more, read_more, -⟩ := bind_eq_ok_iff.mp others
    exact Members.skip_more.mpr ⟨Node.skip_of_read read_first, Members.skip_of_read read_more⟩

end

theorem Node.read_thorough : Thorough Node.read := Node.skip_of_read

end Quoteboard.Json
