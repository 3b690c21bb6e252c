import Quoteboard.Proofs.Json.Parts
import Quoteboard.Proofs.Market.Decoding
import Quoteboard.Proofs.Text.ByteOrder
import Quoteboard.Proofs.Text.Numerals

/-!
# The two shapes of the quotes of a message

The quotes of a message are written as an array, or as an object under keys. Of an object the last
quote under each key counts, and the keys alone decide the order: the members of an object without
repeated keys may stand in any order, and an object that numbers its quotes from zero stands for the
array of them.
-/

namespace Quoteboard.Market.Feed

open Quoteboard.Json Quoteboard.Text

/-- The most bytes that a text takes. -/
def maxTextSize : Nat := 0x7fffffffffffffff

/-- Which of two keys comes first: numerals by number, those of one number by their bytes, and
behind them all other keys by their bytes. -/
inductive Precedes (a b : String) : Prop
  | number {i j : Nat} (left : index? a = some i) (right : index? b = some j) (less : i < j)
  | spelling {i : Nat} (left : index? a = some i) (right : index? b = some i)
      (less : bytes a < bytes b)
  | kind {i : Nat} (left : index? a = some i) (right : index? b = none)
  | name (left : index? a = none) (right : index? b = none) (less : bytes a < bytes b)

/-- The entries that members yield: of each key the last, each once, in the order of the keys. -/
structure Yields (members entries : List (String × Quote)) : Prop where
  mem_iff : ∀ key quote, (key, quote) ∈ entries ↔ IsLast members key quote
  nodup : (entries.map (·.1)).Nodup
  ordered : entries.Pairwise fun a b ↦ Precedes a.1 b.1

/-- Whether a record is this message, apart from its quotes. -/
structure IsFrame (node : Node) (m : Snapshot) : Prop where
  record : node.IsRecord messageFields
  names : node.HasNames
  timestamp : Only (node.valuesOf messageFields "timestamp") (·.IsInt64 m.timestamp)
  positions : ArePositions (node.valuesOf messageFields "positions") m.positions
  position_names : ∀ items, .array items ∈ node.valuesOf messageFields "positions" →
    ∀ position ∈ items.toList, position.HasNames

/-- Whether two records are the same, apart from their quotes. -/
structure AgreeBesideQuotes (a b : Node) : Prop where
  record : a.IsRecord messageFields ↔ b.IsRecord messageFields
  names : a.HasNames ↔ b.HasNames
  timestamp : a.valuesOf messageFields "timestamp" = b.valuesOf messageFields "timestamp"
  positions : a.valuesOf messageFields "positions" = b.valuesOf messageFields "positions"

/-- Whether a member is an item under its number. -/
def IsListed (member : RawText × Node) (item : Node × Nat) : Prop :=
  member.1.Denotes (toString item.2) ∧ member.2 = item.1

/-- Whether members are some items under their numbers, counted from zero, in any order. -/
def AreNumbered (members : Members) (items : Items) : Prop :=
  ∃ listed, members.toList.Perm listed ∧ List.Forall₂ IsListed listed items.toList.zipIdx

/-! ### The order of the keys -/

/-- The order of the keys is that of their numbers and bytes. -/
theorem keyBefore_iff {a b : String} : KeyBefore a b ↔ Precedes a b := by
  rw [KeyBefore]
  cases left : index? a with
  | none =>
    cases right : index? b with
    | none =>
      rw [compare_eq_lt_iff]
      constructor
      · exact .name left right
      · intro before
        cases before with
        | name _ _ less => exact less
        | number left' | spelling left' | kind left' => cases left.symm.trans left'
    | some j =>
      refine ⟨False.elim, fun before ↦ ?_⟩
      cases before with
      | number left' | spelling left' | kind left' => cases left.symm.trans left'
      | name _ right' => cases right.symm.trans right'
  | some i =>
    cases right : index? b with
    | none => exact ⟨fun _ ↦ .kind left right, fun _ ↦ trivial⟩
    | some j =>
      dsimp only
      rw [compare_eq_lt_iff]
      constructor
      · rintro (less | ⟨rfl, less⟩)
        · exact .number left right less
        · exact .spelling left right less
      · intro before
        cases before with
        | number left' right' less =>
          cases left.symm.trans left'
          cases right.symm.trans right'
          exact .inl less
        | spelling left' right' less =>
          cases left.symm.trans left'
          cases right.symm.trans right'
          exact .inr ⟨rfl, less⟩
        | kind _ right' | name _ right' => cases right.symm.trans right'

private theorem nodup_keys {entries : List (String × Quote)}
    (ordered : entries.Pairwise fun a b ↦ KeyBefore a.1 b.1) : (entries.map (·.1)).Nodup := by
  refine List.pairwise_map.mpr (ordered.imp ?_)
  intro a b before same
  rw [same] at before
  exact before.asymm before

example : Precedes "9" "10" ∧ bytes "10" < bytes "9" :=
  ⟨.number (i := 9) (j := 10) (by decide) (by decide) (by decide), by decide⟩

/-- Members yield the entries that they make. -/
theorem yields_iff {members entries : List (String × Quote)} :
    Yields members entries ↔ AreEntries members entries := by
  constructor
  · rintro ⟨mem_iff, -, ordered⟩
    exact ⟨mem_iff, ordered.imp keyBefore_iff.mpr⟩
  · rintro ⟨mem_iff, ordered⟩
    exact ⟨mem_iff, nodup_keys ordered, ordered.imp keyBefore_iff.mp⟩

/-! ### Members without repeated keys -/

section

variable {named named' entries : List (String × Quote)}

/-- Where no key is repeated, every member is the last with its key. -/
theorem isLast_iff_mem (distinct : (named.map (·.1)).Nodup) {key : String} {quote : Quote} :
    IsLast named key quote ↔ (key, quote) ∈ named := by
  constructor
  · rintro ⟨before, behind, rfl, -⟩
    exact List.mem_append_right _ List.mem_cons_self
  · intro h
    obtain ⟨before, behind, rfl⟩ := List.append_of_mem h
    rw [List.map_append, List.map_cons, List.nodup_append] at distinct
    obtain ⟨-, distinct, -⟩ := distinct
    refine ⟨before, behind, rfl, fun e he same ↦ ?_⟩
    exact (List.nodup_cons.mp distinct).1 (List.mem_map.mpr ⟨e, he, same⟩)

/-- Members without repeated keys make the same entries in any order. -/
theorem AreEntries.of_perm (perm : named.Perm named') (distinct : (named.map (·.1)).Nodup)
    (are : AreEntries named entries) : AreEntries named' entries where
  mem_iff key quote := by
    have distinct' : (named'.map (·.1)).Nodup := (perm.map _).nodup distinct
    rw [are.mem_iff, isLast_iff_mem distinct, isLast_iff_mem distinct', perm.mem_iff]
  ordered := are.ordered

/-- Members that are in the order of their keys are the entries that they make. -/
theorem areEntries_self (ordered : named.Pairwise fun a b ↦ KeyBefore a.1 b.1) :
    AreEntries named named where
  mem_iff _ _ := (isLast_iff_mem (nodup_keys ordered)).symm
  ordered := ordered

end

/-! ### The quotes of an object -/

variable {members listed listed' : List (RawText × Node)} {quotes : List Quote}

/-- Whether members have these names and are these quotes. -/
def AreNamed (members : List (RawText × Node)) (named : List (String × Quote)) : Prop :=
  List.Forall₂ (fun member e ↦ member.1.Denotes e.1 ∧ IsQuote member.2 e.2) members named

/-- Whether the entries of members have these quotes. -/
def HaveQuotes (members : List (RawText × Node)) (quotes : List Quote) : Prop :=
  ∃ named entries, AreNamed members named ∧ AreEntries named entries ∧
    quotes = entries.map (·.2)

/-- The quotes of an object are those of the entries of its members. -/
theorem areQuotes_object_iff {members : Members} :
    AreQuotes (.object members) quotes ↔ HaveQuotes members.toList quotes := by
  constructor
  · intro are
    cases are with
    | object each are => exact ⟨_, _, each, are, rfl⟩
  · rintro ⟨named, entries, each, are, rfl⟩
    exact .object each are

/-- The keys of members are the names that they have. -/
theorem AreNamed.map_name? {named : List (String × Quote)} (each : AreNamed listed named) :
    listed.map (·.1.name?) = (named.map (·.1)).map some := by
  induction each with
  | nil => rfl
  | cons here _ ih => simp [ih, RawText.name?_eq_some_iff.mpr here.1]

/-- Members without repeated keys have the same quotes in any order. -/
theorem HaveQuotes.of_perm (perm : listed.Perm listed')
    (distinct : (listed.map (·.1.name?)).Nodup) (have_quotes : HaveQuotes listed quotes) :
    HaveQuotes listed' quotes := by
  obtain ⟨named, entries, each, are, rfl⟩ := have_quotes
  obtain ⟨named', each', perm'⟩ := List.perm_comp_forall₂ perm.symm each
  rw [each.map_name?] at distinct
  exact ⟨named', entries, each', are.of_perm perm'.symm distinct.of_map, rfl⟩

/-! ### Numbered quotes -/

private theorem numbered_values {items : List Node} {start : Nat}
    (numbered : List.Forall₂ IsListed listed (items.zipIdx start)) : listed.map (·.2) = items := by
  have same : List.Forall₂ (· = ·) (listed.map (·.2)) ((items.zipIdx start).map (·.1)) :=
    List.forall₂_map_left_iff.mpr (List.forall₂_map_right_iff.mpr (numbered.imp fun _ _ h ↦ h.2))
  rwa [List.forall₂_eq_eq_eq, List.zipIdx_map_fst] at same

private theorem numbered_keys {items : List Node} {start : Nat}
    (numbered : List.Forall₂ IsListed listed (items.zipIdx start)) :
    listed.map (·.1.name?) =
      ((List.range' start items.length).map toString).map some := by
  have same : List.Forall₂ (· = ·) (listed.map (·.1.name?))
      ((items.zipIdx start).map fun item ↦ some (toString item.2)) :=
    List.forall₂_map_left_iff.mpr (List.forall₂_map_right_iff.mpr
      (numbered.imp fun _ _ h ↦ RawText.name?_eq_some_iff.mpr h.1))
  rw [List.forall₂_eq_eq_eq] at same
  rw [same, ← List.zipIdx_map_snd start items, List.map_map, List.map_map]
  rfl

private theorem ordered_of_numbers {named : List (String × Quote)} {start count : Nat}
    (bound : start + count ≤ maxUInt64 + 1)
    (keys : named.map (·.1) = (List.range' start count).map toString) :
    named.Pairwise fun a b ↦ KeyBefore a.1 b.1 := by
  have by_key : (named.map (·.1)).Pairwise KeyBefore := by
    rw [keys, List.pairwise_map]
    refine List.Pairwise.imp_of_mem (fun {i j} hi hj less ↦ ?_) List.pairwise_lt_range'
    rw [List.mem_range'_1] at hi hj
    have left : index? (toString i) = some i := unsigned?_toString (by omega)
    have right : index? (toString j) = some j := unsigned?_toString (by omega)
    exact keyBefore_iff.mpr (.number left right less)
  exact List.pairwise_map.mp by_key

private theorem exists_named_iff {items : List Node} {start : Nat}
    (numbered : List.Forall₂ IsListed listed (items.zipIdx start)) :
    (∃ named, AreNamed listed named ∧ quotes = named.map (·.2)) ↔
      List.Forall₂ IsQuote items quotes := by
  induction items generalizing listed start quotes with
  | nil =>
    cases numbered
    simp [AreNamed]
  | cons item items ih =>
    cases numbered with
    | @cons member _ listed _ here others =>
      obtain ⟨denotes, rfl⟩ := here
      rw [List.forall₂_cons_left_iff]
      constructor
      · rintro ⟨_, each, rfl⟩
        obtain ⟨e, named, ⟨-, is_quote⟩, rest, rfl⟩ := List.forall₂_cons_left_iff.mp each
        exact ⟨e.2, named.map (·.2), is_quote, (ih others).mp ⟨named, rest, rfl⟩, rfl⟩
      · rintro ⟨quote, quotes, is_quote, each, rfl⟩
        obtain ⟨named, rest, rfl⟩ := (ih others).mpr each
        exact ⟨(toString start, quote) :: named, .cons ⟨denotes, is_quote⟩ rest, rfl⟩

/-- Numbered members have the quotes that the items are. -/
theorem haveQuotes_numbered_iff {items : List Node} (bound : items.length ≤ maxUInt64 + 1)
    (numbered : List.Forall₂ IsListed listed items.zipIdx) :
    HaveQuotes listed quotes ↔ List.Forall₂ IsQuote items quotes := by
  have self {named : List (String × Quote)} (each : AreNamed listed named) :
      AreEntries named named := by
    have keys := each.map_name?.symm.trans (numbered_keys numbered)
    have keys' := List.map_injective_iff.mpr (Option.some_injective String) keys
    exact areEntries_self (ordered_of_numbers (by omega) keys')
  rw [← exists_named_iff numbered]
  constructor
  · rintro ⟨named, entries, each, are, rfl⟩
    exact ⟨named, each, by rw [are.unique (self each)]⟩
  · rintro ⟨named, each, rfl⟩
    exact ⟨named, named, each, self each, rfl⟩

/-! ### Messages -/

/-- Which message a text with these quotes is. -/
theorem decode_eq_ok_iff_of_quotes {text : String} {node value : Node} {m : Snapshot}
    (document : IsDocument node text.toList)
    (one : node.valuesOf messageFields "snapshot" = [value]) :
    decode text = .ok m ↔ IsFrame node m ∧ value.IsReadable 126 ∧ AreQuotes value m.quotes := by
  rw [decode_eq_ok_iff]
  constructor
  · rintro ⟨_, document', ⟨record, timestamp, ⟨value', one', are⟩, positions⟩, names, readable,
      position_names⟩
    obtain rfl := (isDocument_iff.mp document').1.symm.trans (isDocument_iff.mp document).1
    obtain rfl := List.singleton_inj.mp (one.symm.trans one')
    exact ⟨⟨record, names, timestamp, positions, position_names⟩,
      readable value (one ▸ List.mem_singleton_self _), are⟩
  · rintro ⟨⟨record, names, timestamp, positions, position_names⟩, readable, are⟩
    refine ⟨node, document, ⟨record, timestamp, ⟨value, one, are⟩, positions⟩, names,
      fun value' hv ↦ ?_, position_names⟩
    obtain rfl := List.mem_singleton.mp (one ▸ hv)
    exact readable

/-- Records that agree beside their quotes are the same message beside its quotes. -/
theorem AgreeBesideQuotes.isFrame_iff {a b : Node} (agree : AgreeBesideQuotes a b) {m : Snapshot} :
    IsFrame a m ↔ IsFrame b m := by
  constructor
  · rintro ⟨record, names, timestamp, positions, position_names⟩
    rw [agree.timestamp] at timestamp
    rw [agree.positions] at positions position_names
    exact ⟨agree.record.mp record, agree.names.mp names, timestamp, positions, position_names⟩
  · rintro ⟨record, names, timestamp, positions, position_names⟩
    rw [← agree.timestamp] at timestamp
    rw [← agree.positions] at positions position_names
    exact ⟨agree.record.mpr record, agree.names.mpr names, timestamp, positions, position_names⟩

/-- There are as many numbered members as items. -/
theorem AreNumbered.length_eq {members : Members} {items : Items}
    (numbered : AreNumbered members items) : members.toList.length = items.toList.length := by
  obtain ⟨listed, perm, numbered⟩ := numbered
  rw [perm.length_eq, numbered.length_eq, List.length_zipIdx]

/-- Numbered members can be read whole exactly if the items can. -/
theorem AreNumbered.isReadable_iff {members : Members} {items : Items} {room : Nat}
    (numbered : AreNumbered members items) :
    (Node.object members).IsReadable (room + 1) ↔ (Node.array items).IsReadable (room + 1) := by
  obtain ⟨listed, perm, numbered⟩ := numbered
  rw [Node.isReadable_object_iff, Node.isReadable_array_iff]
  have values := numbered_values numbered
  have denote : ∀ member ∈ members.toList, ∃ s, member.1.Denotes s := by
    intro member hm
    have key : member.1.name? ∈ listed.map (·.1.name?) :=
      List.mem_map_of_mem (perm.mem_iff.mp hm)
    rw [numbered_keys numbered] at key
    obtain ⟨s, -, denotes⟩ := List.mem_map.mp key
    exact ⟨s, RawText.name?_eq_some_iff.mp denotes.symm⟩
  rw [← values]
  simp only [List.forall_mem_map, perm.mem_iff] at denote ⊢
  exact ⟨fun h member hm ↦ (h member hm).2, fun h member hm ↦ ⟨denote member hm, h member hm⟩⟩

/-- Numbered members have the quotes that the items are. -/
theorem AreNumbered.areQuotes_iff {members : Members} {items : Items}
    (numbered : AreNumbered members items) (bound : items.toList.length ≤ maxUInt64 + 1) :
    AreQuotes (.object members) quotes ↔ AreQuotes (.array items) quotes := by
  obtain ⟨listed, perm, numbered⟩ := numbered
  have distinct : (listed.map (·.1.name?)).Nodup := by
    rw [numbered_keys numbered]
    exact (List.Nodup.map toString_nat_injective List.nodup_range').map (Option.some_injective _)
  have distinct' : (members.toList.map (·.1.name?)).Nodup := (perm.map _).nodup_iff.mpr distinct
  rw [areQuotes_object_iff]
  constructor
  · intro have_quotes
    exact .array ((haveQuotes_numbered_iff bound numbered).mp (have_quotes.of_perm perm distinct'))
  · rintro ⟨each⟩
    exact ((haveQuotes_numbered_iff bound numbered).mpr each).of_perm perm.symm distinct

/-- Members that can be read whole in one order can be in any. -/
theorem isReadable_object_of_perm {members members' : Members} {room : Nat}
    (perm : members.toList.Perm members'.toList) :
    (Node.object members).IsReadable (room + 1) ↔
      (Node.object members').IsReadable (room + 1) := by
  simp only [Node.isReadable_object_iff, perm.mem_iff]

/-- A message whose quotes are an object yields the quotes of the entries of its members, in the
order of their keys; the members of an object without repeated keys may stand in any order; and
members that are numbered from zero stand for the array of their values. -/
theorem decodes_both_shapes {text : String} {node : Node} {members : Members}
    (document : IsDocument node text.toList)
    (object : node.valuesOf messageFields "snapshot" = [.object members]) :
    (∀ m, decode text = .ok m ↔ IsFrame node m ∧ (Node.object members).IsReadable 126 ∧
      ∃ named entries, List.Forall₂ (fun member e ↦ member.1.Denotes e.1 ∧ IsQuote member.2 e.2)
          members.toList named ∧ Yields named entries ∧ m.quotes = entries.map (·.2)) ∧
    (∀ text' node' members', IsDocument node' text'.toList → AgreeBesideQuotes node node' →
      node'.valuesOf messageFields "snapshot" = [.object members'] →
      members.toList.Perm members'.toList → (members.toList.map (·.1.name?)).Nodup →
      ∀ m, decode text = .ok m ↔ decode text' = .ok m) ∧
    (∀ text' node' items, IsDocument node' text'.toList → AgreeBesideQuotes node node' →
      node'.valuesOf messageFields "snapshot" = [.array items] → AreNumbered members items →
      text.utf8ByteSize ≤ maxTextSize →
      ∀ m, decode text = .ok m ↔ decode text' = .ok m) := by
  refine ⟨fun m ↦ ?_, ?_, ?_⟩
  · rw [decode_eq_ok_iff_of_quotes document object, areQuotes_object_iff, HaveQuotes]
    simp only [yields_iff, AreNamed]
  · intro text' node' members' document' agree object' perm distinct m
    have distinct' : (members'.toList.map (·.1.name?)).Nodup := (perm.map _).nodup distinct
    rw [decode_eq_ok_iff_of_quotes document object, decode_eq_ok_iff_of_quotes document' object',
      agree.isFrame_iff, isReadable_object_of_perm perm, areQuotes_object_iff,
      areQuotes_object_iff]
    have same : HaveQuotes members.toList m.quotes ↔ HaveQuotes members'.toList m.quotes :=
      ⟨.of_perm perm distinct, .of_perm perm.symm distinct'⟩
    rw [same]
  · intro text' node' items document' agree array numbered fits m
    have inside : .object members ∈ node.valuesOf messageFields "snapshot" :=
      object ▸ List.mem_singleton_self _
    have bound : items.toList.length ≤ maxUInt64 + 1 := by
      have members_le := document.length_members_le inside
      have characters_le := length_le_utf8ByteSize text
      have as_many := numbered.length_eq
      simp only [maxTextSize, maxUInt64] at fits ⊢
      omega
    rw [decode_eq_ok_iff_of_quotes document object, decode_eq_ok_iff_of_quotes document' array,
      agree.isFrame_iff, numbered.isReadable_iff, numbered.areQuotes_iff bound]

/-! ### Two quotes in either shape -/

/-- A quote for an instrument with this name, as written in an array. -/
def sampleQuote (name : String) : Node :=
  .array (.more (.text (plainKey name)) (.more (oneDigit '1') (.more (oneDigit '2')
    (.stop .closed))))

/-- Quotes for instruments with these names, as written under keys. -/
def sampleMembers : List (String × String) → Members
  | [] => .stop .closed
  | (key, name) :: rest => .more (plainKey key) (sampleQuote name) (sampleMembers rest)

/-- Two quotes, as written in an array. -/
def sampleItems : Items := .more (sampleQuote "a") (.more (sampleQuote "b") (.stop .closed))

/-- A message with these quotes, as written. -/
def sampleFrame (quotes : Node) : Node :=
  .object (.more (plainKey "timestamp") (oneDigit '1')
    (.more (plainKey "snapshot") quotes (.stop .closed)))

/-- A message with two numbered quotes, the second first. -/
def fallingText : String :=
  "\x7b\"timestamp\":1,\"snapshot\":\x7b\"1\":[\"b\",1,2],\"0\":[\"a\",1,2]\x7d\x7d"

/-- A message with two numbered quotes, the first first. -/
def risingText : String :=
  "\x7b\"timestamp\":1,\"snapshot\":\x7b\"0\":[\"a\",1,2],\"1\":[\"b\",1,2]\x7d\x7d"

/-- A message with an array of two quotes. -/
def listedText : String :=
  "\x7b\"timestamp\":1,\"snapshot\":[[\"a\",1,2],[\"b\",1,2]]\x7d"

/-- The message with the two quotes. -/
def sampleMessage : Snapshot :=
  ⟨1, [⟨.name "a", doubleOfInt 1, doubleOfInt 2⟩, ⟨.name "b", doubleOfInt 1, doubleOfInt 2⟩], none⟩

theorem fallingText_isDocument : IsDocument
    (sampleFrame (.object (sampleMembers [("1", "b"), ("0", "a")]))) fallingText.toList :=
  isDocument_iff.mpr ⟨by cbv, by cbv, rfl⟩

theorem risingText_isDocument : IsDocument
    (sampleFrame (.object (sampleMembers [("0", "a"), ("1", "b")]))) risingText.toList :=
  isDocument_iff.mpr ⟨by cbv, by cbv, rfl⟩

theorem listedText_isDocument : IsDocument (sampleFrame (.array sampleItems)) listedText.toList :=
  isDocument_iff.mpr ⟨by cbv, by cbv, rfl⟩

/-- A plain key denotes its text. -/
theorem plainKey_denotes (s : String) : (plainKey s).Denotes s := by
  refine ⟨rfl, ?_⟩
  rw [plainKey]
  induction s.toList with
  | nil => exact .nil
  | cons c cs ih => exact .char ih

theorem sampleQuote_isQuote (name : String) :
    IsQuote (sampleQuote name) ⟨.name name, doubleOfInt 1, doubleOfInt 2⟩ where
  record := Nat.le_refl 3
  instrument := ⟨_, rfl, _, rfl, plainKey_denotes name⟩
  bestBid := ⟨oneDigit '1', rfl, _, rfl, .inl ⟨1, rfl, rfl⟩⟩
  bestAsk := ⟨oneDigit '2', rfl, _, rfl, .inl ⟨2, rfl, rfl⟩⟩

theorem sampleItems_isReadable : (Node.array sampleItems).IsReadable 126 where
  depth_le := by decide
  value_isSome := by
    have all_read : (Node.array sampleItems).literals.all (·.value?.isSome) = true := rfl
    simpa using all_read
  denotes t ht := by
    have plain : t = plainKey "a" ∨ t = plainKey "b" := by
      simpa [sampleItems, Node.texts, Items.texts, sampleQuote, oneDigit] using ht
    rcases plain with rfl | rfl
    all_goals exact ⟨_, plainKey_denotes _⟩

theorem sampleFrame_isFrame (quotes : Node) : IsFrame (sampleFrame quotes) sampleMessage where
  record := trivial
  names member hm := by
    have plain : member.1 = plainKey "timestamp" ∨ member.1 = plainKey "snapshot" := by
      rcases List.mem_cons.mp hm with rfl | hm
      · exact .inl rfl
      · rw [List.mem_singleton.mp hm]
        exact .inr rfl
    rcases plain with e | e
    all_goals exact ⟨_, e ▸ plainKey_denotes _⟩
  timestamp := ⟨_, rfl, one_isInt64⟩
  positions := .absent
  position_names := nofun

theorem sampleFrame_agree (quotes quotes' : Node) :
    AgreeBesideQuotes (sampleFrame quotes) (sampleFrame quotes') where
  record := Iff.rfl
  names := iff_of_true (sampleFrame_isFrame quotes).names (sampleFrame_isFrame quotes').names
  timestamp := rfl
  positions := rfl

theorem sampleMembers_areNumbered :
    AreNumbered (sampleMembers [("1", "b"), ("0", "a")]) sampleItems :=
  ⟨(sampleMembers [("0", "a"), ("1", "b")]).toList, .swap _ _ _,
    .cons ⟨plainKey_denotes _, rfl⟩ (.cons ⟨plainKey_denotes _, rfl⟩ .nil)⟩

/-- The array is the message, hence so are the numbered quotes in either order. -/
theorem decode_sample_shapes : decode listedText = .ok sampleMessage ∧
    decode fallingText = .ok sampleMessage ∧ decode risingText = .ok sampleMessage := by
  obtain ⟨-, any_order, both_shapes⟩ := decodes_both_shapes fallingText_isDocument rfl
  have listed : decode listedText = .ok sampleMessage :=
    (decode_eq_ok_iff_of_quotes listedText_isDocument rfl).mpr
      ⟨sampleFrame_isFrame _, sampleItems_isReadable,
        .array (.cons (sampleQuote_isQuote "a") (.cons (sampleQuote_isQuote "b") .nil))⟩
  have falling : decode fallingText = .ok sampleMessage :=
    (both_shapes _ _ _ listedText_isDocument (sampleFrame_agree _ _) rfl sampleMembers_areNumbered
      (by decide) _).mpr listed
  have rising : decode risingText = .ok sampleMessage :=
    (any_order _ _ _ risingText_isDocument (sampleFrame_agree _ _) rfl (.swap _ _ _) (by decide)
      _).mp falling
  exact ⟨listed, falling, rising⟩

end Quoteboard.Market.Feed
