import Quoteboard.Proofs.Market.Decoding

/-!
# Texts that hold no object

A text whose value is no object, or that is no document, is refused as malformed, unless it is an
array of the fields of a message in the order of their declaration. Such an array is a message.
-/

namespace Quoteboard.Market.Feed

open Quoteboard.Json

variable {text : String} {m : Snapshot} {items : Items}

/-! ### Fields in a row -/

/-- Items are the fields of a message in the order of their declaration, and keep within the limits
of the reader; the positions may be missing. -/
inductive AreFields : List Node → Snapshot → Prop
  | withoutPositions {timestamp quotes : Node} {m : Snapshot}
      (is_int64 : timestamp.IsInt64 m.timestamp) (are_quotes : AreQuotes quotes m.quotes)
      (readable : quotes.IsReadable 126) (missing : m.positions = none) :
      AreFields [timestamp, quotes] m
  | withPositions {timestamp quotes positions : Node} {m : Snapshot}
      (is_int64 : timestamp.IsInt64 m.timestamp) (are_quotes : AreQuotes quotes m.quotes)
      (readable : quotes.IsReadable 126) (are_positions : ArePositions [positions] m.positions)
      (names : ∀ items, positions = .array items → ∀ position ∈ items.toList, position.HasNames) :
      AreFields [timestamp, quotes, positions] m

/-- A message has two or three fields. -/
theorem AreFields.length {fields : List Node} (are : AreFields fields m) :
    fields.length = 2 ∨ fields.length = 3 := by
  cases are with
  | withoutPositions => exact .inl rfl
  | withPositions => exact .inr rfl

/-- What an array gives to a field stands in the place of the field. -/
theorem valuesOf_array (name : String) : (Node.array items).valuesOf messageFields name =
    items.toList[messageFields.idxOf name]?.toList := rfl

/-- An array that is a message has its fields in a row. -/
theorem areFields_of_isMessage (is_message : IsMessage (.array items) m)
    (within : IsWithinLimits (.array items)) : AreFields items.toList m := by
  have bound : items.toList.length ≤ 3 := is_message.record
  have timestamp := is_message.timestamp
  have quotes := is_message.quotes
  have positions := is_message.positions
  have readable := within.quotes
  have names := within.positions
  rw [valuesOf_array] at timestamp quotes positions readable names
  generalize items.toList = fields at *
  match fields with
  | [] =>
    obtain ⟨_, nothing, -⟩ := timestamp
    cases nothing
  | [_] =>
    obtain ⟨_, nothing, -⟩ := quotes
    cases nothing
  | [t, q] =>
    apply AreFields.withoutPositions (only_singleton_iff.mp timestamp)
      (only_singleton_iff.mp quotes)
    · exact readable q (List.mem_singleton_self q)
    · generalize m.positions = given at positions
      cases positions
      rfl
  | [t, q, p] =>
    apply AreFields.withPositions (only_singleton_iff.mp timestamp) (only_singleton_iff.mp quotes)
    · exact readable q (List.mem_singleton_self q)
    · exact positions
    · exact fun inside e ↦ names inside (List.mem_singleton.mpr e.symm)
  | _ :: _ :: _ :: _ :: _ =>
    simp only [List.length_cons] at bound
    omega

/-- An array whose items are the fields of a message is that message. -/
theorem isMessage_of_areFields (are : AreFields items.toList m) :
    IsMessage (.array items) m ∧ IsWithinLimits (.array items) := by
  have values := @valuesOf_array items
  have record : (Node.array items).IsRecord messageFields := by
    have := are.length
    show items.toList.length ≤ 3
    omega
  generalize items.toList = fields at are values
  cases are with
  | withoutPositions is_int64 are_quotes readable missing =>
    constructor
    · exact {
        record := record
        timestamp := ⟨_, values _, is_int64⟩
        quotes := ⟨_, values _, are_quotes⟩
        positions := by
          rw [missing, values]
          exact .absent }
    · exact {
        names := trivial
        quotes := by
          rw [values]
          exact List.forall_mem_singleton.mpr readable
        positions := by
          rw [values]
          exact nofun }
  | withPositions is_int64 are_quotes readable are_positions names =>
    constructor
    · exact {
        record := record
        timestamp := ⟨_, values _, is_int64⟩
        quotes := ⟨_, values _, are_quotes⟩
        positions := by
          rw [values]
          exact are_positions }
    · exact {
        names := trivial
        quotes := by
          rw [values]
          exact List.forall_mem_singleton.mpr readable
        positions := by
          rw [values]
          exact fun inside h ↦ names inside (List.mem_singleton.mp h).symm }

/-- An array is decoded to a message exactly if its items are the fields of that message. -/
theorem decode_eq_ok_iff_of_array (document : IsDocument (.array items) text.toList) :
    decode text = .ok m ↔ AreFields items.toList m := by
  rw [decode_eq_ok_iff_of_document document]
  constructor
  · intro h
    exact areFields_of_isMessage h.1 h.2
  · exact isMessage_of_areFields

/-! ### Texts without an object -/

/-- A text is received as what it is decoded to. -/
theorem receiveText_eq_ok_iff : receiveText text = .ok m ↔ decode text = .ok m := by
  rw [receiveText]
  cases decode text <;> simp [Except.mapError]

/-- A text is malformed if it is not decoded. -/
theorem exists_malformed_iff :
    (∃ cause, receiveText text = .error (.malformed cause)) ↔ ∀ m, decode text ≠ .ok m := by
  rw [receiveText]
  cases decode text <;> simp [Except.mapError]

/-- A text that holds no object is decoded only as an array. -/
theorem decode_eq_ok_iff_of_no_object
    (no_object : ∀ members, ¬ IsDocument (.object members) text.toList) : decode text = .ok m ↔
      ∃ items, IsDocument (.array items) text.toList ∧ AreFields items.toList m := by
  constructor
  · intro decoded
    obtain ⟨node, document, is_message, -⟩ := decode_eq_ok_iff.mp decoded
    cases node with
    | object members => exact absurd document (no_object members)
    | array items => exact ⟨items, document, (decode_eq_ok_iff_of_array document).mp decoded⟩
    | _ => exact is_message.record.elim
  · rintro ⟨items, document, are⟩
    exact (decode_eq_ok_iff_of_array document).mpr are

/-- A text that holds no object is received exactly if it is an array of the fields of a message in
the order of their declaration, as this message; every other one is refused as malformed. -/
theorem refuses_without_object (no_object : ∀ members, ¬ IsDocument (.object members) text.toList) :
    (∀ m, receiveText text = .ok m ↔
      ∃ items, IsDocument (.array items) text.toList ∧ AreFields items.toList m) ∧
    ((∃ cause, receiveText text = .error (.malformed cause)) ↔
      ∀ items m, IsDocument (.array items) text.toList → ¬ AreFields items.toList m) := by
  have decodes {m : Snapshot} := decode_eq_ok_iff_of_no_object (m := m) no_object
  constructor
  · intro m
    rw [receiveText_eq_ok_iff, decodes]
  · simp only [exists_malformed_iff, ne_eq, decodes, not_exists, not_and]
    exact forall_comm

/-- The tree of a text in which the scanner finds no flaw. -/
theorem eq_of_isDocument {node root : Node} (scanned : (Document.scan text.toList).root = root)
    (document : IsDocument node text.toList) : node = root :=
  (isDocument_iff.mp document).1.symm.trans scanned

/-- Three numbers in a row. -/
def threeNumbers : Items :=
  .more (oneDigit '1') (.more (oneDigit '2') (.more (oneDigit '3') (.stop .closed)))

/-- An array of three numbers is refused. -/
theorem refuses_three_numbers :
    (∀ members, ¬ IsDocument (.object members) "[1,2,3]".toList) ∧
      ∃ cause, receiveText "[1,2,3]" = .error (.malformed cause) := by
  have scanned : (Document.scan "[1,2,3]".toList).root = .array threeNumbers := by cbv
  have no_object : ∀ members, ¬ IsDocument (.object members) "[1,2,3]".toList := by
    intro members document
    cases eq_of_isDocument scanned document
  refine ⟨no_object, (refuses_without_object no_object).2.mpr ?_⟩
  intro items m document are
  cases eq_of_isDocument scanned document
  cases are with
  | withPositions _ are_quotes => cases are_quotes

/-- A timestamp and no quotes in a row. -/
def bareRow : Items := .more (oneDigit '1') (.more (.array (.stop .closed)) (.stop .closed))

/-- An array of a timestamp and no quotes is received as a message. -/
theorem receives_bare_row :
    (∀ members, ¬ IsDocument (.object members) "[1,[]]".toList) ∧
      IsDocument (.array bareRow) "[1,[]]".toList ∧
      receiveText "[1,[]]" = .ok ⟨1, [], none⟩ := by
  have scanned : (Document.scan "[1,[]]".toList).root = .array bareRow := by cbv
  have document : IsDocument (.array bareRow) "[1,[]]".toList :=
    isDocument_iff.mpr ⟨scanned, by cbv, rfl⟩
  have no_object : ∀ members, ¬ IsDocument (.object members) "[1,[]]".toList := by
    intro members other
    cases eq_of_isDocument scanned other
  refine ⟨no_object, document, ?_⟩
  rw [receiveText_eq_ok_iff, decode_eq_ok_iff_of_array document]
  have readable : (Node.array (.stop .closed)).IsReadable 126 :=
    InReach.succ_iff.mpr (.nothing 125)
  exact .withoutPositions one_isInt64 (.array .nil) readable rfl

end Quoteboard.Market.Feed
