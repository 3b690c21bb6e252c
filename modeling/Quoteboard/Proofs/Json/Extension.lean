import Quoteboard.Proofs.Json.Parts

/-!
# Records to which members are added

A record is extended by members that name none of its fields, at any places among its own, and by
what the values of its fields become. What a record gives to its fields then changes as those values
do and in no other way, and a text spells the extension exactly if one spells the record.
-/

namespace Quoteboard.Json

/-! ### What is spelt -/

/-- Whether some text spells a string. -/
def RawText.IsSpelt (t : RawText) : Prop := ∃ cs, t.SpeltAs cs

/-- Whether some text spells a value. -/
def Node.IsSpelt (node : Node) : Prop := ∃ cs, node.SpeltAs cs

/-- Whether items can be spelt between brackets. -/
def Items.IsSpelt : Items → Prop
  | .stop ending => ending = .closed
  | .more item rest => item.IsSpelt ∧ rest.IsSpelt

/-- Whether members can be spelt between braces. -/
def Members.IsSpelt : Members → Prop
  | .stop ending => ending = .closed
  | .more key value rest => key.IsSpelt ∧ value.IsSpelt ∧ rest.IsSpelt

/-! ### What is extended -/

/-- Items that become others, each in its place; places are counted from `n`. -/
inductive Items.Extends (becomes : Nat → Node → Node → Prop) : Nat → Items → Items → Prop
  | stop {n : Nat} (ending : ItemsEnd) : Items.Extends becomes n (.stop ending) (.stop ending)
  | more {n : Nat} {value value' : Node} {rest rest' : Items} (here : becomes n value value')
      (others : Items.Extends becomes (n + 1) rest rest') :
      Items.Extends becomes n (.more value rest) (.more value' rest')

/-- Members whose values become others, with members added before, between and behind them. -/
inductive Members.Extends (becomes : RawText → Node → Node → Prop) (adds : RawText → Node → Prop) :
    Members → Members → Prop
  | stop (ending : MembersEnd) : Members.Extends becomes adds (.stop ending) (.stop ending)
  | kept {key : RawText} {value value' : Node} {rest rest' : Members}
      (here : becomes key value value') (others : Members.Extends becomes adds rest rest') :
      Members.Extends becomes adds (.more key value rest) (.more key value' rest')
  | added {key : RawText} {value : Node} {members rest' : Members} (here : adds key value)
      (others : Members.Extends becomes adds members rest') :
      Members.Extends becomes adds members (.more key value rest')

/-- Whether a member may be added to a record with these fields: its key denotes a string that names
none of them, and some text spells it. -/
structure IsExtra (names : List String) (key : RawText) (value : Node) : Prop where
  unknown : ∃ name, key.Denotes name ∧ name ∉ names
  key_isSpelt : key.IsSpelt
  value_isSpelt : value.IsSpelt

/-- A record with these fields that is extended: the values of the fields may become others, and to
an object members may be added that name no field and have such values. -/
inductive Node.Extends (names : List String) (becomes : String → Node → Node → Prop)
    (such : Node → Prop) : Node → Node → Prop
  | array {items items' : Items}
      (extension : items.Extends
        (fun n value value' ↦ value' = value ∨
          ∃ name, names[n]? = some name ∧ becomes name value value') 0 items') :
      Node.Extends names becomes such (.array items) (.array items')
  | object {members members' : Members}
      (extension : members.Extends
        (fun key value value' ↦ value' = value ∨
          ∃ name, key.Denotes name ∧ becomes name value value')
        (fun key value ↦ IsExtra names key value ∧ such value) members') :
      Node.Extends names becomes such (.object members) (.object members')

/-! ### Spelling -/

/-- Items that are spelt can be spelt. -/
theorem Items.SpeltAs.isSpelt {items : Items} {cs : List Char} : items.SpeltAs cs → items.IsSpelt
  | .last (.intro _ spelt) _ => ⟨⟨_, spelt⟩, rfl⟩
  | .more (.intro _ spelt) _ others => ⟨⟨_, spelt⟩, others.isSpelt⟩

/-- Members that are spelt can be spelt. -/
theorem Members.SpeltAs.isSpelt {members : Members} {cs : List Char} :
    members.SpeltAs cs → members.IsSpelt
  | .last _ key_spelt _ (.intro _ spelt) _ => ⟨⟨_, key_spelt⟩, ⟨_, spelt⟩, rfl⟩
  | .more _ key_spelt _ (.intro _ spelt) _ others => ⟨⟨_, key_spelt⟩, ⟨_, spelt⟩, others.isSpelt⟩

private theorem Items.IsSpelt.exists_spelt {item : Node} {rest : Items} (here : item.IsSpelt)
    (others : rest.IsSpelt) : ∃ cs, (Items.more item rest).SpeltAs cs := by
  obtain ⟨vs, spelt⟩ := here
  cases rest with
  | stop ending =>
    obtain rfl : ending = .closed := others
    exact ⟨_, .last spelt.padded allSpace_nil⟩
  | more next rest =>
    obtain ⟨cs, spelt_rest⟩ := Items.IsSpelt.exists_spelt others.1 others.2
    exact ⟨_, .more spelt.padded allSpace_nil spelt_rest⟩

private theorem Members.IsSpelt.exists_spelt {key : RawText} {value : Node} {rest : Members}
    (key_here : key.IsSpelt) (here : value.IsSpelt) (others : rest.IsSpelt) :
    ∃ cs, (Members.more key value rest).SpeltAs cs := by
  obtain ⟨ks, key_spelt⟩ := key_here
  obtain ⟨vs, spelt⟩ := here
  cases rest with
  | stop ending =>
    obtain rfl : ending = .closed := others
    exact ⟨_, .last allSpace_nil key_spelt allSpace_nil spelt.padded allSpace_nil⟩
  | more next_key next rest =>
    obtain ⟨cs, spelt_rest⟩ := Members.IsSpelt.exists_spelt others.1 others.2.1 others.2.2
    exact ⟨_, .more allSpace_nil key_spelt allSpace_nil spelt.padded allSpace_nil spelt_rest⟩

/-- An array can be spelt if its items can. -/
theorem Node.isSpelt_array_iff {items : Items} : (Node.array items).IsSpelt ↔ items.IsSpelt := by
  constructor
  · rintro ⟨cs, spelt⟩
    cases spelt with
    | emptyArray => rfl
    | array spelt => exact spelt.isSpelt
  · intro spelt
    cases items with
    | stop ending =>
      obtain rfl : ending = .closed := spelt
      exact ⟨_, .emptyArray allSpace_nil⟩
    | more item rest =>
      obtain ⟨cs, spelt⟩ := Items.IsSpelt.exists_spelt spelt.1 spelt.2
      exact ⟨_, .array spelt⟩

/-- An object can be spelt if its members can. -/
theorem Node.isSpelt_object_iff {members : Members} :
    (Node.object members).IsSpelt ↔ members.IsSpelt := by
  constructor
  · rintro ⟨cs, spelt⟩
    cases spelt with
    | emptyObject => rfl
    | object spelt => exact spelt.isSpelt
  · intro spelt
    cases members with
    | stop ending =>
      obtain rfl : ending = .closed := spelt
      exact ⟨_, .emptyObject allSpace_nil⟩
    | more key value rest =>
      obtain ⟨cs, spelt⟩ := Members.IsSpelt.exists_spelt spelt.1 spelt.2.1 spelt.2.2
      exact ⟨_, .object spelt⟩

/-- A value is that of some document if it can be spelt. -/
theorem exists_isDocument_iff {node : Node} :
    (∃ text : String, IsDocument node text.toList) ↔ node.IsSpelt := by
  constructor
  · rintro ⟨text, body, back, ⟨-, spelt⟩, -⟩
    exact ⟨_, spelt⟩
  · rintro ⟨cs, spelt⟩
    refine ⟨String.ofList cs, ?_⟩
    rw [String.toList_ofList]
    exact spelt.isDocument

/-! ### Items -/

namespace Items.Extends

variable {becomes : Nat → Node → Node → Prop} {n : Nat} {items items' : Items}

/-- The items are extended each in its place. -/
theorem length_eq (extension : items.Extends becomes n items') :
    items'.toList.length = items.toList.length := by
  induction extension with
  | stop => rfl
  | more _ _ ih => simp [Items.toList, ih]

/-- What an item becomes depends on its place. -/
theorem getElem? (extension : items.Extends becomes n items') (i : Nat) :
    items.toList[i]? = none ∧ items'.toList[i]? = none ∨
      ∃ value value', items.toList[i]? = some value ∧ items'.toList[i]? = some value' ∧
        becomes (n + i) value value' := by
  induction extension generalizing i with
  | stop => exact .inl ⟨rfl, rfl⟩
  | @more n value value' _ _ here _ ih =>
    cases i with
    | zero => exact .inr ⟨value, value', rfl, rfl, here⟩
    | succ i =>
      have later := ih i
      rwa [Nat.add_right_comm] at later

/-- Items all of which become others alike. -/
theorem forall₂ {r : Node → Node → Prop} (extension : items.Extends (fun _ ↦ r) n items') :
    List.Forall₂ r items.toList items'.toList := by
  generalize same : (fun _ ↦ r) = becomes at extension
  induction extension with
  | stop => exact .nil
  | more here _ ih =>
    subst same
    exact .cons here ih

/-- What holds of all items still does if it holds of what they become. -/
theorem forall_iff (extension : items.Extends becomes n items') {p : Node → Prop}
    (same : ∀ n value value', becomes n value value' → (p value ↔ p value')) :
    (∀ value ∈ items.toList, p value) ↔ ∀ value ∈ items'.toList, p value := by
  induction extension with
  | stop => exact Iff.rfl
  | more here _ ih => simp only [Items.toList, List.forall_mem_cons, same _ _ _ here, ih]

/-- What can be spelt still can. -/
theorem isSpelt_iff (extension : items.Extends becomes n items')
    (same : ∀ n value value', becomes n value value' → (value.IsSpelt ↔ value'.IsSpelt)) :
    items.IsSpelt ↔ items'.IsSpelt := by
  induction extension with
  | stop => exact Iff.rfl
  | more here _ ih => exact and_congr (same _ _ _ here) ih

end Items.Extends

/-! ### Members -/

namespace Members.Extends

variable {becomes : RawText → Node → Node → Prop} {adds : RawText → Node → Prop}
  {members members' : Members}

/-- What holds of all members still does if it holds of those that are added. -/
theorem forall_iff (extension : members.Extends becomes adds members') {p : RawText × Node → Prop}
    (kept : ∀ key value value', becomes key value value' → (p (key, value) ↔ p (key, value')))
    (added : ∀ key value, adds key value → p (key, value)) :
    (∀ member ∈ members.toList, p member) ↔ ∀ member ∈ members'.toList, p member := by
  induction extension with
  | stop => exact Iff.rfl
  | kept here _ ih => simp only [Members.toList, List.forall_mem_cons, kept _ _ _ here, ih]
  | added here _ ih =>
    simp only [Members.toList, List.forall_mem_cons, ih, added _ _ here, true_and]

/-- The values with a name that no member is added for become others, each in its place. -/
theorem named (extension : members.Extends becomes adds members') {name : String}
    (unknown : ∀ key value, adds key value → ¬ key.Denotes name) :
    List.Forall₂ (fun value value' ↦ ∃ key, key.Denotes name ∧ becomes key value value')
      (members.named name) (members'.named name) := by
  induction extension with
  | stop => exact .nil
  | @kept key value value' _ _ here _ ih =>
    simp only [Members.named]
    split
    · next denotes => exact .cons ⟨key, RawText.name?_eq_some_iff.mp denotes, here⟩ ih
    · exact ih
  | added here _ ih =>
    rw [Members.named, if_neg (mt RawText.name?_eq_some_iff.mp (unknown _ _ here))]
    exact ih

/-- Members to which none is added. -/
theorem forall₂ (extension : members.Extends becomes adds members')
    (nothing : ∀ key value, ¬ adds key value) :
    List.Forall₂ (fun member member' ↦ member'.1 = member.1 ∧ becomes member.1 member.2 member'.2)
      members.toList members'.toList := by
  induction extension with
  | stop => exact .nil
  | kept here _ ih => exact .cons ⟨rfl, here⟩ ih
  | added here => exact absurd here (nothing _ _)

/-- What can be spelt still can. -/
theorem isSpelt_iff (extension : members.Extends becomes adds members')
    (kept : ∀ key value value', becomes key value value' → (value.IsSpelt ↔ value'.IsSpelt))
    (added : ∀ key value, adds key value → key.IsSpelt ∧ value.IsSpelt) :
    members.IsSpelt ↔ members'.IsSpelt := by
  induction extension with
  | stop => exact Iff.rfl
  | kept here _ ih => exact and_congr_right' (and_congr (kept _ _ _ here) ih)
  | added here _ ih =>
    obtain ⟨key_isSpelt, value_isSpelt⟩ := added _ _ here
    simp only [Members.IsSpelt, key_isSpelt, value_isSpelt, true_and, ih]

end Members.Extends

/-! ### Records -/

namespace Node.Extends

variable {names : List String} {becomes : String → Node → Node → Prop} {such : Node → Prop}
  {node node' : Node}

/-- The values of a field become others, each in its place. -/
theorem valuesOf (extension : node.Extends names becomes such node') {name : String}
    (field : name ∈ names) :
    List.Forall₂ (fun value value' ↦ value' = value ∨ becomes name value value')
      (node.valuesOf names name) (node'.valuesOf names name) := by
  cases extension with
  | array extension =>
    simp only [Node.valuesOf, Items.inPlace]
    rcases extension.getElem? (names.idxOf name) with ⟨nothing, nothing'⟩ |
      ⟨value, value', at_place, at_place', here⟩
    · rw [nothing, nothing']
      exact .nil
    · rw [at_place, at_place']
      refine .cons (here.imp_right ?_) .nil
      rintro ⟨other, at_other, here⟩
      rw [Nat.zero_add, List.getElem?_idxOf field] at at_other
      cases at_other
      exact here
  | object extension =>
    have unknown : ∀ key value, IsExtra names key value ∧ such value → ¬ key.Denotes name := by
      rintro key value ⟨extra, -⟩ denotes
      obtain ⟨other, denotes', fresh⟩ := extra.unknown
      exact fresh (denotes.unique denotes' ▸ field)
    refine (extension.named unknown).imp ?_
    rintro value value' ⟨key, denotes, here⟩
    refine here.imp_right ?_
    rintro ⟨other, denotes', here⟩
    exact denotes.unique denotes' ▸ here

/-- The values of a field that becomes no other stay. -/
theorem valuesOf_eq (extension : node.Extends names becomes such node') {name : String}
    (field : name ∈ names) (kept : ∀ value value', ¬ becomes name value value') :
    node'.valuesOf names name = node.valuesOf names name := by
  have same := (extension.valuesOf field).imp fun value value' here ↦
    (here.resolve_right (kept value value')).symm
  rw [List.forall₂_eq_eq_eq] at same
  exact same.symm

/-- An extension of a record is a record. -/
theorem isRecord_iff (extension : node.Extends names becomes such node') :
    node.IsRecord names ↔ node'.IsRecord names := by
  cases extension with
  | array extension => simp only [Node.IsRecord, extension.length_eq]
  | object => exact Iff.rfl

/-- The names of all members denote strings if those of the record do. -/
theorem hasNames_iff (extension : node.Extends names becomes such node') :
    node.HasNames ↔ node'.HasNames := by
  cases extension with
  | array => exact Iff.rfl
  | object extension =>
    refine extension.forall_iff (fun _ _ _ _ ↦ Iff.rfl) ?_
    rintro key value ⟨extra, -⟩
    obtain ⟨name, denotes, -⟩ := extra.unknown
    exact ⟨name, denotes⟩

/-- What can be spelt still can. -/
theorem isSpelt_iff (extension : node.Extends names becomes such node')
    (same : ∀ name value value', becomes name value value' → (value.IsSpelt ↔ value'.IsSpelt)) :
    node.IsSpelt ↔ node'.IsSpelt := by
  cases extension with
  | array extension =>
    rw [Node.isSpelt_array_iff, Node.isSpelt_array_iff]
    refine extension.isSpelt_iff ?_
    rintro n value value' (rfl | ⟨name, -, here⟩)
    · exact Iff.rfl
    · exact same _ _ _ here
  | object extension =>
    rw [Node.isSpelt_object_iff, Node.isSpelt_object_iff]
    refine extension.isSpelt_iff ?_ fun key value h ↦ ⟨h.1.key_isSpelt, h.1.value_isSpelt⟩
    rintro key value value' (rfl | ⟨name, -, here⟩)
    · exact Iff.rfl
    · exact same _ _ _ here

/-- What can be read whole still can. -/
theorem isReadable_iff (extension : node.Extends names becomes such node') {room : Nat}
    (same : ∀ name value value', becomes name value value' →
      (value.IsReadable room ↔ value'.IsReadable room))
    (readable : ∀ value, such value → value.IsReadable room) :
    node.IsReadable (room + 1) ↔ node'.IsReadable (room + 1) := by
  cases extension with
  | array extension =>
    rw [Node.isReadable_array_iff, Node.isReadable_array_iff]
    refine extension.forall_iff ?_
    rintro n value value' (rfl | ⟨name, -, here⟩)
    · exact Iff.rfl
    · exact same _ _ _ here
  | object extension =>
    rw [Node.isReadable_object_iff, Node.isReadable_object_iff]
    refine extension.forall_iff ?_ ?_
    · rintro key value value' (rfl | ⟨name, -, here⟩)
      · exact Iff.rfl
      · exact and_congr_right' (same _ _ _ here)
    · rintro key value ⟨extra, here⟩
      obtain ⟨name, denotes, -⟩ := extra.unknown
      exact ⟨⟨name, denotes⟩, readable _ here⟩

end Node.Extends

end Quoteboard.Json
