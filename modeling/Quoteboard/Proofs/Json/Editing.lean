import Quoteboard.Proofs.Json.Parts

/-!
# Trees in which one value is another

A value in a tree is replaced in its place: an item or a member by its number, a field of a record
by its name. What a record gives to the other fields stays, and what is in reach of a reader still is.
-/

namespace Quoteboard.Json

/-- Replace the item with this number. -/
def Items.modify (f : Node → Node) : Nat → Items → Items
  | _, .stop ending => .stop ending
  | 0, .more item rest => .more (f item) rest
  | i + 1, .more item rest => .more item (rest.modify f i)

/-- Replace the value of the member with this number. -/
def Members.modify (f : Node → Node) : Nat → Members → Members
  | _, .stop ending => .stop ending
  | 0, .more key value rest => .more key (f value) rest
  | i + 1, .more key value rest => .more key value (rest.modify f i)

/-- Replace the values of the members with this name. -/
def Members.modifyNamed (name : String) (f : Node → Node) : Members → Members
  | .stop ending => .stop ending
  | .more key value rest =>
    .more key (if key.name? = some name then f value else value) (rest.modifyNamed name f)

/-- The items of an array or the values of an object. -/
def Node.parts : Node → List Node
  | .array items => items.toList
  | .object members => members.toList.map (·.2)
  | _ => []

/-- Replace the item or the member with this number. -/
def Node.modifyPart (i : Nat) (f : Node → Node) : Node → Node
  | .array items => .array (items.modify f i)
  | .object members => .object (members.modify f i)
  | node => node

/-- Replace what a record with these fields gives to one of them. -/
def Node.modifyField (names : List String) (name : String) (f : Node → Node) : Node → Node
  | .array items => .array (items.modify f (names.idxOf name))
  | .object members => .object (members.modifyNamed name f)
  | node => node

variable {f : Node → Node} {i room : Nat} {names : List String} {name other : String} {node : Node}

theorem Items.toList_modify (items : Items) :
    (items.modify f i).toList = items.toList.modify i f := by
  fun_induction Items.modify f i items with
  | case1 => simp [Items.toList]
  | case2 => rfl
  | case3 i item rest ih => rw [Items.toList, Items.toList, ih, List.modify_succ_cons]

theorem Members.toList_modify (members : Members) :
    (members.modify f i).toList =
      members.toList.modify i fun member ↦ (member.1, f member.2) := by
  fun_induction Members.modify f i members with
  | case1 => simp [Members.toList]
  | case2 => rfl
  | case3 i key value rest ih => rw [Members.toList, Members.toList, ih, List.modify_succ_cons]

theorem Members.toList_modifyNamed (members : Members) :
    (members.modifyNamed name f).toList = members.toList.map fun member ↦
      (member.1, if member.1.name? = some name then f member.2 else member.2) := by
  induction members using Members.toList.induct with
  | case1 => rfl
  | case2 key value rest ih => simp only [Members.modifyNamed, Members.toList, List.map_cons, ih]

/-! ### The fields of a record -/

/-- The values with the name are replaced. -/
theorem Members.named_modifyNamed_self (members : Members) :
    (members.modifyNamed name f).named name = (members.named name).map f := by
  induction members using Members.toList.induct with
  | case1 => rfl
  | case2 key value rest ih =>
    simp only [Members.modifyNamed, Members.named, ih]
    split <;> rfl

/-- The values with another name stay. -/
theorem Members.named_modifyNamed_of_ne (members : Members) (differ : other ≠ name) :
    (members.modifyNamed name f).named other = members.named other := by
  induction members using Members.toList.induct with
  | case1 => rfl
  | case2 key value rest ih =>
    simp only [Members.modifyNamed, Members.named, ih]
    by_cases here : key.name? = some name
    · rw [if_pos here, if_neg, if_neg] <;> simp [here, differ.symm]
    · rw [if_neg here]

/-- What a record gives to the field is replaced. -/
theorem Node.valuesOf_modifyField_self :
    (node.modifyField names name f).valuesOf names name = (node.valuesOf names name).map f := by
  cases node with
  | object members => exact members.named_modifyNamed_self
  | array items =>
    simp only [Node.modifyField, Node.valuesOf, Items.inPlace, Items.toList_modify,
      List.getElem?_modify, if_pos]
    cases items.toList[names.idxOf name]? <;> rfl
  | _ => rfl

/-- What a record gives to another field stays. -/
theorem Node.valuesOf_modifyField_of_ne (field : name ∈ names) (differ : other ≠ name) :
    (node.modifyField names name f).valuesOf names other = node.valuesOf names other := by
  cases node with
  | object members => exact members.named_modifyNamed_of_ne differ
  | array items =>
    have apart : names.idxOf name ≠ names.idxOf other :=
      fun same ↦ differ ((List.idxOf_inj field).mp same).symm
    simp only [Node.modifyField, Node.valuesOf, Items.inPlace, Items.toList_modify,
      List.getElem?_modify, if_neg apart, id_map']
  | _ => rfl

/-- A record stays a record. -/
theorem Node.isRecord_modifyField :
    (node.modifyField names name f).IsRecord names ↔ node.IsRecord names := by
  cases node with
  | array items =>
    simp only [Node.modifyField, Node.IsRecord, Items.toList_modify, List.length_modify]
  | _ => exact Iff.rfl

/-- The names in a record stay. -/
theorem Node.hasNames_modifyField : (node.modifyField names name f).HasNames ↔ node.HasNames := by
  cases node with
  | object members =>
    simp only [Node.modifyField, Node.HasNames, Members.toList_modifyNamed, List.forall_mem_map]
  | _ => exact Iff.rfl

/-! ### What is in reach -/

/-- What holds of all elements of a list still does if it holds of what one of them becomes. -/
theorem forall_mem_modify {α : Type} {p : α → Prop} {g : α → α} {xs : List α}
    (all : ∀ x ∈ xs, p x) (becomes : ∀ x, p x → p (g x)) : ∀ x ∈ xs.modify i g, p x := by
  induction xs generalizing i with
  | nil => simp
  | cons x xs ih =>
    obtain ⟨here, others⟩ := List.forall_mem_cons.mp all
    cases i with
    | zero => exact List.forall_mem_cons.mpr ⟨becomes x here, others⟩
    | succ i => exact List.forall_mem_cons.mpr ⟨here, ih others⟩

/-- An array or an object can still be read whole if what a part becomes can be. -/
theorem Node.IsReadable.modifyPart (readable : node.IsReadable (room + 1))
    (becomes : ∀ value : Node, value.IsReadable room → (f value).IsReadable room) :
    (node.modifyPart i f).IsReadable (room + 1) := by
  cases node with
  | array items =>
    rw [Node.isReadable_array_iff] at readable
    rw [Node.modifyPart, Node.isReadable_array_iff, Items.toList_modify]
    exact forall_mem_modify readable becomes
  | object members =>
    rw [Node.isReadable_object_iff] at readable
    rw [Node.modifyPart, Node.isReadable_object_iff, Members.toList_modify]
    exact forall_mem_modify readable fun member here ↦ ⟨here.1, becomes _ here.2⟩
  | _ => exact readable

/-- A record can still be read whole if what a field becomes can be. -/
theorem Node.IsReadable.modifyField (readable : node.IsReadable (room + 1))
    (becomes : ∀ value : Node, value.IsReadable room → (f value).IsReadable room) :
    (node.modifyField names name f).IsReadable (room + 1) := by
  cases node with
  | array items => exact readable.modifyPart becomes
  | object members =>
    rw [Node.isReadable_object_iff] at readable
    rw [Node.modifyField, Node.isReadable_object_iff, Members.toList_modifyNamed,
      List.forall_mem_map]
    intro member inside
    obtain ⟨denotes, here⟩ := readable member inside
    refine ⟨denotes, ?_⟩
    dsimp only
    split
    · exact becomes _ here
    · exact here
  | _ => exact readable

end Quoteboard.Json
