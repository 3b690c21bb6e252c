import Quoteboard.Proofs.Json.Records

/-!
# The parts of a document

An array or an object is in reach of a reader exactly if each of its parts is, whatever their order;
and no part of a document is written with more characters than the document.
-/

namespace Quoteboard.Json

variable {names : List String} {name : String} {node value : Node} {items : Items}
  {members : Members} {cs : List Char} {room : Nat}

/-! ### What is in reach -/

/-- Items are in reach if each is. -/
theorem Items.inReach_iff (items : Items) :
    InReach room items.depth items.literals items.texts ↔
      ∀ node ∈ items.toList, node.IsReadable room := by
  fun_induction Items.toList items with
  | case1 => simp [Items.depth, Items.literals, Items.texts, InReach.nothing]
  | case2 item rest ih =>
    rw [Items.depth, Items.literals, Items.texts, InReach.append_iff, ih, List.forall_mem_cons,
      Node.IsReadable]

/-- Members are in reach if the key of each denotes a string and its value is in reach. -/
theorem Members.inReach_iff (members : Members) :
    InReach room members.depth members.literals members.texts ↔
      ∀ member ∈ members.toList, (∃ s, member.1.Denotes s) ∧ member.2.IsReadable room := by
  fun_induction Members.toList members with
  | case1 => simp [Members.depth, Members.literals, Members.texts, InReach.nothing]
  | case2 key value rest ih =>
    rw [Members.depth, Members.literals, Members.texts, InReach.cons_text_iff, InReach.append_iff,
      ih, List.forall_mem_cons, Node.IsReadable, and_assoc]

/-- An array can be read whole if each item can be, with one room less. -/
theorem Node.isReadable_array_iff :
    (Node.array items).IsReadable (room + 1) ↔ ∀ node ∈ items.toList, node.IsReadable room := by
  rw [Node.IsReadable, Node.depth, Node.literals, Node.texts, InReach.succ_iff, Items.inReach_iff]

/-- An object can be read whole if each key denotes a string and each value can be read whole, with
one room less. -/
theorem Node.isReadable_object_iff :
    (Node.object members).IsReadable (room + 1) ↔
      ∀ member ∈ members.toList, (∃ s, member.1.Denotes s) ∧ member.2.IsReadable room := by
  rw [Node.IsReadable, Node.depth, Node.literals, Node.texts, InReach.succ_iff, Members.inReach_iff]

/-! ### How much is written -/

/-- An item is written with a part of the characters of its array. -/
theorem Items.SpeltAs.of_mem {items : Items} {cs : List Char} {node : Node} :
    items.SpeltAs cs → node ∈ items.toList → ∃ vs, node.SpeltAs vs ∧ vs.length ≤ cs.length
  | .last (.intro _ spelt) _, h => by
    obtain rfl := List.mem_singleton.mp h
    exact ⟨_, spelt, by simp only [List.length_append]; omega⟩
  | .more (.intro _ spelt) _ others, h => by
    rcases List.mem_cons.mp h with rfl | h
    · exact ⟨_, spelt, by simp only [List.length_append]; omega⟩
    · obtain ⟨vs, spelt, le⟩ := others.of_mem h
      exact ⟨vs, spelt, by simp only [List.length_append, List.length_cons]; omega⟩

/-- The value of a member is written with a part of the characters of its object. -/
theorem Members.SpeltAs.of_mem {members : Members} {cs : List Char} {member : RawText × Node} :
    members.SpeltAs cs → member ∈ members.toList →
      ∃ vs, member.2.SpeltAs vs ∧ vs.length ≤ cs.length
  | .last _ _ _ (.intro _ spelt) _, h => by
    obtain rfl := List.mem_singleton.mp h
    exact ⟨_, spelt, by simp only [List.length_append, List.length_cons]; omega⟩
  | .more _ _ _ (.intro _ spelt) _ others, h => by
    rcases List.mem_cons.mp h with rfl | h
    · exact ⟨_, spelt, by simp only [List.length_append, List.length_cons]; omega⟩
    · obtain ⟨vs, spelt, le⟩ := others.of_mem h
      exact ⟨vs, spelt, by simp only [List.length_append, List.length_cons]; omega⟩

private theorem Members.SpeltAs.length_le {members : Members} {cs : List Char}
    (spelt : members.SpeltAs cs) : members.toList.length ≤ cs.length := by
  cases spelt with
  | last =>
    simp only [Members.toList, List.length_append, List.length_cons, List.length_nil]
    omega
  | more _ _ _ _ _ others =>
    have := others.length_le
    simp only [Members.toList, List.length_append, List.length_cons]
    omega

/-- An object has no more members than characters. -/
theorem Node.SpeltAs.length_members_le (spelt : (Node.object members).SpeltAs cs) :
    members.toList.length ≤ cs.length := by
  cases spelt with
  | emptyObject => exact Nat.zero_le _
  | object spelt =>
    have := spelt.length_le
    simp only [List.length_append, List.length_cons]
    omega

/-- A value with a name is that of a member. -/
theorem Members.mem_of_mem_named (h : value ∈ members.named name) :
    ∃ key, (key, value) ∈ members.toList := by
  fun_induction Members.toList members with
  | case1 => cases h
  | case2 key node rest ih =>
    rw [Members.named] at h
    split at h
    · rcases List.mem_cons.mp h with rfl | h
      · exact ⟨key, List.mem_cons_self⟩
      · exact (ih h).imp fun _ ↦ List.mem_cons_of_mem _
    · exact (ih h).imp fun _ ↦ List.mem_cons_of_mem _

/-- The value of a field is written with a part of the characters of its record. -/
theorem Node.SpeltAs.of_mem_valuesOf (spelt : node.SpeltAs cs)
    (h : value ∈ node.valuesOf names name) : ∃ vs, value.SpeltAs vs ∧ vs.length ≤ cs.length := by
  cases spelt with
  | array spelt =>
    obtain ⟨vs, spelt, le⟩ := spelt.of_mem (List.mem_of_getElem? (Option.mem_toList.mp h))
    exact ⟨vs, spelt, by simp only [List.length_append, List.length_cons]; omega⟩
  | object spelt =>
    obtain ⟨key, inside⟩ := Members.mem_of_mem_named h
    obtain ⟨vs, spelt, le⟩ := spelt.of_mem inside
    exact ⟨vs, spelt, by simp only [List.length_append, List.length_cons]; omega⟩
  | emptyArray => simp [Node.valuesOf, Items.inPlace, Items.toList] at h
  | emptyObject => cases h
  | _ => cases h

/-- The value of a document is written with a part of its characters. -/
theorem IsDocument.exists_spelt (h : IsDocument node cs) :
    ∃ vs, node.SpeltAs vs ∧ vs.length ≤ cs.length := by
  obtain ⟨body, back, ⟨before, spelt⟩, -, rfl⟩ := h
  exact ⟨_, spelt, by simp only [List.length_append]; omega⟩

/-- An object that is the value of a field has no more members than the document has characters. -/
theorem IsDocument.length_members_le (h : IsDocument node cs)
    (inside : .object members ∈ node.valuesOf names name) :
    members.toList.length ≤ cs.length := by
  obtain ⟨_, spelt, le⟩ := h.exists_spelt
  obtain ⟨_, spelt, le'⟩ := spelt.of_mem_valuesOf inside
  exact (spelt.length_members_le.trans le').trans le

end Quoteboard.Json
