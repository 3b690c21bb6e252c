/-!
# Tables

A finite map that keeps its entries in strictly increasing order of their keys. Its observations
are the list of entries and the value at a key.
-/

namespace Quoteboard

/-- A finite map as a list of entries with strictly increasing keys. -/
structure Table (κ ν : Type) [Ord κ] where
  toList : List (κ × ν)
  sorted : toList.Pairwise fun a b ↦ compare a.1 b.1 = .lt

namespace Table

variable {κ ν : Type} [Ord κ]

instance [DecidableEq κ] [DecidableEq ν] : DecidableEq (Table κ ν) := fun a b ↦
  decidable_of_iff (a.toList = b.toList) (by
    cases a
    cases b
    simp)

/-- The table without entries. -/
def empty : Table κ ν := ⟨[], .nil⟩

/-- The keys in increasing order. -/
def keys (t : Table κ ν) : List κ := t.toList.map (·.1)

/-- The number of entries. -/
def size (t : Table κ ν) : Nat := t.toList.length

/-- The value at a key. -/
def get? (t : Table κ ν) (k : κ) : Option ν :=
  (t.toList.find? fun e ↦ compare k e.1 == .eq).map (·.2)

/-- Whether the table has an entry with this key. -/
def contains (t : Table κ ν) (k : κ) : Bool := (t.get? k).isSome

/-- Put an entry in its place in a list of entries. -/
def insertEntry (k : κ) (v : ν) : List (κ × ν) → List (κ × ν)
  | [] => [(k, v)]
  | e :: rest =>
    match compare k e.1 with
    | .lt => (k, v) :: e :: rest
    | .eq => (k, v) :: rest
    | .gt => e :: insertEntry k v rest

/-- The keys after an entry is put in are the old ones and the new one. -/
theorem mem_insertEntry {k : κ} {v : ν} {l : List (κ × ν)} {e : κ × ν}
    (h : e ∈ insertEntry k v l) : e = (k, v) ∨ e ∈ l := by
  induction l with
  | nil => simpa [insertEntry] using h
  | cons a l ih =>
    rw [insertEntry] at h
    split at h
    · simpa using h
    · rcases List.mem_cons.mp h with h | h
      · exact .inl h
      · exact .inr (List.mem_cons_of_mem _ h)
    · rcases List.mem_cons.mp h with h | h
      · exact .inr (h ▸ List.mem_cons_self)
      · exact (ih h).imp_right (List.mem_cons_of_mem _)

variable [Std.TransOrd κ] [Std.LawfulEqOrd κ]

/-- Putting an entry in its place keeps the keys in strictly increasing order. -/
theorem sorted_insertEntry {k : κ} {v : ν} {l : List (κ × ν)}
    (h : l.Pairwise fun a b ↦ compare a.1 b.1 = .lt) :
    (insertEntry k v l).Pairwise fun a b ↦ compare a.1 b.1 = .lt := by
  induction l with
  | nil => simp [insertEntry]
  | cons a l ih =>
    have ⟨below, rest⟩ := List.pairwise_cons.mp h
    rw [insertEntry]
    split
    · next lt =>
      refine List.pairwise_cons.mpr ⟨fun e he ↦ ?_, h⟩
      rcases List.mem_cons.mp he with rfl | he
      · exact lt
      · exact Std.TransCmp.lt_trans lt (below e he)
    · next eq =>
      refine List.pairwise_cons.mpr ⟨fun e he ↦ ?_, rest⟩
      rw [Std.LawfulEqCmp.eq_of_compare eq]
      exact below e he
    · next gt =>
      refine List.pairwise_cons.mpr ⟨fun e he ↦ ?_, ih rest⟩
      rcases mem_insertEntry he with rfl | he
      · exact Std.OrientedCmp.lt_of_gt gt
      · exact below e he

/-- Set the value at a key. -/
def insert (t : Table κ ν) (k : κ) (v : ν) : Table κ ν :=
  ⟨insertEntry k v t.toList, sorted_insertEntry t.sorted⟩

/-- Put in entries one after another; a later one replaces an earlier one with the same key. -/
def insertAll (t : Table κ ν) (entries : List (κ × ν)) : Table κ ν :=
  entries.foldl (fun t e ↦ t.insert e.1 e.2) t

/-- The table of a list of entries, of which the last with each key counts. -/
def ofList (entries : List (κ × ν)) : Table κ ν :=
  empty.insertAll entries

/-- Apply a function to every value. -/
def map {μ : Type} (f : ν → μ) (t : Table κ ν) : Table κ μ :=
  ⟨t.toList.map fun e ↦ (e.1, f e.2), by
    rw [List.pairwise_map]
    exact t.sorted⟩

omit [Std.TransOrd κ] [Std.LawfulEqOrd κ] in
/-- The table without entries has no value anywhere. -/
@[simp] theorem get?_empty (k : κ) : (empty : Table κ ν).get? k = none := rfl

/-- The value at the key that was set. -/
@[simp] theorem get?_insert_self (t : Table κ ν) (k : κ) (v : ν) :
    (t.insert k v).get? k = some v := by
  have found : ((insertEntry k v t.toList).find? fun e ↦ compare k e.1 == .eq) = some (k, v) := by
    induction t.toList with
    | nil => simp [insertEntry]
    | cons a l ih =>
      rw [insertEntry]
      split
      · simp
      · simp
      · next gt => simp [gt, ih]
  simp [get?, insert, found]

/-- Setting the value at a key leaves the others. -/
theorem get?_insert_of_ne (t : Table κ ν) {k j : κ} (v : ν) (h : j ≠ k) :
    (t.insert k v).get? j = t.get? j := by
  have differ : (compare j k == .eq) = false := by
    rw [beq_eq_false_iff_ne]
    exact fun e ↦ h (Std.LawfulEqCmp.eq_of_compare e)
  have same : ((insertEntry k v t.toList).find? fun e ↦ compare j e.1 == .eq)
      = t.toList.find? fun e ↦ compare j e.1 == .eq := by
    induction t.toList with
    | nil => simp [insertEntry, differ]
    | cons a l ih =>
      rw [insertEntry]
      split
      · rw [List.find?_cons, differ]
      · next eq =>
        have ha : (compare j a.1 == .eq) = false := by
          rw [← Std.LawfulEqCmp.eq_of_compare eq]
          exact differ
        rw [List.find?_cons, List.find?_cons, differ, ha]
      · rw [List.find?_cons, List.find?_cons, ih]
  simp only [get?, insert, same]

omit [Ord κ] [Std.TransOrd κ] [Std.LawfulEqOrd κ] in
/-- What is last among more entries. -/
private theorem exists_last_cons {entry : κ × ν} {entries : List (κ × ν)} {k : κ} {v : ν} :
    (∃ front back, entry :: entries = front ++ (k, v) :: back ∧ ∀ e ∈ back, e.1 ≠ k) ↔
      (∃ front back, entries = front ++ (k, v) :: back ∧ ∀ e ∈ back, e.1 ≠ k) ∨
        (entry = (k, v) ∧ ∀ e ∈ entries, e.1 ≠ k) := by
  constructor
  · rintro ⟨front, back, split, fresh⟩
    cases front with
    | nil =>
      obtain ⟨rfl, rfl⟩ := List.cons.inj split
      exact .inr ⟨rfl, fresh⟩
    | cons first front =>
      obtain ⟨rfl, rfl⟩ := List.cons.inj split
      exact .inl ⟨front, back, rfl, fresh⟩
  · rintro (⟨front, back, rfl, fresh⟩ | ⟨rfl, fresh⟩)
    · exact ⟨entry :: front, back, rfl, fresh⟩
    · exact ⟨[], entries, rfl, fresh⟩

/-- What a key gets when entries are put in one after another. -/
theorem get?_insertAll (t : Table κ ν) (entries : List (κ × ν)) (k : κ) (v : ν) :
    (t.insertAll entries).get? k = some v ↔
      (∃ front back, entries = front ++ (k, v) :: back ∧ ∀ e ∈ back, e.1 ≠ k) ∨
        (t.get? k = some v ∧ ∀ e ∈ entries, e.1 ≠ k) := by
  induction entries generalizing t with
  | nil => simp [insertAll]
  | cons entry entries ih =>
    rw [insertAll, List.foldl_cons, ← insertAll, ih, exists_last_cons, or_assoc,
      List.forall_mem_cons]
    refine or_congr_right ?_
    obtain ⟨j, w⟩ := entry
    by_cases same : k = j
    · subst same
      simp
    · simp [get?_insert_of_ne t w same, Ne.symm same]

/-- A table made of entries has, at each key, the value of the last of them with this key. -/
theorem get?_ofList (entries : List (κ × ν)) (k : κ) (v : ν) :
    (ofList entries).get? k = some v ↔
      ∃ front back, entries = front ++ (k, v) :: back ∧ ∀ e ∈ back, e.1 ≠ k := by
  simp [ofList, get?_insertAll]

omit [Std.TransOrd κ] [Std.LawfulEqOrd κ] in
/-- The keys are in strictly increasing order, so none occurs twice. -/
theorem pairwise_keys (t : Table κ ν) : t.keys.Pairwise fun a b ↦ compare a b = .lt := by
  rw [keys, List.pairwise_map]
  exact t.sorted

omit [Std.TransOrd κ] in
/-- No key occurs twice. -/
theorem nodup_keys (t : Table κ ν) : t.keys.Nodup := by
  refine t.pairwise_keys.imp fun {j k} less same ↦ ?_
  have level : compare k k = .eq := Std.ReflCmp.compare_self
  rw [same, level] at less
  cases less

omit [Std.TransOrd κ] in
/-- The keys are those that have a value. -/
theorem mem_keys_iff (t : Table κ ν) (k : κ) : k ∈ t.keys ↔ (t.get? k).isSome = true := by
  rw [keys, get?, Option.isSome_map, List.find?_isSome, List.mem_map]
  constructor
  · rintro ⟨e, he, rfl⟩
    exact ⟨e, he, by simp⟩
  · rintro ⟨e, he, h⟩
    exact ⟨e, he, (Std.LawfulEqCmp.eq_of_compare (beq_iff_eq.mp h)).symm⟩

/-- Setting the value at a key adds the key. -/
theorem mem_keys_insert_iff (t : Table κ ν) (j k : κ) (v : ν) :
    j ∈ (t.insert k v).keys ↔ j ∈ t.keys ∨ j = k := by
  rw [mem_keys_iff, mem_keys_iff]
  by_cases same : j = k
  · subst same
    simp
  · simp [get?_insert_of_ne t v same, same]

/-- A table made of entries has their keys. -/
theorem mem_keys_ofList_iff (entries : List (κ × ν)) (k : κ) :
    k ∈ (ofList entries).keys ↔ ∃ v, (k, v) ∈ entries := by
  have added (t : Table κ ν) :
      k ∈ (t.insertAll entries).keys ↔ k ∈ t.keys ∨ ∃ v, (k, v) ∈ entries := by
    induction entries generalizing t with
    | nil => simp [insertAll]
    | cons entry entries ih =>
      obtain ⟨j, w⟩ := entry
      rw [insertAll, List.foldl_cons, ← insertAll, ih, mem_keys_insert_iff, or_assoc]
      simp [exists_or]
  rw [ofList, added]
  simp [empty, keys]

omit [Std.TransOrd κ] in
/-- An entry of a table is found at its key. -/
theorem mem_toList_iff (t : Table κ ν) (k : κ) (v : ν) :
    (k, v) ∈ t.toList ↔ t.get? k = some v := by
  obtain ⟨entries, sorted⟩ := t
  rw [get?, Option.map_eq_some_iff]
  dsimp only
  induction entries with
  | nil => simp
  | cons first entries ih =>
    obtain ⟨below, sorted⟩ := List.pairwise_cons.mp sorted
    have differ : ∀ e ∈ entries, first.1 ≠ e.1 := by
      intro e he same
      have above := below e he
      have level : compare e.1 e.1 = .eq := Std.ReflCmp.compare_self
      rw [same, level] at above
      cases above
    rw [List.mem_cons, List.find?_cons, ih sorted]
    split
    · next same =>
      obtain rfl := Std.LawfulEqCmp.eq_of_compare (beq_iff_eq.mp same)
      constructor
      · rintro (e | ⟨e, found, -⟩)
        · exact ⟨first, rfl, by rw [← e]⟩
        · have found_key := List.find?_some found
          have equal := Std.LawfulEqCmp.eq_of_compare (beq_iff_eq.mp found_key)
          exact absurd equal (differ e (List.mem_of_find?_eq_some found))
      · rintro ⟨_, ⟨⟩, rfl⟩
        exact .inl rfl
    · next differs =>
      refine ⟨fun h ↦ h.resolve_left ?_, .inr⟩
      rintro rfl
      simp at differs

omit [Std.TransOrd κ] [Std.LawfulEqOrd κ] in
/-- Applying a function to every value applies it to the value at each key. -/
theorem get?_map {μ : Type} (f : ν → μ) (t : Table κ ν) (k : κ) :
    (t.map f).get? k = (t.get? k).map f := by
  simp only [get?, map]
  induction t.toList with
  | nil => rfl
  | cons a l ih =>
    simp only [List.map_cons, List.find?_cons]
    split <;> simp_all

end Table

end Quoteboard
