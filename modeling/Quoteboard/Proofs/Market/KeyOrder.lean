import Mathlib.Data.List.Sort
import Quoteboard.Market.Feed

/-!
# The order of the quotes of an object

An object yields one quote for each of its keys, the last one written. Keys that are numerals come
first, by number; keys of the same number, and all other keys, are in the order of their code
points. This says which list of quotes an object yields, and that there is no other.
-/

namespace Quoteboard.Market.Feed

open Quoteboard.Text

variable {ν : Type}

/-- Whether a key comes before another. -/
def KeyBefore (a b : String) : Prop :=
  match index? a, index? b with
  | some i, some j => i < j ∨ (i = j ∧ compare a b = .lt)
  | some _, none => True
  | none, some _ => False
  | none, none => compare a b = .lt

/-- Whether a value is the last one written with a key. -/
def IsLast (members : List (String × ν)) (key : String) (value : ν) : Prop :=
  ∃ before behind, members = before ++ (key, value) :: behind ∧ ∀ e ∈ behind, e.1 ≠ key

/-- The entries that members make: the last one with each key, in the order of the keys. -/
structure AreEntries (members entries : List (String × ν)) : Prop where
  mem_iff : ∀ key value, (key, value) ∈ entries ↔ IsLast members key value
  ordered : entries.Pairwise fun a b ↦ KeyBefore a.1 b.1

/-! ### The order of the keys -/

/-- No key comes before one that comes before it. -/
theorem KeyBefore.asymm {a b : String} (h : KeyBefore a b) : ¬ KeyBefore b a := by
  intro back
  rw [KeyBefore] at h back
  cases ha : index? a <;> cases hb : index? b <;> simp only [ha, hb] at h back
  · rw [Std.OrientedCmp.gt_of_lt h] at back
    cases back
  · rcases h with less | ⟨rfl, less⟩ <;> rcases back with less' | ⟨same, less'⟩
    · omega
    · omega
    · omega
    · rw [Std.OrientedCmp.gt_of_lt less] at less'
      cases less'

/-- There is one list of entries at most. -/
theorem AreEntries.unique {members entries entries' : List (String × ν)}
    (h : AreEntries members entries) (h' : AreEntries members entries') : entries = entries' := by
  have nodup {l : List (String × ν)} (ordered : l.Pairwise fun a b ↦ KeyBefore a.1 b.1) :
      l.Nodup := by
    refine ordered.imp ?_
    rintro a _ before rfl
    exact before.asymm before
  have perm : entries.Perm entries' := by
    apply (List.perm_ext_iff_of_nodup (nodup h.ordered) (nodup h'.ordered)).mpr
    rintro ⟨key, value⟩
    rw [h.mem_iff, h'.mem_iff]
  exact perm.eq_of_pairwise (fun a b _ _ before back ↦ absurd back before.asymm) h.ordered
    h'.ordered

section

variable (number : String × ν → Nat)

private theorem number_trans (a b c : String × ν) (h : decide (number a ≤ number b) = true)
    (h' : decide (number b ≤ number c) = true) : decide (number a ≤ number c) = true := by
  simp only [decide_eq_true_eq] at h h' ⊢
  exact Nat.le_trans h h'

private theorem number_total (a b : String × ν) :
    (decide (number a ≤ number b) || decide (number b ≤ number a)) = true := by
  simp only [Bool.or_eq_true, decide_eq_true_eq]
  exact Nat.le_total ..

/-- Entries are sorted by number. -/
theorem pairwise_mergeSort_number (entries : List (String × ν)) :
    (entries.mergeSort fun a b ↦ number a ≤ number b).Pairwise fun a b ↦ number a ≤ number b :=
  (List.pairwise_mergeSort (number_trans number) (number_total number) entries).imp
    of_decide_eq_true

/-- Sorting by number leaves entries of one number as they were. -/
theorem filter_mergeSort_number (entries : List (String × ν)) (n : Nat) :
    (entries.mergeSort fun a b ↦ number a ≤ number b).filter (number · = n)
      = entries.filter (number · = n) := by
  have level : (entries.filter (number · = n)).Pairwise
      fun a b ↦ decide (number a ≤ number b) = true := by
    apply List.pairwise_of_forall_mem_list
    intro a ha b hb
    simp only [List.mem_filter, decide_eq_true_eq] at ha hb ⊢
    omega
  have kept := (List.sublist_mergeSort (number_trans number) (number_total number) level
    List.filter_sublist).filter (number · = n)
  rw [List.filter_filter] at kept
  simp only [Bool.and_self] at kept
  exact (kept.eq_of_length ((List.mergeSort_perm entries _).filter _).length_eq.symm).symm

end

/-- The number of a key, or zero. -/
def keyNumber (entry : String × ν) : Nat := (index? entry.1).getD 0

/-- The entries of a table in the order of their keys. -/
def ordered (t : Table String ν) : List (String × ν) :=
  ((t.toList.filter fun e ↦ (index? e.1).isSome).mergeSort fun a b ↦ keyNumber a ≤ keyNumber b)
    ++ t.toList.filter fun e ↦ (index? e.1).isNone

/-- Quotes in the order of their keys are those of the entries in that order. -/
theorem inKeyOrder_eq (t : Table String Quote) : inKeyOrder t = (ordered t).map (·.2) := by
  have indexed : (t.toList.filterMap fun e ↦ (index? e.1).map (·, e.2))
      = (t.toList.filter fun e ↦ (index? e.1).isSome).map fun e ↦ (keyNumber e, e.2) := by
    induction t.toList with
    | nil => rfl
    | cons e entries ih => cases he : index? e.1 <;> simp [he, ih, keyNumber]
  simp only [inKeyOrder, indexed, ordered, List.map_append]
  rw [← List.map_mergeSort, List.map_map]
  · rfl
  · intro a _ b _
    rfl

/-- The entries of a table are put in the order of their keys. -/
theorem pairwise_ordered (t : Table String ν) :
    (ordered t).Pairwise fun a b ↦ KeyBefore a.1 b.1 := by
  refine List.pairwise_append.mpr ⟨?_, ?_, ?_⟩
  · -- Entries of one number stand as they do in the table, where they are in the order of their
    -- code points.
    refine List.pairwise_iff_forall_sublist.mpr fun {a b} within ↦ ?_
    have inside : ∀ e ∈ [a, b], (index? e.1).isSome = true := by
      intro e he
      exact (List.mem_filter.mp ((List.mergeSort_perm _ _).mem_iff.mp (within.subset he))).2
    obtain ⟨i, hi⟩ := Option.isSome_iff_exists.mp (inside a (by simp))
    obtain ⟨j, hj⟩ := Option.isSome_iff_exists.mp (inside b (by simp))
    have le := List.pairwise_iff_forall_sublist.mp (pairwise_mergeSort_number keyNumber _) within
    rw [keyNumber, keyNumber, hi, hj] at le
    rw [KeyBefore, hi, hj]
    rcases Nat.lt_or_eq_of_le le with less | same
    · exact .inl less
    · have both := within.filter (keyNumber · = i)
      have equal : j = i := same.symm
      have pair : [a, b].filter (keyNumber · = i) = [a, b] := by simp [keyNumber, hi, hj, equal]
      rw [filter_mergeSort_number, pair] at both
      have stands := (both.trans List.filter_sublist).trans List.filter_sublist
      exact .inr ⟨same, List.pairwise_iff_forall_sublist.mp t.sorted stands⟩
  · refine (t.sorted.filter _).imp_of_mem fun {a b} ha hb less ↦ ?_
    rw [KeyBefore, Option.isNone_iff_eq_none.mp (List.mem_filter.mp ha).2,
      Option.isNone_iff_eq_none.mp (List.mem_filter.mp hb).2]
    exact less
  · intro a ha b hb
    rw [(List.mergeSort_perm _ _).mem_iff] at ha
    obtain ⟨i, hi⟩ := Option.isSome_iff_exists.mp (List.mem_filter.mp ha).2
    have no_number := Option.isNone_iff_eq_none.mp (List.mem_filter.mp hb).2
    rw [KeyBefore, hi, no_number]
    trivial

/-- The members of an object make the entries of their table. -/
theorem areEntries_ordered (members : List (String × ν)) :
    AreEntries members (ordered (Table.ofList members)) where
  mem_iff key value := by
    rw [ordered, List.mem_append, (List.mergeSort_perm _ _).mem_iff, List.mem_filter,
      List.mem_filter, ← and_or_left]
    have either : (index? key).isSome = true ∨ (index? key).isNone = true := by
      cases index? key <;> simp
    rw [and_iff_left either, Table.mem_toList_iff, Table.get?_ofList]
    rfl
  ordered := pairwise_ordered _

/-- The quotes of an object are those of its entries. -/
theorem inKeyOrder_ofList_iff {members : List (String × Quote)} {quotes : List Quote} :
    inKeyOrder (Table.ofList members) = quotes ↔
      ∃ entries, AreEntries members entries ∧ quotes = entries.map (·.2) := by
  rw [inKeyOrder_eq]
  constructor
  · rintro rfl
    exact ⟨_, areEntries_ordered members, rfl⟩
  · rintro ⟨entries, are, rfl⟩
    rw [are.unique (areEntries_ordered members)]

end Quoteboard.Market.Feed
