import Quoteboard.Relay.Registry

/-!
# What a call does to the registry

Each call registers one pair, removes some pairs for one reason, cancels a root, or notes the
outcome of an attempt to open a connection; what it does to the pairs and to the counts, and what it
answers, follows from which of these it is.
-/

namespace Quoteboard.Relay

open Quoteboard.Metrics

/-- What may be asked of a registry. -/
inductive Call where
  | register (root : RootId)
  | teardown (id : PairId) (reason : TeardownReason)
  /-- Tear a pair down by its handle. -/
  | handleTeardown (id : PairId) (reason : TeardownReason)
  | dropHandle (id : PairId)
  | teardownAll (reason : TeardownReason)
  | cancelRoot (root : RootId)
  | recordOpen (ok : Bool)
  deriving DecidableEq, Repr

/-- What a registry answers. -/
inductive Answer where
  | registered (id : PairId)
  /-- Whether this call removed the pair. -/
  | removed (removed : Bool)
  /-- How many pairs this call removed. -/
  | count (removed : Nat)
  | silent
  deriving DecidableEq, Repr

/-- The reason under which a call removes pairs, if it removes any. -/
def Call.reason? : Call → Option TeardownReason
  | .teardown _ reason | .handleTeardown _ reason | .teardownAll reason => some reason
  | .dropHandle _ => some .dropped
  | .register _ | .cancelRoot _ | .recordOpen _ => none

namespace Registry

/-- Do what is asked. A handle that is not held cannot be asked anything. -/
def call (r : Registry) : Call → Registry × Answer
  | .register root => let (r, id) := r.register root; (r, .registered id)
  | .teardown id reason => let (r, removed) := r.teardown id reason; (r, .removed removed)
  | .handleTeardown id reason =>
    match r.handleTeardown id reason with
    | (r, some removed) => (r, .removed removed)
    | (r, none) => (r, .silent)
  | .dropHandle id => ((r.dropHandle id).1, .silent)
  | .teardownAll reason => let (r, n) := r.teardownAll reason; (r, .count n)
  | .cancelRoot root => (r.cancelRoot root, .silent)
  | .recordOpen ok => (r.recordOpen ok, .silent)

/-- One call: what the registry was, what was asked, what it became and what it answered. -/
structure Turn where
  before : Registry
  call : Call
  after : Registry
  answer : Answer

/-- The turn that a call makes a registry take. -/
def turn (r : Registry) (c : Call) : Turn := ⟨r, c, (r.call c).1, (r.call c).2⟩

/-- The turns that calls make a registry take. -/
def history (r : Registry) : List Call → List Turn
  | [] => []
  | c :: calls => r.turn c :: (r.call c).1.history calls

/-- What calls make of a registry. -/
def after (r : Registry) (calls : List Call) : Registry :=
  calls.foldl (fun r c ↦ (r.call c).1) r

/-- Whether a pair is there before a turn and not after it. -/
def Turn.removes (t : Turn) (id : PairId) : Bool := t.before.contains id && !t.after.contains id

/-- The pairs that are there before a turn and not after it. -/
def Turn.removed (t : Turn) : List PairId := (List.range t.before.pairs.length).filter t.removes

/-- The one pair that a turn is about, if it is about one. -/
def Turn.subject? (t : Turn) : Option PairId :=
  match t.call with
  | .register _ => some t.before.pairs.length
  | .teardown id _ | .handleTeardown id _ | .dropHandle id => some id
  | .teardownAll _ | .cancelRoot _ | .recordOpen _ => none

variable {r r' r'' : Registry} {id other : PairId} {reason : TeardownReason}
  {ids more : List PairId} {c : Call} {t : Turn}

/-! ### What a removal does -/

/-- One registry is another after some pairs were removed for a reason. -/
structure Removal (reason : TeardownReason) (ids : List PairId) (r r' : Registry) : Prop where
  nodup : ids.Nodup
  contained : ∀ id ∈ ids, r.contains id = true
  pairs_eq : ∀ id, r'.pairs[id]? = if id ∈ ids then r.pairs[id]?.map .stop else r.pairs[id]?
  length_eq : r'.pairs.length = r.pairs.length
  accepted_eq : r'.accepted = r.accepted
  roots_eq : r'.cancelledRoots = r.cancelledRoots
  tornDown_eq : r'.tornDown = r.tornDown + ids.length
  active_eq : r'.active + ids.length = r.active
  total_eq : ∀ counter, total counter r'.record
    = total counter r.record + if counter = .teardowns reason then ids.length else 0
  gauge_eq : activePairs? r'.record = if ids = [] then activePairs? r.record else some r'.active

/-- A change of one element changes what is counted by that element. -/
theorem countP_modify_add {α : Type} {q : α → Bool} {f : α → α} {l : List α} {i : Nat} {a : α}
    (h : l[i]? = some a) :
    (l.modify i f).countP q + (if q a then 1 else 0) = l.countP q + if q (f a) then 1 else 0 := by
  induction l generalizing i with
  | nil => simp at h
  | cons b l ih =>
    cases i with
    | zero =>
      obtain rfl : b = a := by simpa using h
      simp only [List.modify_zero_cons, List.countP_cons]
      omega
    | succ i =>
      have found : l[i]? = some a := by simpa using h
      have rest := ih found
      simp only [List.modify_succ_cons, List.countP_cons]
      omega

/-- A change that does not matter to the count of any element does not matter to the count. -/
theorem countP_modify_of_eq {α : Type} {q : α → Bool} {f : α → α} {l : List α} {i : Nat}
    (h : ∀ a, q (f a) = q a) : (l.modify i f).countP q = l.countP q := by
  cases hl : l[i]? with
  | none => rw [List.modify_eq_self (List.getElem?_eq_none_iff.mp hl)]
  | some a =>
    have counted := countP_modify_add (q := q) (f := f) hl
    rw [h] at counted
    exact Nat.add_right_cancel counted

/-- A pair is there if it has an entry that is active. -/
theorem contains_iff : r.contains id = true ↔ ∃ m, r.pairs[id]? = some m ∧ m.isActive = true := by
  cases h : r.pairs[id]? <;> simp [contains, h]

/-- A pair that is there has a number that was given to a pair. -/
theorem lt_of_contains (h : r.contains id = true) : id < r.pairs.length := by
  obtain ⟨m, hm, -⟩ := contains_iff.mp h
  exact (List.getElem?_eq_some_iff.mp hm).1

/-- After a note the gauge shows the number of active pairs. -/
theorem activePairs?_note (r : Registry) (counter : Counter) :
    activePairs? (r.note counter).record = some r.active := by
  simp [note, activePairs?, Recording.one]

/-- A note counts one more of what it is about. -/
theorem total_note (r : Registry) (counter noted : Counter) :
    total counter (r.note noted).record
      = total counter r.record + if counter = noted then 1 else 0 := by
  simp [note, total, Recording.one, Recording.amount, eq_comm]

namespace Removal

/-- Nothing was removed. -/
theorem refl (reason : TeardownReason) (r : Registry) : Removal reason [] r r where
  nodup := .nil
  contained := by simp
  pairs_eq := by simp
  length_eq := rfl
  accepted_eq := rfl
  roots_eq := rfl
  tornDown_eq := rfl
  active_eq := rfl
  total_eq := by simp
  gauge_eq := rfl

/-- What was removed is not there any more, and the rest is as it was. -/
theorem contains_eq (h : Removal reason ids r r') (id : PairId) :
    r'.contains id = (r.contains id && !ids.contains id) := by
  rw [contains, contains, h.pairs_eq]
  by_cases hm : id ∈ ids
  · cases hp : r.pairs[id]? <;> simp [hm, PairEntry.stop]
  · simp [hm]

/-- Removals that follow one another make one removal. -/
theorem trans (h : Removal reason ids r r') (h' : Removal reason more r' r'') :
    Removal reason (ids ++ more) r r'' := by
  have apart : ∀ id ∈ more, id ∉ ids ∧ r.contains id = true := by
    intro id hm
    have hc := h'.contained id hm
    rw [h.contains_eq, Bool.and_eq_true] at hc
    exact ⟨by simpa using hc.2, hc.1⟩
  exact {
    nodup := List.nodup_append.mpr ⟨h.nodup, h'.nodup, fun a ha b hb e ↦ (apart b hb).1 (e ▸ ha)⟩
    contained := fun id hm ↦ by
      rcases List.mem_append.mp hm with hm | hm
      · exact h.contained id hm
      · exact (apart id hm).2
    pairs_eq := fun id ↦ by
      rw [h'.pairs_eq, h.pairs_eq]
      by_cases hm : id ∈ more
      · simp [hm, (apart id hm).1]
      · simp [hm]
    length_eq := h'.length_eq.trans h.length_eq
    accepted_eq := h'.accepted_eq.trans h.accepted_eq
    roots_eq := h'.roots_eq.trans h.roots_eq
    tornDown_eq := by rw [h'.tornDown_eq, h.tornDown_eq, List.length_append, Nat.add_assoc]
    active_eq := by
      have := h.active_eq
      have := h'.active_eq
      rw [List.length_append]
      omega
    total_eq := fun counter ↦ by
      rw [h'.total_eq, h.total_eq, List.length_append]
      split <;> omega
    gauge_eq := by
      rw [h'.gauge_eq, h.gauge_eq]
      by_cases hm : more = []
      · subst hm
        have same : r''.active = r'.active := by simpa using h'.active_eq
        simp [same]
      · simp [hm] }

end Removal

/-- Tearing a pair down removes it, if it is there. -/
theorem removal_teardown (r : Registry) (id : PairId) (reason : TeardownReason) :
    Removal reason (if r.contains id then [id] else []) r (r.teardown id reason).1 ∧
      (r.teardown id reason).2 = r.contains id := by
  by_cases h : r.contains id = true
  · obtain ⟨m, hm, ha⟩ := contains_iff.mp h
    rw [teardown, if_pos h, if_pos h]
    have active_eq := countP_modify_add (q := (·.isActive)) (f := .stop) hm
    rw [ha] at active_eq
    refine ⟨?_, h.symm⟩
    exact {
      nodup := by simp
      contained := by simpa using h
      pairs_eq := fun other ↦ by
        rw [pairs_note, List.getElem?_modify]
        by_cases he : id = other
        · simp [he]
        · simp [he, Ne.symm he]
      length_eq := by simp
      accepted_eq := rfl
      roots_eq := rfl
      tornDown_eq := rfl
      active_eq := active_eq
      total_eq := fun counter ↦ by
        rw [total_note]
        rfl
      gauge_eq := by
        rw [activePairs?_note]
        rfl }
  · rw [teardown, if_neg h, if_neg h]
    exact ⟨.refl reason r, (Bool.eq_false_iff.mpr h).symm⟩

/-- Tearing some pairs down removes those of them that are there. -/
theorem removal_teardownEach (nodup : ids.Nodup) (contained : ∀ id ∈ ids, r.contains id = true) :
    Removal reason ids r (r.teardownEach reason ids).1 ∧
      (r.teardownEach reason ids).2 = ids.length := by
  induction ids generalizing r with
  | nil => exact ⟨.refl reason r, rfl⟩
  | cons id ids ih =>
    obtain ⟨fresh, nodup⟩ := List.nodup_cons.mp nodup
    have here := contained id (by simp)
    obtain ⟨first, told⟩ := removal_teardown r id reason
    rw [if_pos here] at first
    have still : ∀ other ∈ ids, (r.teardown id reason).1.contains other = true := by
      intro other ho
      have differ : other ≠ id := fun e ↦ fresh (e ▸ ho)
      rw [first.contains_eq, contained other (by simp [ho])]
      simp [differ]
    obtain ⟨rest, told'⟩ := ih nodup still
    refine ⟨first.trans rest, ?_⟩
    rw [teardownEach]
    simp [told, told', here]

/-- The pairs that are removed when all are. -/
theorem mem_activeIds : id ∈ r.activeIds ↔ r.contains id = true := by
  rw [activeIds, List.mem_filter, List.mem_range]
  exact ⟨And.right, fun h ↦ ⟨lt_of_contains h, h⟩⟩

/-- Tearing all pairs down removes those that are there. -/
theorem removal_teardownAll (r : Registry) (reason : TeardownReason) :
    Removal reason r.activeIds r (r.teardownAll reason).1 ∧
      (r.teardownAll reason).2 = r.activeIds.length :=
  removal_teardownEach (List.nodup_range.filter _) fun _ ↦ mem_activeIds.mp

/-- What tearing a pair down makes of a registry that has it. -/
theorem teardown_of_contains (h : r.contains id = true) (reason : TeardownReason) :
    (r.teardown id reason).1 =
      { r with
        pairs := r.pairs.modify id .stop
        tornDown := r.tornDown + 1
        record := r.record ++ [.one (.teardowns reason), .activePairs (r.active - 1)] } := by
  have less := (removal_teardown r id reason).1.active_eq
  rw [if_pos h] at less
  rw [teardown, if_pos h] at less ⊢
  have shown : (r.pairs.modify id PairEntry.stop).countP (·.isActive) = r.active - 1 := by
    rw [← less]
    rfl
  simp [note, active, shown]

/-- Two pairs that are there may be torn down in either order. -/
theorem teardown_comm (h : r.contains id = true) (h' : r.contains other = true)
    (differ : id ≠ other) :
    ((r.teardown id reason).1.teardown other reason).1
      = ((r.teardown other reason).1.teardown id reason).1 := by
  obtain ⟨first, -⟩ := removal_teardown r id reason
  obtain ⟨second, -⟩ := removal_teardown r other reason
  rw [if_pos h] at first
  rw [if_pos h'] at second
  have still : (r.teardown id reason).1.contains other = true := by
    simp [first.contains_eq, h', Ne.symm differ]
  have still' : (r.teardown other reason).1.contains id = true := by
    simp [second.contains_eq, h, differ]
  have level : (r.teardown id reason).1.active = (r.teardown other reason).1.active :=
    Nat.add_right_cancel (first.active_eq.trans second.active_eq.symm)
  have swap : (r.pairs.modify id .stop).modify other .stop
      = (r.pairs.modify other .stop).modify id .stop := by
    apply List.ext_getElem?
    intro i
    simp only [List.getElem?_modify]
    by_cases hi : id = i <;> by_cases ho : other = i <;> simp [hi, ho]
  rw [teardown_of_contains still, teardown_of_contains still', level, teardown_of_contains h,
    teardown_of_contains h']
  simp [swap]

private theorem teardownEach_cons (h : r.contains id = true) (ids : List PairId) :
    r.teardownEach reason (id :: ids) =
      (((r.teardown id reason).1.teardownEach reason ids).1,
        ((r.teardown id reason).1.teardownEach reason ids).2 + 1) := by
  have told := (removal_teardown r id reason).2
  rw [teardownEach]
  simp [told, h]

private theorem contains_teardown_of_ne (h : r.contains other = true) (differ : other ≠ id) :
    (r.teardown id reason).1.contains other = true := by
  rw [(removal_teardown r id reason).1.contains_eq, h]
  split <;> simp [differ]

/-- The order in which pairs are torn down does not show: a sweep may take them in any order. -/
theorem teardownEach_of_perm (same : ids.Perm more) (nodup : ids.Nodup)
    (contained : ∀ id ∈ ids, r.contains id = true) :
    r.teardownEach reason ids = r.teardownEach reason more := by
  induction same generalizing r with
  | nil => rfl
  | cons id _ ih =>
    obtain ⟨fresh, nodup⟩ := List.nodup_cons.mp nodup
    have here := contained id (by simp)
    rw [teardownEach_cons here, teardownEach_cons here, ih nodup]
    intro other ho
    exact contains_teardown_of_ne (contained other (by simp [ho])) fun e ↦ fresh (e ▸ ho)
  | swap id other ids =>
    have differ : other ≠ id := by
      intro e
      subst e
      simp at nodup
    have here := contained id (by simp)
    have here' := contained other (by simp)
    rw [teardownEach_cons here', teardownEach_cons here,
      teardownEach_cons (contains_teardown_of_ne here differ.symm),
      teardownEach_cons (contains_teardown_of_ne here' differ),
      teardown_comm here' here differ]
  | trans first _ ih ih' =>
    rw [ih nodup contained, ih' (first.nodup_iff.mp nodup)]
    exact fun id hm ↦ contained id (first.mem_iff.mpr hm)

/-- The handle of a pair is let go. -/
def release (r : Registry) (id : PairId) : Registry :=
  { r with pairs := r.pairs.modify id fun m ↦ { m with isHeld := false } }

/-- Only the handle that is let go is not held any more. -/
theorem getElem?_release (r : Registry) (id other : PairId) :
    (r.release id).pairs[other]? = if id = other then
      r.pairs[other]?.map fun m ↦ { m with isHeld := false } else r.pairs[other]? := by
  rw [release, List.getElem?_modify]
  by_cases h : id = other <;> simp [h]

/-- Two registries with the same pairs and the same counts: only which handles are held may
differ. -/
structure SameBooks (r r' : Registry) : Prop where
  contains_eq : ∀ id, r'.contains id = r.contains id
  length_eq : r'.pairs.length = r.pairs.length
  active_eq : r'.active = r.active
  accepted_eq : r'.accepted = r.accepted
  tornDown_eq : r'.tornDown = r.tornDown
  roots_eq : r'.cancelledRoots = r.cancelledRoots
  record_eq : r'.record = r.record
  entry_eq : ∀ {id : PairId} {m : PairEntry}, r.pairs[id]? = some m →
    ∃ m', r'.pairs[id]? = some m' ∧ m'.root = m.root ∧ m'.isStopped = m.isStopped

theorem SameBooks.refl (r : Registry) : SameBooks r r :=
  ⟨fun _ ↦ rfl, rfl, rfl, rfl, rfl, rfl, rfl, fun h ↦ ⟨_, h, rfl, rfl⟩⟩

/-- Letting a handle go changes no books. -/
theorem sameBooks_release (r : Registry) (id : PairId) : SameBooks r (r.release id) where
  contains_eq other := by
    rw [contains, contains, getElem?_release]
    by_cases h : id = other
    · cases hp : r.pairs[other]? <;> simp [h]
    · simp [h]
  length_eq := List.length_modify ..
  active_eq := countP_modify_of_eq fun _ ↦ rfl
  accepted_eq := rfl
  tornDown_eq := rfl
  roots_eq := rfl
  record_eq := rfl
  entry_eq {other m} h := by
    rw [getElem?_release]
    by_cases he : id = other
    · exact ⟨{ m with isHeld := false }, by rw [if_pos he, h]; rfl, rfl, rfl⟩
    · exact ⟨m, by rw [if_neg he, h], rfl, rfl⟩

/-- What a call can do to a registry. -/
inductive Move (r : Registry) : Call → Registry → Answer → Prop where
  /-- A pair is registered under the next number. -/
  | register (root : RootId) :
      Move r (.register root) (r.register root).1 (.registered r.pairs.length)
  /-- Some pairs are removed, possibly none, and possibly after a handle was let go. -/
  | remove {c : Call} {reason : TeardownReason} {ids : List PairId} {r₁ r' : Registry}
      {answer : Answer} (under : c.reason? = some reason) (same : SameBooks r r₁)
      (removal : Removal reason ids r₁ r') (silent : ∀ id, answer ≠ .registered id) :
      Move r c r' answer
  /-- A root is cancelled. -/
  | cancelRoot (root : RootId) : Move r (.cancelRoot root) (r.cancelRoot root) .silent
  /-- The outcome of an attempt to open a connection is noted. -/
  | recordOpen (ok : Bool) : Move r (.recordOpen ok) (r.recordOpen ok) .silent

/-- Every call does what one of the rules says. -/
theorem move_call (r : Registry) (c : Call) : Move r c (r.call c).1 (r.call c).2 := by
  cases c with
  | register root => exact .register root
  | teardown id reason =>
    exact .remove rfl (.refl r) (removal_teardown r id reason).1 (by simp [call])
  | handleTeardown id reason =>
    by_cases h : r.isHeld id = true
    · simp only [call, handleTeardown, if_pos h]
      exact .remove rfl (.refl r) (removal_teardown r id reason).1 (by simp)
    · simp only [call, handleTeardown, if_neg h]
      exact .remove rfl (.refl r) (.refl reason r) (by simp)
  | dropHandle id =>
    by_cases h : r.isHeld id = true
    · simp only [call, dropHandle, if_pos h]
      exact .remove rfl (sameBooks_release r id)
        (removal_teardown (r.release id) id .dropped).1 (by simp)
    · simp only [call, dropHandle, if_neg h]
      exact .remove rfl (.refl r) (.refl .dropped r) (by simp)
  | teardownAll reason =>
    exact .remove rfl (.refl r) (removal_teardownAll r reason).1 (by simp [call])
  | cancelRoot root => exact .cancelRoot root
  | recordOpen ok => exact .recordOpen ok

/-! ### What a call does to the books -/

variable {answer : Answer}

/-- The pairs that a removal takes away are those that are there before it and not after. -/
theorem Removal.removes_eq {r₁ : Registry} (removal : Removal reason ids r₁ r')
    (same : SameBooks r r₁) (id : PairId) :
    Turn.removes ⟨r, c, r', answer⟩ id = ids.contains id := by
  by_cases hm : id ∈ ids
  · have here := removal.contained id hm
    simp [Turn.removes, removal.contains_eq, ← same.contains_eq, here, hm]
  · simp [Turn.removes, removal.contains_eq, ← same.contains_eq, hm]

/-- A removal takes away as many pairs as it is said to. -/
theorem Removal.length_removed {r₁ : Registry} (removal : Removal reason ids r₁ r')
    (same : SameBooks r r₁) : (Turn.removed ⟨r, c, r', answer⟩).length = ids.length := by
  apply List.Perm.length_eq
  apply (List.perm_ext_iff_of_nodup (List.nodup_range.filter _) removal.nodup).mpr
  intro id
  rw [List.mem_filter, removal.removes_eq same, List.contains_iff_mem, List.mem_range]
  refine ⟨And.right, fun hm ↦ ⟨?_, hm⟩⟩
  exact lt_of_contains ((same.contains_eq id).symm.trans (removal.contained id hm))

/-- A pair is there after it was registered, and all that were there before are still. -/
theorem contains_register_eq (r : Registry) (root : RootId) (id : PairId) :
    (r.register root).1.contains id = (r.contains id || decide (id = r.pairs.length)) := by
  simp only [register, contains, pairs_note]
  by_cases hl : id < r.pairs.length
  · simp [List.getElem?_append_left hl, Nat.ne_of_lt hl]
  · have outside := Nat.not_lt.mp hl
    rw [List.getElem?_append_right outside]
    by_cases he : id = r.pairs.length
    · simp [he, PairEntry.new]
    · have beyond : 1 ≤ id - r.pairs.length :=
        Nat.sub_pos_of_lt (Nat.lt_of_le_of_ne outside (Ne.symm he))
      simp [he, List.getElem?_eq_none outside, List.getElem?_eq_none, beyond]

/-- A pair that is registered is one more. -/
theorem active_register (r : Registry) (root : RootId) :
    (r.register root).1.active = r.active + 1 := by
  simp [register, active, PairEntry.new]

/-- Noting the outcome of an attempt changes no books. -/
theorem sameBooks_recordOpen (r : Registry) (ok : Bool) :
    (r.recordOpen ok).pairs = r.pairs ∧ (r.recordOpen ok).accepted = r.accepted ∧
      (r.recordOpen ok).tornDown = r.tornDown ∧
      (r.recordOpen ok).cancelledRoots = r.cancelledRoots := by
  cases ok <;> exact ⟨rfl, rfl, rfl, rfl⟩

namespace Move

/-- Only a registration answers with a pair. -/
theorem register_of_answer (move : Move r c r' (.registered id)) :
    id = r.pairs.length ∧ ∃ root, c = .register root ∧ r' = (r.register root).1 := by
  cases move with
  | register root => exact ⟨rfl, root, rfl, rfl⟩
  | remove under same removal silent => exact absurd rfl (silent id)

/-- A call without a reason to remove pairs removes none. -/
theorem removes_of_reason?_eq_none (move : Move r c r' answer) (h : c.reason? = none)
    (id : PairId) : Turn.removes ⟨r, c, r', answer⟩ id = false := by
  cases move with
  | register root =>
    rw [Turn.removes, contains_register_eq]
    cases r.contains id <;> rfl
  | remove under => rw [h] at under; cases under
  | cancelRoot root => exact Bool.and_not_self _
  | recordOpen ok =>
    rw [Turn.removes, contains, contains, (sameBooks_recordOpen r ok).1]
    exact Bool.and_not_self _

/-- A call without a reason takes no pair away. -/
theorem length_removed_of_reason?_eq_none (move : Move r c r' answer)
    (h : c.reason? = none) : (Turn.removed ⟨r, c, r', answer⟩).length = 0 := by
  rw [List.length_eq_zero_iff, Turn.removed, List.filter_eq_nil_iff]
  intro id _
  rw [move.removes_of_reason?_eq_none h]
  exact Bool.false_ne_true

/-- Which pairs are there after a call. -/
theorem contains_eq (move : Move r c r' answer) (id : PairId) :
    r'.contains id
      = ((r.contains id && !Turn.removes ⟨r, c, r', answer⟩ id)
        || decide (answer = .registered id)) := by
  cases move with
  | register root =>
    rw [(Move.register root).removes_of_reason?_eq_none rfl, contains_register_eq]
    simp [eq_comm]
  | remove under same removal silent =>
    rw [removal.removes_eq same, removal.contains_eq, same.contains_eq]
    simp [silent id]
  | cancelRoot root =>
    rw [(Move.cancelRoot root).removes_of_reason?_eq_none rfl]
    simp [Registry.cancelRoot, contains]
  | recordOpen ok =>
    rw [(Move.recordOpen ok).removes_of_reason?_eq_none rfl, contains,
      (sameBooks_recordOpen r ok).1]
    simp [contains]

/-- The numbers of pairs go up with each registration and never down. -/
theorem length_eq (move : Move r c r' answer) :
    r'.pairs.length = r.pairs.length + if answer = .registered r.pairs.length then 1 else 0 := by
  cases move with
  | register root => simp [Registry.register]
  | remove under same removal silent =>
    rw [removal.length_eq, same.length_eq, if_neg (silent _)]
    rfl
  | cancelRoot root => rfl
  | recordOpen ok => rw [(sameBooks_recordOpen r ok).1]; rfl

/-- What is removed was there, and what comes to be there is registered. -/
theorem balance (move : Move r c r' answer) (id : PairId) :
    (if Turn.removes ⟨r, c, r', answer⟩ id then 1 else 0) + (if r'.contains id then 1 else 0)
        + (if id < r.pairs.length then 1 else 0)
      = (if r.contains id then 1 else 0) + if id < r'.pairs.length then 1 else 0 := by
  by_cases answered : answer = .registered id
  · obtain ⟨rfl, root, rfl, rfl⟩ := (answered ▸ move).register_of_answer
    have absent : r.contains r.pairs.length = false :=
      Bool.eq_false_iff.mpr fun hc ↦ Nat.lt_irrefl _ (lt_of_contains hc)
    rw [move.removes_of_reason?_eq_none rfl, move.contains_eq, move.length_eq]
    simp [answered, absent]
  · have level : id < r'.pairs.length ↔ id < r.pairs.length := by
      rw [move.length_eq]
      split
      · next fresh =>
        have differ : id ≠ r.pairs.length := fun e ↦ answered (e ▸ fresh)
        rw [Nat.lt_succ_iff_lt_or_eq, or_iff_left differ]
      · rfl
    have there := move.contains_eq id
    rw [decide_eq_false answered, Bool.or_false] at there
    have taken : Turn.removes ⟨r, c, r', answer⟩ id = (r.contains id && !r'.contains id) := rfl
    simp only [level]
    cases before : r.contains id <;> cases now : r'.contains id <;> simp_all

/-- What was removed by a call counts as torn down. -/
theorem tornDown_eq (move : Move r c r' answer) :
    r'.tornDown = r.tornDown + (Turn.removed ⟨r, c, r', answer⟩).length := by
  cases move with
  | register root => rw [(Move.register root).length_removed_of_reason?_eq_none rfl]; rfl
  | remove under same removal silent =>
    rw [removal.length_removed same, removal.tornDown_eq, same.tornDown_eq]
  | cancelRoot root => rw [(Move.cancelRoot root).length_removed_of_reason?_eq_none rfl]; rfl
  | recordOpen ok =>
    rw [(Move.recordOpen ok).length_removed_of_reason?_eq_none rfl]
    exact (sameBooks_recordOpen r ok).2.2.1

/-- What was removed by a call counts as torn down under its reason. -/
theorem total_teardowns_eq (move : Move r c r' answer) (reason : TeardownReason) :
    total (.teardowns reason) r'.record = total (.teardowns reason) r.record
      + if c.reason? = some reason then (Turn.removed ⟨r, c, r', answer⟩).length else 0 := by
  cases move with
  | register root => simp [Registry.register, total_note, Call.reason?]
  | remove under same removal silent =>
    rw [removal.length_removed same, removal.total_eq, under, same.record_eq]
    simp [eq_comm]
  | cancelRoot root => simp [Registry.cancelRoot, Call.reason?]
  | recordOpen ok =>
    cases ok <;> simp [Registry.recordOpen, total, Recording.one, Recording.amount, Call.reason?]

/-- A registration is accepted, and what is removed is not active any more. -/
theorem accepted_eq (move : Move r c r' answer) (h : r.accepted = r.tornDown + r.active) :
    r'.accepted = r'.tornDown + r'.active := by
  cases move with
  | register root =>
    rw [active_register]
    exact congrArg Nat.succ h
  | remove under same removal silent =>
    have counted := removal.active_eq
    rw [same.active_eq] at counted
    rw [removal.accepted_eq, removal.tornDown_eq, same.accepted_eq, same.tornDown_eq]
    omega
  | cancelRoot root => exact h
  | recordOpen ok =>
    obtain ⟨pairs, accepted, tornDown, -⟩ := sameBooks_recordOpen r ok
    rw [accepted, tornDown, active, pairs]
    exact h

/-- The gauge follows the number of pairs. -/
theorem gauge_eq (move : Move r c r' answer)
    (h : activePairs? r.record = if r.pairs = [] then none else some r.active) :
    activePairs? r'.record = if r'.pairs = [] then none else some r'.active := by
  cases move with
  | register root =>
    rw [Registry.register, activePairs?_note]
    simp [active]
  | @remove _ _ ids _ _ _ under same removal silent =>
    have none_left : r'.pairs = [] ↔ r.pairs = [] := by
      rw [← List.length_eq_zero_iff, removal.length_eq, same.length_eq, List.length_eq_zero_iff]
    have counted := removal.active_eq
    rw [removal.gauge_eq, same.record_eq, h]
    simp only [none_left]
    by_cases hi : ids = []
    · rw [hi, same.active_eq] at counted
      simp [hi, ← counted]
    · obtain ⟨id, hm⟩ := List.exists_mem_of_ne_nil ids hi
      have inside := lt_of_contains ((same.contains_eq id).symm.trans (removal.contained id hm))
      have some_pair : r.pairs ≠ [] := List.ne_nil_of_length_pos (Nat.zero_lt_of_lt inside)
      simp [hi, some_pair]
  | cancelRoot root => exact h
  | recordOpen ok =>
    have shown : activePairs? (r.recordOpen ok).record = activePairs? r.record := by
      cases ok <;> simp [Registry.recordOpen, activePairs?, Recording.one]
    rw [shown, active, (sameBooks_recordOpen r ok).1]
    exact h

/-- The entry of a pair keeps its root, and its token is cancelled when the pair is removed. -/
theorem entry_eq (move : Move r c r' answer) {m : PairEntry} (h : r.pairs[id]? = some m) :
    ∃ m', r'.pairs[id]? = some m' ∧ m'.root = m.root ∧
      m'.isStopped = (m.isStopped || Turn.removes ⟨r, c, r', answer⟩ id) := by
  cases move with
  | register root =>
    have inside := (List.getElem?_eq_some_iff.mp h).1
    rw [(Move.register root).removes_of_reason?_eq_none rfl]
    exact ⟨m, by simp [Registry.register, List.getElem?_append_left inside, h], rfl,
      (Bool.or_false _).symm⟩
  | @remove _ _ ids _ _ _ under same removal silent =>
    obtain ⟨m₁, h₁, root, stopped⟩ := same.entry_eq h
    rw [removal.removes_eq same, removal.pairs_eq, h₁]
    by_cases hm : id ∈ ids
    · exact ⟨m₁.stop, by simp [hm], root, by simp [hm, PairEntry.stop]⟩
    · exact ⟨m₁, by simp [hm], root, by simp [hm, stopped]⟩
  | cancelRoot root =>
    rw [(Move.cancelRoot root).removes_of_reason?_eq_none rfl]
    exact ⟨m, h, rfl, (Bool.or_false _).symm⟩
  | recordOpen ok =>
    rw [(Move.recordOpen ok).removes_of_reason?_eq_none rfl, (sameBooks_recordOpen r ok).1]
    exact ⟨m, h, rfl, (Bool.or_false _).symm⟩

/-- A root is cancelled by the calls that ask for that. -/
theorem mem_cancelledRoots (move : Move r c r' answer) (root : RootId) :
    root ∈ r'.cancelledRoots ↔ root ∈ r.cancelledRoots ∨ c = .cancelRoot root := by
  cases move with
  | register root' => simp [Registry.register, note]
  | remove under same removal silent =>
    rw [removal.roots_eq, same.roots_eq]
    refine ⟨.inl, fun h ↦ h.resolve_right ?_⟩
    rintro rfl
    cases under
  | cancelRoot root' => simp [Registry.cancelRoot, eq_comm, or_comm]
  | recordOpen ok =>
    rw [(sameBooks_recordOpen r ok).2.2.2]
    simp

end Move

/-- A pair whose handle is let go is not there any more. -/
theorem contains_of_dropHandle (h : r.isHeld id = true) :
    (r.call (.dropHandle id)).1.contains id = false := by
  simp only [call, dropHandle, if_pos h]
  exact contains_teardown _ _ _

/-- No pair is active if none is there. -/
theorem active_eq_zero_iff : r.active = 0 ↔ ∀ id, r.contains id = false := by
  rw [active, List.countP_eq_zero]
  constructor
  · intro h id
    apply Bool.eq_false_iff.mpr
    intro hc
    obtain ⟨m, hm, ha⟩ := contains_iff.mp hc
    exact h m (List.mem_of_getElem? hm) ha
  · intro h m hm ha
    obtain ⟨id, hp⟩ := List.mem_iff_getElem?.mp hm
    exact Bool.eq_false_iff.mp (h id) (contains_iff.mpr ⟨m, hp, ha⟩)

/-! ### What a call answers -/

/-- Who asks for one pair to be removed is told whether this call did it. -/
theorem turn_removed {removed : Bool} (subject : (r.turn c).subject? = some id)
    (h : (r.turn c).answer = .removed removed) : removed = (r.turn c).removes id := by
  have torn (reason : TeardownReason) : (removed : Bool) → removed = (r.teardown id reason).2 →
      removed = Turn.removes ⟨r, c, (r.teardown id reason).1, .removed removed⟩ id := by
    intro removed told
    obtain ⟨removal, answer⟩ := removal_teardown r id reason
    rw [removal.removes_eq (.refl r), told, answer]
    cases r.contains id <;> simp
  cases c with
  | teardown other reason =>
    obtain rfl : other = id := by simpa [Turn.subject?, turn] using subject
    obtain rfl : (r.teardown other reason).2 = removed := by simpa [turn, call] using h
    exact torn reason _ rfl
  | handleTeardown other reason =>
    obtain rfl : other = id := by simpa [Turn.subject?, turn] using subject
    by_cases held : r.isHeld other = true
    · simp only [turn, call, handleTeardown, if_pos held] at h ⊢
      obtain rfl : (r.teardown other reason).2 = removed := by simpa using h
      exact torn reason _ rfl
    · simp [turn, call, handleTeardown, held] at h
  | register root => cases h
  | dropHandle other => cases h
  | teardownAll reason => cases h
  | cancelRoot root => cases h
  | recordOpen ok => cases h

/-- Who asks for all pairs to be removed is told how many there were, and none is left. -/
theorem turn_all (h : (r.turn c).call = .teardownAll reason) :
    (r.turn c).answer = .count (r.turn c).removed.length ∧
      (r.turn c).removed.length = r.active ∧ (r.turn c).after.active = 0 := by
  obtain rfl : c = .teardownAll reason := h
  obtain ⟨removal, answer⟩ := removal_teardownAll r reason
  have removed : (r.turn (.teardownAll reason)).removed.length = r.activeIds.length :=
    removal.length_removed (.refl r)
  have none_left : (r.teardownAll reason).1.active = 0 := by
    apply active_eq_zero_iff.mpr
    intro id
    rw [removal.contains_eq]
    cases hc : r.contains id
    · rfl
    · simp [mem_activeIds.mpr hc]
  have counted := removal.active_eq
  refine ⟨?_, by omega, none_left⟩
  rw [removed, ← answer]
  rfl

/-- A call about one pair leaves the others as they are, and cancels nothing else. -/
theorem turn_others (subject : (r.turn c).subject? = some id) (differ : other ≠ id) :
    (r.turn c).after.pairs[other]? = r.pairs[other]? ∧
      (r.turn c).after.cancelledRoots = r.cancelledRoots := by
  have torn (r : Registry) (reason : TeardownReason) :
      (r.teardown id reason).1.pairs[other]? = r.pairs[other]? ∧
        (r.teardown id reason).1.cancelledRoots = r.cancelledRoots := by
    obtain ⟨removal, -⟩ := removal_teardown r id reason
    refine ⟨?_, removal.roots_eq⟩
    rw [removal.pairs_eq, if_neg]
    split <;> simp [differ]
  cases c with
  | register root =>
    obtain rfl : r.pairs.length = id := by simpa [Turn.subject?, turn] using subject
    refine ⟨?_, rfl⟩
    change (r.pairs ++ [PairEntry.new root])[other]? = r.pairs[other]?
    rcases Nat.lt_or_gt_of_ne differ with before | beyond
    · exact List.getElem?_append_left before
    · rw [List.getElem?_eq_none (Nat.le_of_lt beyond)]
      apply List.getElem?_eq_none
      simpa using Nat.succ_le_of_lt beyond
  | teardown other' reason =>
    obtain rfl : other' = id := by simpa [Turn.subject?, turn] using subject
    exact torn r reason
  | handleTeardown other' reason =>
    obtain rfl : other' = id := by simpa [Turn.subject?, turn] using subject
    by_cases held : r.isHeld other' = true
    · simp only [turn, call, handleTeardown, if_pos held]
      exact torn r reason
    · simp [turn, call, handleTeardown, held]
  | dropHandle other' =>
    obtain rfl : other' = id := by simpa [Turn.subject?, turn] using subject
    by_cases held : r.isHeld other' = true
    · simp only [turn, call, dropHandle, if_pos held]
      have after := torn (r.release other') .dropped
      rwa [getElem?_release, if_neg differ.symm] at after
    · simp [turn, call, dropHandle, held]
  | teardownAll reason => cases subject
  | cancelRoot root => cases subject
  | recordOpen ok => cases subject

/-- The turns of a history are turns of calls. -/
theorem turn_of_mem_history {calls : List Call} (h : t ∈ r.history calls) :
    ∃ r c, t = turn r c := by
  induction calls generalizing r with
  | nil => cases h
  | cons c calls ih =>
    rcases List.mem_cons.mp h with rfl | h
    · exact ⟨r, c, rfl⟩
    · exact ih h

end Registry

end Quoteboard.Relay
