import Mathlib.Algebra.BigOperators.Group.List.Basic
import Mathlib.Algebra.GroupWithZero.Nat
import Quoteboard.Proofs.Relay.Removal

/-!
# The registry's accounts

Whatever is asked of a registry, and in whatever order, its books agree with what has happened:
each pair that was registered is either there or was removed by exactly one call, which is the one
that says so; every count, for each reason and overall, is the number of such removals; and a
pair's token is cancelled exactly if the pair was removed or its root was cancelled.
-/

namespace Quoteboard.Relay

open Quoteboard.Metrics

namespace Registry

/-- A registry's books agree with what has happened. -/
structure Accounted (turns : List Turn) (r : Registry) : Prop where
  /-- Every pair that was registered is there or was torn down. -/
  accepted_eq : r.accepted = r.tornDown + r.active
  /-- A registered pair was removed by exactly one call, unless it is still there. -/
  removed_once : ∀ t ∈ turns, ∀ id, t.answer = .registered id →
    turns.countP (·.removes id) = if r.contains id then 0 else 1
  /-- A pair that was removed is not there again. -/
  gone_of_removes : ∀ t ∈ turns, ∀ id, t.removes id = true → r.contains id = false
  /-- Removals are what counts as torn down. -/
  tornDown_eq : r.tornDown = (turns.map (·.removed.length)).sum
  /-- Each removal is counted under the reason of the call that made it. -/
  teardowns_eq : ∀ reason, total (.teardowns reason) r.record
    = ((turns.filter (·.call.reason? = some reason)).map (·.removed.length)).sum
  /-- The counts for all reasons add up. -/
  teardowns_sum :
    (TeardownReason.all.map fun reason ↦ total (.teardowns reason) r.record).sum = r.tornDown
  /-- The token of a pair is cancelled exactly if the pair was removed or its root cancelled. -/
  isCancelled_iff : ∀ t ∈ turns, ∀ id root, t.call = .register root → t.answer = .registered id →
    ∃ m, r.pairs[id]? = some m ∧ (r.isCancelled m = true ↔
      (∃ t ∈ turns, t.removes id = true) ∨ ∃ t ∈ turns, t.call = .cancelRoot root)
  /-- The gauge shows the number of pairs, once it has been set. -/
  gauge_eq : ∀ n, activePairs? r.record = some n → n = r.active
  /-- The gauge is set as soon as a pair is registered. -/
  gauge_isSome : ∀ t ∈ turns, ∀ id, t.answer = .registered id →
    (activePairs? r.record).isSome = true
  /-- Once the handles of all pairs have been dropped, no pair is there. -/
  empty_of_dropped : (∀ t ∈ turns, ∀ id, t.answer = .registered id →
      ∃ t ∈ turns, t.call = .dropHandle id ∧ t.before.isHeld id = true) → r.active = 0
  /-- Whoever asks for one pair to be removed is told whether this call did it. -/
  removed_answer : ∀ t ∈ turns, ∀ id removed, t.subject? = some id →
    t.answer = .removed removed → removed = t.removes id
  /-- Whoever asks for all to be removed is told how many there were, and leaves none. -/
  all_answer : ∀ t ∈ turns, ∀ reason, t.call = .teardownAll reason →
    t.answer = .count t.removed.length ∧ t.removed.length = t.before.active ∧ t.after.active = 0
  /-- A call about one pair leaves the others and their tokens as they are. -/
  others_same : ∀ t ∈ turns, ∀ id other, t.subject? = some id → other ≠ id →
    t.after.pairs[other]? = t.before.pairs[other]? ∧
      ∀ m, t.after.isCancelled m = t.before.isCancelled m

variable {r : Registry} {id : PairId} {reason : TeardownReason} {c : Call} {t : Turn}

/-! ### What all calls together do to the books -/

/-- What the books owe to the turns that were taken, and keep with each further one. -/
structure Kept (turns : List Turn) (r : Registry) : Prop where
  registered_iff : ∀ id, id < r.pairs.length ↔ ∃ t ∈ turns, t.answer = .registered id
  root_eq : ∀ t ∈ turns, ∀ id root, t.call = .register root → t.answer = .registered id →
    ∃ m, r.pairs[id]? = some m ∧ m.root = root
  /-- A pair that was registered was removed once or is there. -/
  count_eq : ∀ id, turns.countP (·.removes id) + (if r.contains id then 1 else 0)
    = if id < r.pairs.length then 1 else 0
  isStopped_iff : ∀ {id : PairId} {m : PairEntry}, r.pairs[id]? = some m →
    (m.isStopped = true ↔ ∃ t ∈ turns, t.removes id = true)
  roots_iff : ∀ root, root ∈ r.cancelledRoots ↔ ∃ t ∈ turns, t.call = .cancelRoot root
  accepted_eq : r.accepted = r.tornDown + r.active
  tornDown_eq : r.tornDown = (turns.map (·.removed.length)).sum
  teardowns_eq : ∀ reason, total (.teardowns reason) r.record
    = ((turns.filter (·.call.reason? = some reason)).map (·.removed.length)).sum
  teardowns_sum :
    (TeardownReason.all.map fun reason ↦ total (.teardowns reason) r.record).sum = r.tornDown
  gauge_eq : activePairs? r.record = if r.pairs = [] then none else some r.active
  dropped : ∀ t ∈ turns, ∀ id, t.call = .dropHandle id → t.before.isHeld id = true →
    id < r.pairs.length ∧ r.contains id = false

/-- A new registry owes nothing. -/
theorem kept_new : Kept [] new where
  registered_iff := by simp [new]
  root_eq := by simp
  count_eq := by simp [new, contains]
  isStopped_iff := by simp [new]
  roots_iff := by simp [new]
  accepted_eq := rfl
  tornDown_eq := rfl
  teardowns_eq := fun _ ↦ rfl
  teardowns_sum := rfl
  gauge_eq := rfl
  dropped := by simp

private theorem exists_mem_concat {turns : List Turn} {p : Turn → Prop} :
    (∃ t' ∈ turns ++ [t], p t') ↔ (∃ t' ∈ turns, p t') ∨ p t := by
  simp [or_and_right, exists_or]

private theorem sum_teardowns (reason? : Option TeardownReason) (n : Nat) :
    (TeardownReason.all.map fun reason ↦ if reason? = some reason then n else 0).sum
      = if reason?.isSome then n else 0 := by
  rcases reason? with _ | reason
  · simp [TeardownReason.all]
  · cases reason <;> simp [TeardownReason.all]

/-- A pair that was there once and is not there any more does not come back. -/
theorem contains_call_eq_false (inside : id < r.pairs.length)
    (gone : r.contains id = false) (c : Call) : (r.call c).1.contains id = false := by
  have move := move_call r c
  rw [move.contains_eq, gone, Bool.false_and, Bool.false_or]
  apply decide_eq_false
  intro answered
  rw [answered] at move
  exact absurd move.register_of_answer.1 (Nat.ne_of_lt inside)

namespace Kept

variable {turns : List Turn}

/-- A pair that has not been registered was not removed. -/
theorem removes_eq_false (h : Kept turns r) (outside : r.pairs.length ≤ id) (ht : t ∈ turns) :
    t.removes id = false := by
  have none_counted := h.count_eq id
  rw [if_neg (Nat.not_lt.mpr outside)] at none_counted
  have zero := (Nat.add_eq_zero_iff.mp none_counted).1
  exact Bool.eq_false_iff.mpr (List.countP_eq_zero.mp zero t ht)

/-- A pair is counted once: when it is registered it is there, and a removal takes it away. -/
theorem count_turn (h : Kept turns r) (c : Call) (id : PairId) :
    (turns ++ [r.turn c]).countP (·.removes id) + (if (r.call c).1.contains id then 1 else 0)
      = if id < (r.call c).1.pairs.length then 1 else 0 := by
  have kept := h.count_eq id
  have step := (move_call r c).balance id
  rw [List.countP_append, List.countP_singleton]
  change _ + (if Turn.removes (r.turn c) id = true then 1 else 0) + _ = _
  rw [Registry.turn]
  omega

/-- The token of a pair is cancelled by the call that removes the pair. -/
theorem isStopped_turn (h : Kept turns r) (c : Call) {m' : PairEntry}
    (hm' : (r.call c).1.pairs[id]? = some m') :
    m'.isStopped = true ↔ ∃ t ∈ turns ++ [r.turn c], t.removes id = true := by
  have move := move_call r c
  rw [exists_mem_concat]
  by_cases inside : id < r.pairs.length
  · have hm := List.getElem?_eq_getElem inside
    obtain ⟨m, found, -, stopped⟩ := move.entry_eq hm
    obtain rfl : m = m' := Option.some.inj (found.symm.trans hm')
    rw [stopped, Bool.or_eq_true, h.isStopped_iff hm]
    rfl
  · -- The entry is new: the call is a registration, and no turn removed the pair before.
    have outside := Nat.not_lt.mp inside
    have below := (List.getElem?_eq_some_iff.mp hm').1
    rw [move.length_eq] at below
    split at below
    · next fresh =>
      obtain rfl : id = r.pairs.length := Nat.le_antisymm (Nat.le_of_lt_succ below) outside
      rw [fresh] at move
      obtain ⟨-, root, rfl, -⟩ := move.register_of_answer
      obtain rfl : PairEntry.new root = m' := by simpa [call, register] using hm'
      have unremoved : (turn r (.register root)).removes r.pairs.length = false :=
        move.removes_of_reason?_eq_none rfl _
      have before : ∀ t ∈ turns, t.removes r.pairs.length = false :=
        fun _ ht ↦ h.removes_eq_false outside ht
      simp +contextual [PairEntry.new, unremoved, before]
    · exact absurd below inside

/-- A number is that of a pair once a registration has answered with it. -/
theorem registered_turn (h : Kept turns r) (c : Call) (id : PairId) :
    id < (r.call c).1.pairs.length ↔ ∃ t ∈ turns ++ [r.turn c], t.answer = .registered id := by
  have move := move_call r c
  rw [exists_mem_concat, ← h.registered_iff, move.length_eq]
  change _ ↔ _ ∨ (r.call c).2 = .registered id
  constructor
  · intro inside
    split at inside
    · next answered =>
      rcases Nat.lt_succ_iff_lt_or_eq.mp inside with before | rfl
      · exact .inl before
      · exact .inr answered
    · exact .inl inside
  · rintro (before | answered)
    · exact Nat.lt_add_right _ before
    · rw [answered] at move
      obtain rfl := move.register_of_answer.1
      simp [answered]

/-- A pair that was registered keeps the root that it was registered under. -/
theorem root_turn (h : Kept turns r) (c : Call) {root : RootId} (ht : t ∈ turns ++ [r.turn c])
    (asked : t.call = .register root) (answered : t.answer = .registered id) :
    ∃ m, (r.call c).1.pairs[id]? = some m ∧ m.root = root := by
  rcases List.mem_append.mp ht with ht | ht
  · obtain ⟨m, hm, hr⟩ := h.root_eq t ht id root asked answered
    obtain ⟨m', hm', hr', -⟩ := (move_call r c).entry_eq hm
    exact ⟨m', hm', hr'.trans hr⟩
  · obtain rfl := List.mem_singleton.mp ht
    obtain rfl : c = .register root := asked
    obtain rfl : r.pairs.length = id := by simpa [Registry.turn, call, register] using answered
    exact ⟨.new root, by simp [call, register], rfl⟩

/-- A pair whose handle was dropped is not there, whatever is asked after that. -/
theorem dropped_turn (h : Kept turns r) (c : Call) (ht : t ∈ turns ++ [r.turn c])
    (asked : t.call = .dropHandle id) (held : t.before.isHeld id = true) :
    id < (r.call c).1.pairs.length ∧ (r.call c).1.contains id = false := by
  rw [(move_call r c).length_eq]
  rcases List.mem_append.mp ht with ht | ht
  · obtain ⟨inside, gone⟩ := h.dropped t ht id asked held
    exact ⟨Nat.lt_add_right _ inside, contains_call_eq_false inside gone c⟩
  · obtain rfl := List.mem_singleton.mp ht
    obtain rfl : c = .dropHandle id := asked
    obtain ⟨m, hm, -⟩ : ∃ m, r.pairs[id]? = some m ∧ m.isHeld = true := by
      simpa [isHeld, Registry.turn, Option.any_eq_true] using held
    have inside := (List.getElem?_eq_some_iff.mp hm).1
    exact ⟨Nat.lt_add_right _ inside, contains_of_dropHandle held⟩

/-- The books are kept through a call. -/
theorem turn (h : Kept turns r) (c : Call) : Kept (turns ++ [r.turn c]) (r.call c).1 := by
  have move := move_call r c
  exact {
    registered_iff := h.registered_turn c
    root_eq := fun _ ht _ _ ↦ h.root_turn c ht
    count_eq := h.count_turn c
    isStopped_iff := h.isStopped_turn c
    roots_iff := fun root ↦ by
      rw [exists_mem_concat, ← h.roots_iff]
      exact move.mem_cancelledRoots root
    accepted_eq := move.accepted_eq h.accepted_eq
    tornDown_eq := by
      rw [move.tornDown_eq, h.tornDown_eq]
      simp [Registry.turn]
    teardowns_eq := fun reason ↦ by
      rw [move.total_teardowns_eq, h.teardowns_eq, List.filter_append, List.map_append,
        List.sum_append]
      congr 1
      by_cases under : c.reason? = some reason <;> simp [Registry.turn, under]
    teardowns_sum := by
      rw [move.tornDown_eq, ← h.teardowns_sum]
      simp only [move.total_teardowns_eq, List.sum_map_add, sum_teardowns]
      split
      · rfl
      · next unreasoned =>
        have nothing := Option.not_isSome_iff_eq_none.mp unreasoned
        rw [move.length_removed_of_reason?_eq_none nothing]
    gauge_eq := move.gauge_eq h.gauge_eq
    dropped := fun _ ht _ ↦ h.dropped_turn c ht }

/-- The books are kept through any calls. -/
theorem history (h : Kept turns r) (calls : List Call) :
    Kept (turns ++ r.history calls) (r.after calls) := by
  induction calls generalizing turns r with
  | nil =>
    rw [Registry.history, List.append_nil]
    exact h
  | cons c calls ih =>
    have rest := ih (h.turn c)
    rwa [List.append_assoc] at rest

end Kept

/-- Whatever is asked of a new registry, in whatever order, its books agree with what happened. -/
theorem accounted (calls : List Call) :
    Accounted (new.history calls) (new.after calls) := by
  have kept : Kept (new.history calls) (new.after calls) := kept_new.history calls
  have inside : ∀ t ∈ new.history calls, ∀ id, t.answer = .registered id →
      id < (new.after calls).pairs.length :=
    fun t ht id answered ↦ (kept.registered_iff id).mpr ⟨t, ht, answered⟩
  exact {
    accepted_eq := kept.accepted_eq
    removed_once := fun t ht id answered ↦ by
      have counted := kept.count_eq id
      rw [if_pos (inside t ht id answered)] at counted
      cases there : (new.after calls).contains id <;> simp [there] at counted ⊢ <;> exact counted
    gone_of_removes := fun t ht id removed ↦ by
      have counted := kept.count_eq id
      have once : 0 < (new.history calls).countP (·.removes id) :=
        List.countP_pos_iff.mpr ⟨t, ht, removed⟩
      apply Bool.eq_false_iff.mpr
      intro there
      rw [if_pos there] at counted
      split at counted <;> omega
    tornDown_eq := kept.tornDown_eq
    teardowns_eq := kept.teardowns_eq
    teardowns_sum := kept.teardowns_sum
    isCancelled_iff := fun t ht id root asked answered ↦ by
      obtain ⟨m, hm, rfl⟩ := kept.root_eq t ht id root asked answered
      refine ⟨m, hm, ?_⟩
      rw [isCancelled, Bool.or_eq_true, kept.isStopped_iff hm, List.contains_iff_mem,
        kept.roots_iff]
    gauge_eq := fun n shown ↦ by
      rw [kept.gauge_eq] at shown
      split at shown
      · cases shown
      · exact (Option.some.inj shown).symm
    gauge_isSome := fun t ht id answered ↦ by
      have some_pair : (new.after calls).pairs ≠ [] :=
        List.ne_nil_of_length_pos (Nat.zero_lt_of_lt (inside t ht id answered))
      rw [kept.gauge_eq, if_neg some_pair]
      rfl
    empty_of_dropped := fun all_dropped ↦ by
      apply active_eq_zero_iff.mpr
      intro id
      apply Bool.eq_false_iff.mpr
      intro there
      obtain ⟨t, ht, answered⟩ := (kept.registered_iff id).mp (lt_of_contains there)
      obtain ⟨t', ht', asked, held⟩ := all_dropped t ht id answered
      rw [(kept.dropped t' ht' id asked held).2] at there
      cases there
    removed_answer := fun t ht id removed subject answered ↦ by
      obtain ⟨r, c, rfl⟩ := turn_of_mem_history ht
      exact turn_removed subject answered
    all_answer := fun t ht reason asked ↦ by
      obtain ⟨r, c, rfl⟩ := turn_of_mem_history ht
      exact turn_all asked
    others_same := fun t ht id other subject differ ↦ by
      obtain ⟨r, c, rfl⟩ := turn_of_mem_history ht
      obtain ⟨same, roots⟩ := turn_others subject differ
      refine ⟨same, fun m ↦ ?_⟩
      rw [isCancelled, isCancelled, roots]
      rfl }

end Registry

end Quoteboard.Relay
