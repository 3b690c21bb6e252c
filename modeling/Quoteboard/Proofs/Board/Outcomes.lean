import Mathlib.Algebra.BigOperators.Group.Finset.Basic
import Quoteboard.Proofs.Board.Retention

/-!
# What the outcome of a snapshot says

Ingesting a snapshot answers with a few numbers. They are counted up while the quotes are added one
by one, each to a state that those before it have changed; yet they are what can be read off the
snapshot and the state before it: how often each instrument is quoted, which of them are new, and
by how much each series would outgrow the window.
-/

namespace Quoteboard.Board

open Quoteboard.Market

/-- The instruments that snapshots quote. -/
def instrumentsOf (ss : List Snapshot) : Finset Identifier :=
  ((ss.flatMap (·.quotes)).map (·.instrument)).toFinset

namespace Aggregator

/-- The outcome of one more snapshot after others accounts for all that has changed. -/
structure Accounts (ss : List Snapshot) (a : Aggregator) (s : Snapshot) (a' : Aggregator)
    (outcome : Outcome) : Prop where
  samplesAppended_eq : outcome.samplesAppended = s.quotes.length
  /-- The instruments that the snapshot quotes and those before it do not are new, each once. -/
  newInstruments_eq : outcome.newInstruments = (instrumentsOf [s] \ instrumentsOf ss).card
  length_instruments : a'.instruments.length = a.instruments.length + outcome.newInstruments
  /-- Of each instrument those samples are evicted that the window has no room for. -/
  samplesEvicted_eq : outcome.samplesEvicted =
    ∑ k ∈ instrumentsOf (ss ++ [s]),
      ((a.samples k).length + s.quotes.countP (·.instrument = k) - a.window)
  retained_eq : a'.retained + outcome.samplesEvicted = a.retained + outcome.samplesAppended
  positionsReplaced_iff : outcome.positionsReplaced = true ↔ ∃ ps, s.positions = some ps
  positions_eq : a'.positions = s.positions.getD a.positions
  version_eq : outcome.version = a.version + 1
  version_after : a'.version = outcome.version
  /-- The series of an instrument that the snapshot does not quote stays as it is. -/
  series_eq : ∀ k, (∀ q ∈ s.quotes, q.instrument ≠ k) → a'.series.get? k = a.series.get? k

end Aggregator

variable {a : Aggregator} {window : Nat} {seen : Identifier → List Sample}

theorem length_lastOf {α : Type} (n : Nat) (xs : List α) :
    (lastOf n xs).length = min n xs.length := by
  rw [lastOf, List.length_drop]
  omega

/-! ### Instruments -/

theorem mem_instrumentsOf_iff (ss : List Snapshot) (k : Identifier) :
    k ∈ instrumentsOf ss ↔ ∃ s ∈ ss, ∃ q ∈ s.quotes, q.instrument = k := by
  simp only [instrumentsOf, List.mem_toFinset, List.mem_map, List.mem_flatMap]
  constructor
  · rintro ⟨q, ⟨s, hs, hq⟩, rfl⟩
    exact ⟨s, hs, q, hq, rfl⟩
  · rintro ⟨s, hs, q, hq, rfl⟩
    exact ⟨q, ⟨s, hs, hq⟩, rfl⟩

theorem instrumentsOf_append (ss ss' : List Snapshot) :
    instrumentsOf (ss ++ ss') = instrumentsOf ss ∪ instrumentsOf ss' := by
  simp [instrumentsOf]

namespace Aggregator

theorem ingestAll_concat (a : Aggregator) (ss : List Snapshot) (s : Snapshot) :
    a.ingestAll (ss ++ [s]) = ((a.ingestAll ss).ingest s).1 := by
  simp [ingestAll]

/-- An aggregator has each instrument once. -/
theorem nodup_instruments (a : Aggregator) : a.instruments.Nodup := a.series.nodup_keys

/-- The instruments of an aggregator are those that were quoted. -/
theorem toFinset_instruments (window : Nat) (ss : List Snapshot) :
    ((new window).ingestAll ss).instruments.toFinset = instrumentsOf ss := by
  ext k
  rw [List.mem_toFinset, (refines_ingestAll_new window ss).mem_instruments_iff,
    mem_instrumentsOf_iff]

/-- So it has as many. -/
theorem length_instruments_eq (window : Nat) (ss : List Snapshot) :
    ((new window).ingestAll ss).instruments.length = (instrumentsOf ss).card := by
  rw [← toFinset_instruments window ss, List.toFinset_card_of_nodup (nodup_instruments _)]

/-- A quote makes a series if there is none, and counts it. -/
theorem Progress.size_add (p : Progress) (window : Nat) (time : Float) (q : Quote) :
    (p.add window time q).series.keys.length + p.added =
      p.series.keys.length + (p.add window time q).added := by
  have entries := p.series.sum_insert (fun _ ↦ 1) q.instrument
    (((p.series.get? q.instrument).getD (.empty window)).push ⟨time, q.bestBid, q.bestAsk⟩)
  have size (t : Table Identifier TimeSeries) : t.keys.length = t.sum fun _ ↦ 1 := by
    simp [Table.keys, Table.sum]
  rw [size, size]
  simp only [add]
  cases known : p.series.get? q.instrument with
  | none =>
    simp only [known, Option.map_none, Option.getD_none] at entries
    simp only [Option.isNone_none, if_true, Option.getD_none]
    omega
  | some series =>
    simp only [known, Option.map_some, Option.getD_some] at entries
    simp only [Option.isNone_some, Bool.false_eq_true, if_false, Option.getD_some]
    omega

/-- So do quotes one after another. -/
theorem Progress.size_foldl (p : Progress) (window : Nat) (time : Float) (qs : List Quote) :
    (qs.foldl (add window time) p).series.keys.length + p.added =
      p.series.keys.length + (qs.foldl (add window time) p).added := by
  induction qs generalizing p with
  | nil => rfl
  | cons q qs ih =>
    have one := p.size_add window time q
    have rest := ih (p.add window time q)
    rw [List.foldl_cons]
    omega

/-- The instruments that a snapshot adds are counted. -/
theorem length_instruments_ingest (a : Aggregator) (s : Snapshot) :
    (a.ingest s).1.instruments.length = a.instruments.length + (a.ingest s).2.newInstruments :=
  Progress.size_foldl ⟨a.series, 0, 0, 0⟩ a.window (displayTime s.timestamp) s.quotes

/-- The instruments that a snapshot adds are those that it quotes first. -/
theorem newInstruments_ingest (window : Nat) (ss : List Snapshot) (s : Snapshot) :
    (((new window).ingestAll ss).ingest s).2.newInstruments =
      (instrumentsOf [s] \ instrumentsOf ss).card := by
  have grown := ((new window).ingestAll ss).length_instruments_ingest s
  have union := Finset.card_sdiff_add_card (instrumentsOf [s]) (instrumentsOf ss)
  rw [← ingestAll_concat, length_instruments_eq, length_instruments_eq, instrumentsOf_append,
    Finset.union_comm] at grown
  omega

/-! ### Series -/

/-- Quotes of other instruments leave a series as it is. -/
theorem Progress.get?_foldl (p : Progress) (window : Nat) (time : Float) {qs : List Quote}
    {k : Identifier} (others : ∀ q ∈ qs, q.instrument ≠ k) :
    (qs.foldl (add window time) p).series.get? k = p.series.get? k := by
  induction qs generalizing p with
  | nil => rfl
  | cons q qs ih =>
    obtain ⟨other, others⟩ := List.forall_mem_cons.mp others
    rw [List.foldl_cons, ih _ others, get?_add_of_ne p window time other.symm]

/-- A series grows by its quotes until it fills the window. -/
theorem length_samples_ingest (h : Keeps a.window a.series seen) (s : Snapshot) (k : Identifier) :
    ((a.ingest s).1.samples k).length =
      min a.window ((a.samples k).length + s.quotes.countP (·.instrument = k)) := by
  rw [(h.ingest s).samples_eq a.window_pos, h.samples_eq a.window_pos]
  simp only [length_lastOf, samplesOf, List.length_append, List.length_map,
    ← List.countP_eq_length_filter]
  omega

/-- What is kept, added up over instruments that include all that are known. -/
theorem retained_eq_sum {K : Finset Identifier} (known : a.instruments.toFinset ⊆ K) :
    a.retained = ∑ k ∈ K, (a.samples k).length := by
  rw [retained, ← List.sum_toFinset _ a.nodup_instruments]
  refine Finset.sum_subset known fun k _ absent ↦ ?_
  rw [List.mem_toFinset, instruments, Table.mem_keys_iff, Option.isSome_iff_ne_none,
    not_not] at absent
  simp [samples, absent]

/-- Quotes, added up over instruments that include all of theirs. -/
theorem sum_countP {K : Finset Identifier} {qs : List Quote}
    (known : ∀ q ∈ qs, q.instrument ∈ K) :
    ∑ k ∈ K, qs.countP (·.instrument = k) = qs.length := by
  have total := Multiset.sum_count_eq_card (s := K) (m := (qs.map (·.instrument) : List Identifier))
    (by simpa using known)
  simpa [List.count_eq_countP, List.countP_map, Function.comp_def, beq_eq_decide] using total

/-- What a snapshot evicts is what the window has no room for, added up over instruments that
include all that are known afterwards. -/
theorem samplesEvicted_ingest (h : Keeps a.window a.series seen) (s : Snapshot)
    {K : Finset Identifier} (before : a.instruments.toFinset ⊆ K)
    (after : (a.ingest s).1.instruments.toFinset ⊆ K) (named : ∀ q ∈ s.quotes, q.instrument ∈ K) :
    (a.ingest s).2.samplesEvicted =
      ∑ k ∈ K, ((a.samples k).length + s.quotes.countP (·.instrument = k) - a.window) := by
  have balance := a.retained_ingest s
  rw [retained_eq_sum before, retained_eq_sum after, ← sum_countP named,
    ← Finset.sum_add_distrib] at balance
  -- Each series is cut to the window, and what is cut off is evicted.
  have cut (k : Identifier) : (a.samples k).length + s.quotes.countP (·.instrument = k) =
      ((a.ingest s).1.samples k).length +
        ((a.samples k).length + s.quotes.countP (·.instrument = k) - a.window) := by
    rw [length_samples_ingest h s k]
    omega
  rw [Finset.sum_congr rfl fun k _ ↦ cut k, Finset.sum_add_distrib] at balance
  omega

/-- Snapshots do not change the window. -/
theorem window_ingestAll (a : Aggregator) (ss : List Snapshot) :
    (a.ingestAll ss).window = a.window := by
  induction ss generalizing a with
  | nil => rfl
  | cons s ss ih => exact (ih (a.ingest s).1).trans (window_ingest a s)

/-! ### All of it -/

/-- The outcome accounts for what one more snapshot changes. -/
theorem accounts_ingest (window : Nat) (ss : List Snapshot) (s : Snapshot) :
    Accounts ss ((new window).ingestAll ss) s (((new window).ingestAll ss).ingest s).1
      (((new window).ingestAll ss).ingest s).2 := by
  constructor
  · exact samplesAppended_ingest _ s
  · exact newInstruments_ingest window ss s
  · exact length_instruments_ingest _ s
  · have keeps := (keeps_new window).ingestAll (a := new window) ss
    rw [← window_ingestAll (new window) ss] at keeps
    refine samplesEvicted_ingest keeps s ?_ ?_ ?_
    · rw [toFinset_instruments, instrumentsOf_append]
      exact Finset.subset_union_left
    · rw [← ingestAll_concat, toFinset_instruments]
    · intro q hq
      exact (mem_instrumentsOf_iff _ _).mpr ⟨s, by simp, q, hq, rfl⟩
  · rw [retained_ingest, samplesAppended_ingest]
  · exact Option.isSome_iff_exists
  · rfl
  · rfl
  · rfl
  · intro k others
    exact Progress.get?_foldl ⟨_, 0, 0, 0⟩ _ _ others

/-- One more snapshot is taken in after the others. -/
theorem ingestAll?_concat (a : Aggregator) (ss : List Snapshot) (s : Snapshot) :
    a.ingestAll? (ss ++ [s]) = ((a.ingestAll? ss).bind (·.ingest? s)).map (·.1) := by
  induction ss generalizing a with
  | nil =>
    rw [List.nil_append, ingestAll?, ingestAll?, Option.bind_some]
    cases a.ingest? s <;> rfl
  | cons first ss ih =>
    rw [List.cons_append, ingestAll?, ingestAll?]
    cases a.ingest? first with
    | none => rfl
    | some r => exact ih r.1

/-- A new aggregator takes in snapshots and then one more if storage for its window can be reserved,
and otherwise fails at the first quote. Whenever it does not fail, the outcome of the last snapshot
accounts for what it has changed. -/
theorem accounts_for_ingest (window : Nat) (ss : List Snapshot) (s : Snapshot) :
    ((new window).ingestAll? ss).bind (·.ingest? s) =
        (if isReservable (max window 1) || (ss ++ [s]).all (·.quotes.isEmpty) then
          some (((new window).ingestAll ss).ingest s)
        else none) ∧
      Accounts ss ((new window).ingestAll ss) s (((new window).ingestAll ss).ingest s).1
        (((new window).ingestAll ss).ingest s).2 := by
  refine ⟨?_, accounts_ingest window ss s⟩
  cases h : isReservable (max window 1) with
  | true =>
    have room : ((new window).ingestAll ss).canHold s = true := by
      simp [canHold, window_ingestAll, new, h]
    rw [ingestAll?_of_isReservable (a := new window) h, Option.bind_some, ingest?, if_pos room]
    rfl
  | false =>
    have others := ingestAll?_of_not_isReservable (a := new window) h rfl ss
    have whole := ingestAll?_of_not_isReservable (a := new window) h rfl (ss ++ [s])
    rw [ingestAll?_concat, others] at whole
    rw [others, Bool.false_or]
    cases silent : ss.all (·.quotes.isEmpty) with
    | false => simp [silent]
    | true =>
      rw [silent, if_pos rfl, Option.bind_some, ingest?] at whole
      have room : ((new window).ingestAll ss).canHold s = (ss ++ [s]).all (·.quotes.isEmpty) := by
        revert whole
        generalize ((new window).ingestAll ss).canHold s = room
        generalize (ss ++ [s]).all (·.quotes.isEmpty) = quiet
        cases room <;> cases quiet <;> simp
      rw [if_pos rfl, Option.bind_some, ingest?, room]

/-- Of an instrument that is quoted three times, one sample too many is evicted. -/
example : (((new 2).ingestAll [⟨1, [⟨.id 1, 2.0, 3.0⟩], none⟩]).ingest
      ⟨2, [⟨.id 7, 4.0, 5.0⟩, ⟨.id 1, 4.0, 5.0⟩, ⟨.id 7, 4.0, 6.0⟩, ⟨.id 7, 5.0, 6.0⟩],
        some []⟩).2 = ⟨2, 4, 1, 1, true⟩ := rfl

/-- With a window of half the address space there is no outcome of the first quote that could
account for anything. -/
theorem not_accounts_of_huge_window :
    ¬ ∃ r, ((new 0x8000000000000000).ingestAll? []).bind
          (·.ingest? ⟨1, [⟨.id 1, 2.0, 3.0⟩], none⟩) = some r ∧
        Accounts [] (new 0x8000000000000000) ⟨1, [⟨.id 1, 2.0, 3.0⟩], none⟩ r.1 r.2 := by
  rintro ⟨r, h, -⟩
  have fails : ((new 0x8000000000000000).ingestAll? []).bind
      (·.ingest? ⟨1, [⟨.id 1, 2.0, 3.0⟩], none⟩) = none := rfl
  exact nomatch fails.symm.trans h

end Aggregator

end Quoteboard.Board
