import Quoteboard.Board.Aggregator

/-!
# What an aggregator keeps of its history

An aggregator forgets all but the last samples of each instrument, and all but the latest
positions. What it answers is nevertheless a function of the whole history: the snapshots in the
order in which they came, and in each of them the quotes in their order.
-/

namespace Quoteboard.Board

open Quoteboard.Market

/-- The samples of an instrument that quotes give rise to at a moment, in order. -/
def samplesOf (time : Float) (k : Identifier) (qs : List Quote) : List Sample :=
  (qs.filter (·.instrument = k)).map fun q ↦ ⟨time, q.bestBid, q.bestAsk⟩

/-- All samples of an instrument that snapshots have brought, the oldest first. -/
def history (k : Identifier) (ss : List Snapshot) : List Sample :=
  ss.flatMap fun s ↦ samplesOf (displayTime s.timestamp) k s.quotes

/-- The positions of the last snapshot that carried some, which may be none at all. -/
def latestPositions (ss : List Snapshot) : List Position :=
  (ss.filterMap (·.positions)).getLast?.getD []

/-- An aggregator answers for the last samples that fit in its window, for the instruments in
increasing order, for the latest positions and for the number of snapshots. -/
structure Aggregator.Refines (a : Aggregator) (window : Nat) (ss : List Snapshot) : Prop where
  samples_eq : ∀ k, a.samples k = lastOf (max window 1) (history k ss)
  pairwise_instruments : a.instruments.Pairwise fun j k ↦ compare j k = .lt
  mem_instruments_iff : ∀ k, k ∈ a.instruments ↔ ∃ s ∈ ss, ∃ q ∈ s.quotes, q.instrument = k
  positions_eq : a.positions = latestPositions ss
  positionsFor_eq : ∀ k, a.positionsFor k = (latestPositions ss).filter (·.instrument = k)
  version_eq : a.version = ss.length

/-- Take in snapshots one after another, unless storage for a new series cannot be reserved on the
way. -/
def Aggregator.ingestAll? (a : Aggregator) : List Snapshot → Option Aggregator
  | [] => some a
  | s :: ss => (a.ingest? s).bind fun r ↦ r.1.ingestAll? ss

/-- A table has, for each instrument of which something was seen, the last of that. -/
structure Keeps (window : Nat) (t : Table Identifier TimeSeries)
    (seen : Identifier → List Sample) : Prop where
  isSome_iff : ∀ k, (t.get? k).isSome = true ↔ seen k ≠ []
  capacity_eq : ∀ k s, t.get? k = some s → s.capacity = window
  toList_eq : ∀ k s, t.get? k = some s → s.toList = lastOf window (seen k)

variable {window : Nat} {time : Float} {a : Aggregator} {t : Table Identifier TimeSeries}
  {seen : Identifier → List Sample} {k : Identifier}

/-- What was forgotten before is not missed when more is forgotten. -/
theorem lastOf_append_lastOf {α : Type} (n : Nat) (xs ys : List α) :
    lastOf n (lastOf n xs ++ ys) = lastOf n (xs ++ ys) := by
  have hle : xs.length - n ≤ xs.length := Nat.sub_le _ _
  simp only [lastOf]
  rw [← List.drop_append_of_le_length hle, List.drop_drop]
  congr 1
  simp only [List.length_drop, List.length_append]
  omega

@[simp] theorem lastOf_nil {α : Type} (n : Nat) : lastOf n ([] : List α) = [] :=
  List.drop_nil

theorem samplesOf_cons (q : Quote) (qs : List Quote) :
    samplesOf time k (q :: qs) = samplesOf time k [q] ++ samplesOf time k qs := by
  simp only [samplesOf, List.filter_cons, List.filter_nil]
  split <;> simp

/-- Nothing of an instrument is in quotes exactly if none of them is of it. -/
theorem samplesOf_eq_nil_iff (qs : List Quote) :
    samplesOf time k qs = [] ↔ ∀ q ∈ qs, q.instrument ≠ k := by
  simp [samplesOf]

/-- An instrument has a history exactly if it was quoted. -/
theorem history_ne_nil_iff (ss : List Snapshot) :
    history k ss ≠ [] ↔ ∃ s ∈ ss, ∃ q ∈ s.quotes, q.instrument = k := by
  simp [history, samplesOf_eq_nil_iff]

/-! ### Series -/

/-- A quote is pushed to the series of its instrument. -/
theorem get?_add_self (p : Aggregator.Progress) (window : Nat) (time : Float) (q : Quote) :
    (p.add window time q).series.get? q.instrument =
      some (((p.series.get? q.instrument).getD (.empty window)).push
        ⟨time, q.bestBid, q.bestAsk⟩) :=
  Table.get?_insert_self _ _ _

/-- The other series stay as they are. -/
theorem get?_add_of_ne (p : Aggregator.Progress) (window : Nat) (time : Float) {q : Quote}
    (h : k ≠ q.instrument) : (p.add window time q).series.get? k = p.series.get? k :=
  Table.get?_insert_of_ne _ _ h

namespace Keeps

/-- The series that a quote is added to, new or not, has the last of what was seen. -/
theorem getD (h : Keeps window t seen) (hw : 0 < window) (k : Identifier) :
    ((t.get? k).getD (.empty window)).capacity = window ∧
      ((t.get? k).getD (.empty window)).toList = lastOf window (seen k) := by
  cases hk : t.get? k with
  | none =>
    have hs : seen k = [] := by
      have := h.isSome_iff k
      simpa [hk] using this
    exact ⟨Nat.max_eq_left hw, by simp [hs]⟩
  | some s => exact ⟨h.capacity_eq k s hk, h.toList_eq k s hk⟩

/-- Adding a quote adds to what was seen of its instrument. -/
theorem add {p : Aggregator.Progress} (h : Keeps window p.series seen) (hw : 0 < window)
    (time : Float) (q : Quote) :
    Keeps window (p.add window time q).series fun k ↦ seen k ++ samplesOf time k [q] := by
  obtain ⟨capacity, kept⟩ := h.getD hw q.instrument
  constructor
  · intro k
    by_cases hk : k = q.instrument
    · subst hk
      simp [get?_add_self, samplesOf]
    · rw [get?_add_of_ne p window time hk, h.isSome_iff]
      simp [samplesOf, Ne.symm hk]
  · intro k s hs
    by_cases hk : k = q.instrument
    · subst hk
      rw [get?_add_self] at hs
      cases hs
      exact capacity
    · rw [get?_add_of_ne p window time hk] at hs
      exact h.capacity_eq k s hs
  · intro k s hs
    by_cases hk : k = q.instrument
    · subst hk
      rw [get?_add_self] at hs
      cases hs
      rw [TimeSeries.toList_push, capacity, kept, lastOf_append_lastOf]
      simp [samplesOf]
    · rw [get?_add_of_ne p window time hk] at hs
      rw [h.toList_eq k s hs]
      simp [samplesOf, Ne.symm hk]

/-- So does adding quotes one after another. -/
theorem foldl {p : Aggregator.Progress} (h : Keeps window p.series seen) (hw : 0 < window)
    (time : Float) (qs : List Quote) :
    Keeps window (qs.foldl (Aggregator.Progress.add window time) p).series
      fun k ↦ seen k ++ samplesOf time k qs := by
  induction qs generalizing p seen with
  | nil => simpa [samplesOf] using h
  | cons q qs ih =>
    have rest := ih (h.add hw time q)
    simpa [samplesOf_cons q qs] using rest

/-- A snapshot adds its quotes. -/
theorem ingest (h : Keeps a.window a.series seen) (s : Snapshot) :
    Keeps a.window (a.ingest s).1.series
      fun k ↦ seen k ++ samplesOf (displayTime s.timestamp) k s.quotes :=
  foldl (p := ⟨a.series, 0, 0, 0⟩) h a.window_pos _ _

/-- Snapshots add their quotes one after another. -/
theorem ingestAll (h : Keeps a.window a.series seen) (ss : List Snapshot) :
    Keeps a.window (a.ingestAll ss).series fun k ↦ seen k ++ history k ss := by
  induction ss generalizing a seen with
  | nil => simpa [history, Aggregator.ingestAll] using h
  | cons s ss ih =>
    have one := h.ingest s
    have rest := ih (a := (a.ingest s).1) one
    simpa [history, Aggregator.ingestAll, Aggregator.window_ingest] using rest

/-- The samples of a series are the last of what was seen of its instrument. -/
theorem samples_eq (h : Keeps window a.series seen) (hw : 0 < window) (k : Identifier) :
    a.samples k = lastOf window (seen k) := by
  rw [← (h.getD hw k).2]
  simp only [Aggregator.samples]
  cases a.series.get? k <;> rfl

/-- The instruments are those of which something was seen. -/
theorem mem_instruments_iff (h : Keeps window a.series seen) (k : Identifier) :
    k ∈ a.instruments ↔ seen k ≠ [] := by
  rw [Aggregator.instruments, Table.mem_keys_iff, h.isSome_iff]

end Keeps

namespace Aggregator

/-- A new aggregator has seen nothing. -/
theorem keeps_new (window : Nat) : Keeps (max window 1) (new window).series fun _ ↦ [] :=
  ⟨by simp [new], by simp [new], by simp [new]⟩

/-! ### Positions and versions -/

/-- The positions are the latest that a snapshot carried, the old ones if none did. -/
theorem positions_ingestAll (a : Aggregator) (ss : List Snapshot) :
    (a.ingestAll ss).positions = (ss.filterMap (·.positions)).getLast?.getD a.positions := by
  induction ss generalizing a with
  | nil => rfl
  | cons s ss ih =>
    have step : (a.ingestAll (s :: ss)).positions = ((a.ingest s).1.ingestAll ss).positions := rfl
    rw [step, ih]
    cases hp : s.positions with
    | none => simp [ingest, hp]
    | some ps => simp [ingest, hp, List.getLast?_cons]

/-- Each snapshot counts. -/
theorem version_ingestAll (a : Aggregator) (ss : List Snapshot) :
    (a.ingestAll ss).version = a.version + ss.length := by
  induction ss generalizing a with
  | nil => rfl
  | cons s ss ih =>
    have step : (a.ingestAll (s :: ss)).version = ((a.ingest s).1.ingestAll ss).version := rfl
    rw [step, ih, version_ingest, List.length_cons]
    omega

/-- What was taken in without regard to storage refines the history. -/
theorem refines_ingestAll_new (window : Nat) (ss : List Snapshot) :
    ((new window).ingestAll ss).Refines window ss := by
  have h := (keeps_new window).ingestAll (a := new window) ss
  have hp := positions_ingestAll (new window) ss
  constructor
  · exact h.samples_eq (new window).window_pos
  · exact Table.pairwise_keys _
  · intro k
    rw [h.mem_instruments_iff, ← history_ne_nil_iff, List.nil_append]
  · exact hp
  · intro k
    rw [positionsFor, heldIn, hp]
    rfl
  · rw [version_ingestAll]
    exact Nat.zero_add _

/-! ### Storage -/

/-- Whatever storage is called for can be reserved if it can be for one series. -/
theorem ingestAll?_of_isReservable (h : isReservable a.window = true) (ss : List Snapshot) :
    a.ingestAll? ss = some (a.ingestAll ss) := by
  induction ss generalizing a with
  | nil => rfl
  | cons s ss ih =>
    have room : a.canHold s = true := by simp [canHold, h]
    rw [ingestAll?, ingest?, if_pos room, Option.bind_some]
    exact ih (a := (a.ingest s).1) h

/-- If it cannot be, an aggregator without series fails at the first quote. -/
theorem ingestAll?_of_not_isReservable (h : isReservable a.window = false)
    (hs : a.series = .empty) (ss : List Snapshot) :
    a.ingestAll? ss =
      if ss.all (·.quotes.isEmpty) then some (a.ingestAll ss) else none := by
  induction ss generalizing a with
  | nil => rfl
  | cons s ss ih =>
    rw [ingestAll?, ingest?]
    cases hq : s.quotes with
    | nil =>
      have room : a.canHold s = true := by simp [canHold, hq]
      have series : (a.ingest s).1.series = .empty := by simp [ingest, hq, hs]
      rw [if_pos room, Option.bind_some, ih (a := (a.ingest s).1) h series]
      simp [hq, ingestAll]
    | cons q qs =>
      have full : a.canHold s = false := by simp [canHold, h, hq, hs, Table.contains]
      simp [full, hq]

/-- A new aggregator takes in any snapshots if storage for its window can be reserved, and
otherwise fails at the first quote. Whenever it does not fail, it refines the history. -/
theorem refines_history (window : Nat) (ss : List Snapshot) :
    (new window).ingestAll? ss =
        (if isReservable (max window 1) || ss.all (·.quotes.isEmpty) then
          some ((new window).ingestAll ss)
        else none) ∧
      ((new window).ingestAll ss).Refines window ss := by
  refine ⟨?_, refines_ingestAll_new window ss⟩
  cases h : isReservable (max window 1) with
  | true => simpa using ingestAll?_of_isReservable (a := new window) h ss
  | false => simpa using ingestAll?_of_not_isReservable (a := new window) h rfl ss

/-- An aggregator that is asked to keep no samples keeps the last one. -/
example : ((new 0).ingestAll
      [⟨1, [⟨.id 1, 2.0, 3.0⟩, ⟨.name "x", 1.0, 2.0⟩, ⟨.id 1, 4.0, 5.0⟩], none⟩]).samples (.id 1) =
    [⟨displayTime 1, 4.0, 5.0⟩] := rfl

/-- With a window of half the address space the first quote fails, so nothing is refined. -/
theorem not_refines_history_of_huge_window :
    ¬ ∃ a, (new 0x8000000000000000).ingestAll? [⟨1, [⟨.id 1, 2.0, 3.0⟩], none⟩] = some a ∧
      a.Refines 0x8000000000000000 [⟨1, [⟨.id 1, 2.0, 3.0⟩], none⟩] := by
  rintro ⟨a, h, -⟩
  have fails : (new 0x8000000000000000).ingestAll? [⟨1, [⟨.id 1, 2.0, 3.0⟩], none⟩] = none := rfl
  exact nomatch fails.symm.trans h

end Aggregator

end Quoteboard.Board
