import Mathlib.Algebra.BigOperators.Group.List.Basic
import Mathlib.Algebra.GroupWithZero.Nat
import Quoteboard.Proofs.Board.History

/-!
# Samples are kept or evicted

Every quote makes one sample, and a sample leaves the aggregator only when it is evicted: what was
appended so far is what was evicted and what is kept, over all instruments.
-/

namespace Quoteboard

/-! ### Sums over a table -/

namespace Table

variable {κ ν : Type} [Ord κ]

/-- The sum of what the values of a table weigh. -/
def sum (weight : ν → Nat) (t : Table κ ν) : Nat := (t.toList.map fun e ↦ weight e.2).sum

variable [Std.TransOrd κ] [Std.LawfulEqOrd κ]

/-- A value that is set takes the place of the old one, if there is one. -/
theorem sum_insert (weight : ν → Nat) (t : Table κ ν) (k : κ) (v : ν) :
    (t.insert k v).sum weight + ((t.get? k).map weight).getD 0 = t.sum weight + weight v := by
  obtain ⟨entries, sorted⟩ := t
  simp only [sum, insert, get?]
  induction entries with
  | nil => simp [insertEntry]
  | cons e entries ih =>
    obtain ⟨below, sorted⟩ := List.pairwise_cons.mp sorted
    rw [insertEntry]
    split
    · next less =>
      -- The keys from here on are greater, so there is no old value.
      have absent : (e :: entries).find? (fun e ↦ compare k e.1 == .eq) = none := by
        refine List.find?_eq_none.mpr fun e' he' ↦ ?_
        have greater : compare k e'.1 = .lt := by
          rcases List.mem_cons.mp he' with rfl | he'
          · exact less
          · exact Std.TransCmp.lt_trans less (below e' he')
        simp [greater]
      rw [absent]
      simp [Nat.add_comm]
    · next same =>
      rw [List.find?_cons_of_pos (by simp [same])]
      simp only [List.map_cons, List.sum_cons, Option.map_some, Option.getD_some]
      omega
    · next greater =>
      have others := ih sorted
      rw [List.find?_cons_of_neg (by simp [greater])]
      simp only [List.map_cons, List.sum_cons] at others ⊢
      omega

end Table

namespace Board

open Quoteboard.Market

/-! ### What is kept -/

/-- How many samples are kept, over all instruments. -/
def Aggregator.retained (a : Aggregator) : Nat :=
  (a.instruments.map fun k ↦ (a.samples k).length).sum

/-- What is kept is the sum of the sizes of the series. -/
theorem Aggregator.retained_eq (a : Aggregator) : a.retained = a.series.sum TimeSeries.size := by
  rw [retained, instruments, Table.keys, Table.sum, List.map_map]
  congr 1
  refine List.map_congr_left fun e he ↦ ?_
  have found : a.series.get? e.1 = some e.2 := (a.series.mem_toList_iff e.1 e.2).mp he
  simp [samples, found, TimeSeries.size]

/-- A sample evicts one from a full series, and no other. -/
theorem TimeSeries.size_push (s : TimeSeries) (sample : Sample) :
    (s.push sample).size + (if s.isFull then 1 else 0) = s.size + 1 := by
  cases full : s.isFull with
  | true => rw [size_push_of_full full, if_pos rfl]
  | false => simp [size, toList_push_of_not_full full]

/-- A quote makes one sample, which is kept, and evicts one at most. -/
theorem Aggregator.Progress.sum_add (p : Progress) (window : Nat) (time : Float) (q : Quote) :
    (p.add window time q).series.sum TimeSeries.size + (p.add window time q).evicted =
      p.series.sum TimeSeries.size + p.evicted + 1 := by
  have kept := p.series.sum_insert TimeSeries.size q.instrument
    (((p.series.get? q.instrument).getD (.empty window)).push ⟨time, q.bestBid, q.bestAsk⟩)
  have grown := (((p.series.get? q.instrument).getD (.empty window))).size_push
    ⟨time, q.bestBid, q.bestAsk⟩
  have size : ((p.series.get? q.instrument).getD (.empty window)).size =
      ((p.series.get? q.instrument).map TimeSeries.size).getD 0 := by
    cases p.series.get? q.instrument <;> rfl
  simp only [add]
  omega

/-- Quotes make one sample each. -/
theorem Aggregator.Progress.sum_foldl (p : Progress) (window : Nat) (time : Float)
    (qs : List Quote) :
    (qs.foldl (add window time) p).series.sum TimeSeries.size +
        (qs.foldl (add window time) p).evicted =
      p.series.sum TimeSeries.size + p.evicted + qs.length ∧
    (qs.foldl (add window time) p).appended = p.appended + qs.length := by
  induction qs generalizing p with
  | nil => exact ⟨rfl, rfl⟩
  | cons q qs ih =>
    have one := p.sum_add window time q
    obtain ⟨kept, appended⟩ := ih (p.add window time q)
    have counted : (p.add window time q).appended = p.appended + 1 := rfl
    rw [List.foldl_cons, List.length_cons, kept, appended]
    omega

/-- Of a snapshot every quote is appended. -/
theorem Aggregator.samplesAppended_ingest (a : Aggregator) (s : Snapshot) :
    (a.ingest s).2.samplesAppended = s.quotes.length := by
  have counted := (Progress.sum_foldl ⟨a.series, 0, 0, 0⟩ a.window (displayTime s.timestamp)
    s.quotes).2
  rw [Nat.zero_add] at counted
  exact counted

/-- What a snapshot appends is kept, apart from what it evicts. -/
theorem Aggregator.retained_ingest (a : Aggregator) (s : Snapshot) :
    (a.ingest s).1.retained + (a.ingest s).2.samplesEvicted = a.retained + s.quotes.length := by
  rw [retained_eq, retained_eq]
  exact (Progress.sum_foldl ⟨a.series, 0, 0, 0⟩ a.window (displayTime s.timestamp) s.quotes).1

/-- Nothing is kept at first. -/
@[simp] theorem Aggregator.retained_new (window : Nat) : (new window).retained = 0 := rfl

end Board

end Quoteboard
