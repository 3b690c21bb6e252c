/-!
# Time series

The samples kept of one instrument: a queue of bounded length, from which the oldest sample is
evicted when a new one does not fit.
-/

namespace Quoteboard.Board

/-- The best bid and ask at one moment. -/
structure Sample where
  time : Float
  bestBid : Float
  bestAsk : Float
  deriving DecidableEq, Repr

/-- How many source time units make one unit of display time. -/
def sourceUnitsPerDisplayUnit : Float := 1000000.0

/-- A source timestamp in display time: the nearest double, divided. -/
def displayTime (timestamp : Int) : Float :=
  Float.ofInt timestamp / sourceUnitsPerDisplayUnit

/-- The last elements of a list, at most `n` of them. -/
def lastOf {α : Type} (n : Nat) (xs : List α) : List α :=
  xs.drop (xs.length - n)

/-- The storage of one sample, in bytes. -/
def sampleBytes : Nat := 24

/-- The greatest storage that can be reserved at once, in bytes. -/
def maxReservation : Nat := 0x7fffffffffffffff

/-- Whether storage for a series of this many samples can be reserved, which is asked when the
series is made. The growth of a full series is left out: it takes in a sample before it evicts the
oldest, and doubles its storage to do so the first time. That can be refused only of a series that
holds more than half as many samples as can be reserved at all. -/
def isReservable (capacity : Nat) : Bool :=
  capacity * sampleBytes ≤ maxReservation

/-- Room for one sample is always there. -/
theorem room_pos (n : Nat) : 0 < max n 1 := Nat.le_max_right n 1

/-- Samples, the oldest first, at most `capacity` of them. -/
structure TimeSeries where
  capacity : Nat
  toList : List Sample
  capacity_pos : 0 < capacity
  length_le : toList.length ≤ capacity

namespace TimeSeries

/-- The series without samples. -/
def empty (capacity : Nat) : TimeSeries where
  capacity := max capacity 1
  toList := []
  capacity_pos := room_pos capacity
  length_le := Nat.zero_le _

/-- The number of samples kept. -/
def size (s : TimeSeries) : Nat := s.toList.length

/-- Whether no sample is kept. -/
def isEmpty (s : TimeSeries) : Bool := s.toList.isEmpty

/-- Whether the next sample evicts the oldest. -/
def isFull (s : TimeSeries) : Bool := s.capacity ≤ s.size

/-- Append a sample; a full series loses its oldest. That a full series holds one sample more for a
moment, and grows for it, is left out (see `isReservable`). -/
def push (s : TimeSeries) (sample : Sample) : TimeSeries where
  capacity := s.capacity
  toList := lastOf s.capacity (s.toList ++ [sample])
  capacity_pos := s.capacity_pos
  length_le := by
    simp only [lastOf, List.length_drop]
    omega

/-- A new series holds nothing. -/
@[simp] theorem toList_empty (capacity : Nat) : (empty capacity).toList = [] := rfl

/-- Appending keeps the last samples. -/
theorem toList_push (s : TimeSeries) (sample : Sample) :
    (s.push sample).toList = lastOf s.capacity (s.toList ++ [sample]) := rfl

/-- Appending does not change the capacity. -/
@[simp] theorem capacity_push (s : TimeSeries) (sample : Sample) :
    (s.push sample).capacity = s.capacity := rfl

/-- A series that is not full grows by the sample. -/
theorem toList_push_of_not_full {s : TimeSeries} (h : s.isFull = false) (sample : Sample) :
    (s.push sample).toList = s.toList ++ [sample] := by
  have room : s.toList.length < s.capacity :=
    Nat.lt_of_not_le (of_decide_eq_false h)
  have none_left : s.toList.length + 1 - s.capacity = 0 := by omega
  simp [toList_push, lastOf, none_left]

/-- A full series keeps its length. -/
theorem size_push_of_full {s : TimeSeries} (h : s.isFull = true) (sample : Sample) :
    (s.push sample).size = s.size := by
  have full : s.capacity ≤ s.toList.length := of_decide_eq_true h
  have bound := s.length_le
  have positive := s.capacity_pos
  simp only [size, toList_push, lastOf, List.length_drop, List.length_append, List.length_singleton]
  omega

end TimeSeries

end Quoteboard.Board
