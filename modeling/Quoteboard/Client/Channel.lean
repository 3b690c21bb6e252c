/-!
# Bounded channels

A queue between a sender that never waits and a receiver that takes what is there at its own pace.
What is sent to a full queue, or after the receiver has gone, is lost.
-/

namespace Quoteboard.Client

/-- What became of something that was sent. -/
inductive Delivery where
  | queued
  /-- Lost because the queue was full. -/
  | full
  /-- Lost because there is no receiver any more. -/
  | gone
  deriving DecidableEq, Repr

/-- A queue of at most `capacity` elements, the oldest first. -/
structure Channel (α : Type) where
  capacity : Nat
  buffer : List α
  hasReceiver : Bool
  capacity_pos : 0 < capacity
  length_le : buffer.length ≤ capacity

namespace Channel

variable {α : Type}

/-- The greatest number of elements that a queue can be asked to have room for. -/
def maxCapacity : Nat := 0x1fffffffffffffff

/-- An empty queue; it has room for at least one element. -/
def new (capacity : Nat) : Channel α where
  capacity := max capacity 1
  buffer := []
  hasReceiver := true
  capacity_pos := Nat.le_max_right capacity 1
  length_le := by simp

/-- Send an element without waiting. -/
def send (c : Channel α) (a : α) : Channel α × Delivery :=
  if c.hasReceiver then
    if h : c.buffer.length < c.capacity then
      ({ c with
          buffer := c.buffer ++ [a]
          length_le := by
            rw [List.length_append, List.length_singleton]
            omega },
       .queued)
    else (c, .full)
  else (c, .gone)

/-- Take at most `n` elements, the oldest first. -/
def receive (c : Channel α) (n : Nat) : Channel α × List α :=
  ({ c with
      buffer := c.buffer.drop n
      length_le := by
        rw [List.length_drop]
        have := c.length_le
        omega },
   c.buffer.take n)

/-- Take all elements. -/
def receiveAll (c : Channel α) : Channel α × List α :=
  c.receive c.buffer.length

/-- The receiver goes away, and what is queued with it. -/
def dropReceiver (c : Channel α) : Channel α :=
  { c with buffer := [], hasReceiver := false, length_le := Nat.zero_le _ }

/-- What is taken and what stays are what was there. -/
theorem receive_append (c : Channel α) (n : Nat) :
    (c.receive n).2 ++ (c.receive n).1.buffer = c.buffer :=
  List.take_append_drop n c.buffer

/-- Taking some elements and then more is taking all of them at once. -/
theorem receive_receive (c : Channel α) (m n : Nat) :
    ((c.receive m).1.receive n).1 = (c.receive (m + n)).1 ∧
      (c.receive m).2 ++ ((c.receive m).1.receive n).2 = (c.receive (m + n)).2 := by
  constructor
  · simp [receive]
  · exact (List.take_add ..).symm

/-- What is queued comes last. -/
theorem buffer_send_of_queued {c : Channel α} {a : α} (h : (c.send a).2 = .queued) :
    (c.send a).1.buffer = c.buffer ++ [a] := by
  by_cases receiver : c.hasReceiver = true
  · by_cases room : c.buffer.length < c.capacity
    · simp [send, receiver, room]
    · simp [send, receiver, room] at h
  · simp [send, receiver] at h

/-- What is lost leaves the queue alone. -/
theorem send_of_not_queued {c : Channel α} {a : α} (h : (c.send a).2 ≠ .queued) :
    (c.send a).1 = c := by
  by_cases receiver : c.hasReceiver = true
  · by_cases room : c.buffer.length < c.capacity
    · simp [send, receiver, room] at h
    · simp [send, receiver, room]
  · simp [send, receiver]

/-- Sending leaves the room and the receiver as they are. -/
theorem send_fields (c : Channel α) (a : α) :
    (c.send a).1.capacity = c.capacity ∧ (c.send a).1.hasReceiver = c.hasReceiver := by
  unfold send
  split
  · split <;> exact ⟨rfl, rfl⟩
  · exact ⟨rfl, rfl⟩

/-- What is sent is lost for want of room exactly if the queue is full. -/
theorem send_eq_full_iff {c : Channel α} {a : α} :
    (c.send a).2 = .full ↔ c.hasReceiver = true ∧ c.buffer.length = c.capacity := by
  have := c.length_le
  unfold send
  split
  · split <;> simp_all <;> omega
  · simp_all

/-- What is sent is queued exactly if there is a receiver and room. -/
theorem send_eq_queued_iff {c : Channel α} {a : α} :
    (c.send a).2 = .queued ↔ c.hasReceiver = true ∧ c.buffer.length < c.capacity := by
  unfold send
  split
  · split <;> simp_all
  · simp_all

/-- As long as there is a receiver, nothing is lost but for want of room. -/
theorem send_eq_full_of_not_queued {c : Channel α} {a : α} (receiver : c.hasReceiver = true)
    (h : (c.send a).2 ≠ .queued) : (c.send a).2 = .full := by
  have no_room : ¬c.buffer.length < c.capacity := fun room ↦
    h (send_eq_queued_iff.mpr ⟨receiver, room⟩)
  exact send_eq_full_iff.mpr ⟨receiver, Nat.le_antisymm c.length_le (Nat.not_lt.mp no_room)⟩

end Channel

end Quoteboard.Client
