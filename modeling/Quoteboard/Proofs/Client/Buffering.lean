import Mathlib.Data.List.Nodup
import Quoteboard.Proofs.Client.Exchange
import Quoteboard.Proofs.Client.Reconnection

/-!
# Events between a driver and a slow consumer

The driver never waits for the consumer: an event that finds the queue full, or nobody to receive
it, is lost. What is queued is received in order, until the consumer goes away. So of the events told
the consumer gets a subsequence, and those it misses are accounted for one by one. The other way
round the consumer has no hold over the driver: what it does and what it publishes is the same for
every consumer.
-/

namespace Quoteboard.Client

open Quoteboard.Connection Quoteboard.Metrics Quoteboard.Transport

/-- The recordings that a turn calls for count no lost event. -/
theorem Move.amount_eventsDropped {d d' : Driver} {now : Moment} {input : Input}
    {effects : List Effect} {r : Recording} (move : Move now d input d' effects)
    (h : .record r ∈ effects) : r.amount .eventsDropped = 0 := by
  have hr : r ∈ recordingsOf effects := List.mem_filterMap.mpr ⟨_, h, rfl⟩
  rw [move.recordingsOf_eq] at hr
  split at hr
  · rw [List.mem_singleton.mp hr]
    rfl
  · rw [List.mem_singleton.mp hr]
    rfl
  · cases hr

namespace Exchange

/-- The events that were queued when they were told. -/
def queued (x : Exchange) : List Telling := x.tellings.filter (·.delivery = .queued)

/-- The events that the consumer has received. -/
def obtained (x : Exchange) : List Telling := x.queued.take x.received.length

/-- The events that the consumer has received or can still receive. -/
def kept (x : Exchange) : List Telling :=
  x.queued.take (x.received.length + x.channel.buffer.length)

/-- The inputs that the driver has taken, each at its moment. -/
def inputs (x : Exchange) : List (Moment × Input) := x.turns.map fun t ↦ (t.now, t.input)

/-- How the events of an exchange fare whose queue has room for as many as `capacity` says, or for
one. -/
structure Buffers (capacity : Nat) (x : Exchange) : Prop where
  /-- Exactly those events have been told that the turns call for, in order, less those that are
  still due. -/
  told : x.tellings.map (fun m ↦ (m.turn, m.event)) ++ x.untold = tellsOf x.turns
  nodup : x.tellings.Nodup
  length_le : x.channel.buffer.length ≤ max capacity 1
  /-- What has been received and what is still in the queue, in this order, are the events that
  were kept of those told. -/
  kept_eq : x.kept.map (·.event) = x.received ++ x.channel.buffer
  kept_sublist : x.kept.Sublist x.tellings
  /-- An event that was not kept found the queue full, or the consumer has gone before receiving
  it. -/
  missing : ∀ m ∈ x.tellings, m ∉ x.kept → m.delivery = .full ∨ x.channel.hasReceiver = false
  full_iff : ∀ m ∈ x.tellings, m.delivery = .full ↔
    m.queue.hasReceiver = true ∧ m.queue.buffer.length = max capacity 1
  /-- The counter counts the events that found the queue full. -/
  total_eventsDropped :
    total .eventsDropped x.record = x.tellings.countP (·.delivery = .full)

/-- Two exchanges agree if their drivers are and have done the same, and the watch has held the same
statuses. -/
structure Agrees (x y : Exchange) : Prop where
  driver : x.driver = y.driver
  due : x.due = y.due
  status : x.status = y.status
  earlier : x.earlier = y.earlier
  turns : x.turns = y.turns

variable {x y : Exchange} {policy : RetryPolicy} {capacity capacity' : Nat}

/-! ### What is queued, received and lost -/

theorem queued_tell {turn : Turn} {event : ClientEvent} :
    (x.tell turn event).queued.map (·.event) =
      x.queued.map (·.event) ++ if (x.channel.send event).2 = .queued then [event] else [] := by
  rw [queued, tell, List.filter_append, List.map_append]
  congr 1
  by_cases h : (x.channel.send event).2 = .queued <;> simp [Telling.delivery, h]

/-- What has been received, what is in the queue and what went with the consumer are the events that
were queued, in order. -/
theorem Reachable.exists_queued_eq (h : Reachable policy capacity x) :
    ∃ gone, x.queued.map (·.event) = x.received ++ x.channel.buffer ++ gone ∧
      (x.channel.hasReceiver = true → gone = []) := by
  induction h with
  | start => exact ⟨[], rfl, fun _ ↦ rfl⟩
  | @step x _ _ step ih =>
    obtain ⟨gone, hq, hg⟩ := ih
    cases step with
    | @told turn event rest due =>
      rw [queued_tell]
      by_cases hd : (x.channel.send event).2 = .queued
      · obtain rfl := hg (Channel.send_eq_queued_iff.mp hd).1
        refine ⟨[], ?_, fun _ ↦ rfl⟩
        simp only [queued, tell, hd, Channel.buffer_send_of_queued hd, ↓reduceIte] at hq ⊢
        simp [hq]
      · refine ⟨gone, ?_, ?_⟩
        · simp only [queued, tell, hd, Channel.send_of_not_queued hd, ↓reduceIte] at hq ⊢
          simpa using hq
        · simpa only [tell, Channel.send_of_not_queued hd] using hg
    | received =>
      refine ⟨gone, ?_, hg⟩
      rw [List.append_assoc, List.append_assoc, ← List.append_assoc (x.channel.receive 1).2,
        Channel.receive_append, ← List.append_assoc]
      exact hq
    | left =>
      refine ⟨x.channel.buffer ++ gone, ?_, fun there ↦ Bool.noConfusion there⟩
      show x.queued.map (·.event) = x.received ++ [] ++ (x.channel.buffer ++ gone)
      rw [List.append_nil, ← List.append_assoc]
      exact hq
    | idle => exact ⟨gone, hq, hg⟩
    | woken => exact ⟨gone, hq, hg⟩
    | published => exact ⟨gone, hq, hg⟩
    | recorded => exact ⟨gone, hq, hg⟩
    | done => exact ⟨gone, hq, hg⟩

/-- What has been received are the events received, and what can still be are those in the
queue. -/
theorem Reachable.kept_eq (h : Reachable policy capacity x) :
    x.obtained.map (·.event) = x.received ∧
      x.kept.map (·.event) = x.received ++ x.channel.buffer := by
  obtain ⟨gone, hq, -⟩ := h.exists_queued_eq
  constructor
  · rw [obtained, List.map_take, hq, List.append_assoc, List.take_left]
  · rw [kept, List.map_take, hq, ← List.length_append, List.take_left]

/-- Everything that was queued is kept as long as the consumer is there. -/
theorem Reachable.kept_eq_queued (h : Reachable policy capacity x)
    (there : x.channel.hasReceiver = true) : x.kept = x.queued := by
  obtain ⟨gone, hq, hg⟩ := h.exists_queued_eq
  refine List.take_of_length_le (Nat.le_of_eq ?_)
  have := congrArg List.length hq
  simpa [hg there] using this

/-- Every event is sent to a queue with the room that was asked for, and whose consumer is there if
it still is. -/
theorem Reachable.queue_of_telling (h : Reachable policy capacity x) :
    x.channel.capacity = max capacity 1 ∧
      ∀ m ∈ x.tellings, m.queue.capacity = max capacity 1 ∧
        (x.channel.hasReceiver = true → m.queue.hasReceiver = true) := by
  induction h with
  | start => exact ⟨rfl, by simp [Exchange.new]⟩
  | @step x _ _ step ih =>
    cases step with
    | @told turn event rest due =>
      obtain ⟨hc, hr⟩ := x.channel.send_fields event
      refine ⟨hc.trans ih.1, fun m hm ↦ ?_⟩
      rw [tell, List.mem_append, List.mem_singleton] at hm
      rcases hm with hm | rfl
      · exact ⟨(ih.2 m hm).1, fun there ↦ (ih.2 m hm).2 (hr.symm.trans there)⟩
      · exact ⟨ih.1, fun there ↦ hr.symm.trans there⟩
    | left => exact ⟨ih.1, fun m hm ↦ ⟨(ih.2 m hm).1, fun there ↦ Bool.noConfusion there⟩⟩
    | idle => exact ih
    | woken => exact ih
    | published => exact ih
    | recorded => exact ih
    | done => exact ih
    | received => exact ih

/-- The events told are numbered in order. -/
theorem Reachable.numbers_eq (h : Reachable policy capacity x) :
    x.tellings.map (·.number) = List.range x.tellings.length := by
  induction h with
  | start => rfl
  | step _ step ih =>
    cases step with
    | told =>
      simp only [tell, List.map_append, List.length_append, List.map_singleton,
        List.length_singleton, List.range_succ, ih]
    | idle => exact ih
    | woken => exact ih
    | published => exact ih
    | recorded => exact ih
    | done => exact ih
    | received => exact ih
    | left => exact ih

/-- The counter counts the events that found the queue full. -/
theorem Reachable.total_eventsDropped (h : Reachable policy capacity x) :
    total .eventsDropped x.record = x.tellings.countP (·.delivery = .full) := by
  induction h with
  | start => rfl
  | @step x _ reached step ih =>
    cases step with
    | @told turn event rest due =>
      simp only [tell, total_append, List.countP_append, List.countP_singleton, ih]
      by_cases hd : (x.channel.send event).2 = .full <;>
        simp [Telling.delivery, hd, total, Recording.one, Recording.amount]
    | @recorded turn r rest due =>
      obtain ⟨ht, hr, -⟩ := reached.turn_of_due _ (due ▸ List.mem_cons_self ..)
      have move := (reached.run.move_of_mem (Driver.coherent_new policy) ht).2
      have zero : r.amount .eventsDropped = 0 := move.amount_eventsDropped hr
      simp [total_append, total, zero, ih]
    | idle => exact ih
    | woken => exact ih
    | published => exact ih
    | done => exact ih
    | received => exact ih
    | left => exact ih

/-- An exchange loses no event but for want of room, or of a consumer. -/
theorem Reachable.buffers (h : Reachable policy capacity x) : x.Buffers capacity := by
  obtain ⟨room, queue⟩ := h.queue_of_telling
  have full_iff : ∀ m ∈ x.tellings, m.delivery = .full ↔
      m.queue.hasReceiver = true ∧ m.queue.buffer.length = max capacity 1 := by
    intro m hm
    rw [Telling.delivery, Channel.send_eq_full_iff, (queue m hm).1]
  refine ⟨h.tellings_append_untold, ?_, room ▸ x.channel.length_le, h.kept_eq.2, ?_, ?_, full_iff,
    h.total_eventsDropped⟩
  · exact .of_map (·.number) (h.numbers_eq ▸ List.nodup_range)
  · exact (List.take_sublist ..).trans List.filter_sublist
  · intro m hm lost
    by_cases there : x.channel.hasReceiver = true
    · have not_queued : m.delivery ≠ .queued := by
        intro hd
        refine lost ?_
        rw [h.kept_eq_queued there]
        exact List.mem_filter.mpr ⟨hm, by simpa using hd⟩
      exact .inl (Channel.send_eq_full_of_not_queued ((queue m hm).2 there) not_queued)
    · exact .inr (Bool.eq_false_iff.mpr there)

/-! ### The driver by itself -/

/-- Exchanges whose drivers have taken the same inputs, and are as far in doing what these call for,
agree. -/
theorem Reachable.agrees (hx : Reachable policy capacity x) (hy : Reachable policy capacity' y)
    (inputs : y.inputs = x.inputs) (due : y.due.length = x.due.length) : y.Agrees x := by
  have same : some (y.turns, y.driver) = some (x.turns, x.driver) := by
    rw [← hy.run.run?_eq, ← hx.run.run?_eq]
    exact congrArg _ inputs
  obtain ⟨turns, driver⟩ := Prod.mk.inj (Option.some.inj same)
  obtain ⟨done, hc, -, hs⟩ := hx.exists_done
  obtain ⟨done', hc', -, hs'⟩ := hy.exists_done
  rw [turns, hc] at hc'
  obtain ⟨rfl, same_due⟩ := List.append_inj' hc' due.symm
  obtain ⟨status, earlier⟩ := List.cons.inj (hs'.trans hs.symm)
  exact ⟨driver, same_due.symm, status, earlier, turns⟩

/-! ### An attentive consumer -/

/-- What happens instead if the consumer receives each event as soon as it is told, and stays. -/
def attended : Happening → List Happening
  | .wake now input => [.wake now input]
  | .act => [.act, .receive]
  | .receive | .leave => []

/-- No event has met others in the queue, or was lost. -/
structure Attended (x : Exchange) : Prop where
  hasReceiver : x.channel.hasReceiver = true
  buffer_eq_nil : x.channel.buffer = []
  met_none : ∀ m ∈ x.tellings, m.queue.buffer = []
  queued : ∀ m ∈ x.tellings, m.delivery = .queued

/-- What happens to the driver happens alike to drivers that agree. -/
theorem Agrees.next (h : y.Agrees x) (happening : Happening) :
    (y.next happening).Agrees (x.next happening) := by
  obtain ⟨driver, due, status, earlier, turns⟩ := h
  cases happening with
  | wake now input =>
    simp only [Exchange.next, driver, due, turns]
    split
    · exact ⟨rfl, rfl, status, earlier, rfl⟩
    · exact ⟨driver, due, status, earlier, turns⟩
  | act =>
    simp only [Exchange.next, due]
    cases x.due with
    | nil => exact ⟨driver, due, status, earlier, turns⟩
    | cons p rest =>
      obtain ⟨turn, effect⟩ := p
      cases effect with
      | publish _ => exact ⟨driver, rfl, rfl, by simp [apply, status, earlier], turns⟩
      | connect => exact ⟨driver, rfl, status, earlier, turns⟩
      | cancelConnect => exact ⟨driver, rfl, status, earlier, turns⟩
      | closeStream _ => exact ⟨driver, rfl, status, earlier, turns⟩
      | emit _ => exact ⟨driver, rfl, status, earlier, turns⟩
      | record _ => exact ⟨driver, rfl, status, earlier, turns⟩
      | acknowledge => exact ⟨driver, rfl, status, earlier, turns⟩
  | receive => exact ⟨driver, due, status, earlier, turns⟩
  | leave => exact ⟨driver, due, status, earlier, turns⟩

/-- An attentive consumer stays so if it receives what the driver may have told. -/
theorem Attended.act (h : y.Attended) : ((y.next .act).next .receive).Attended := by
  obtain ⟨receiver, empty, met, queued⟩ := h
  have nothing_told (due : List (Turn × Effect)) (status : Status) (earlier : List Status)
      (record : List Recording) :
      ({ y with due := due, status := status, earlier := earlier, record := record }.next
        .receive).Attended :=
    ⟨receiver, by simp [Exchange.next, Channel.receive, empty], met, queued⟩
  cases hd : y.due with
  | nil => simpa only [Exchange.next, hd] using nothing_told y.due y.status y.earlier y.record
  | cons p rest =>
    obtain ⟨turn, effect⟩ := p
    simp only [Exchange.next, hd]
    cases effect with
    | emit event =>
      have sent : (y.channel.send event).2 = .queued :=
        Channel.send_eq_queued_iff.mpr ⟨receiver, by simp [empty, y.channel.capacity_pos]⟩
      refine ⟨(y.channel.send_fields event).2.trans receiver, ?_, ?_, ?_⟩
      · simp [apply, tell, Channel.receive, Channel.buffer_send_of_queued sent, empty]
      · intro m hm
        rcases List.mem_append.mp hm with hm | hm
        · exact met m hm
        · rw [List.mem_singleton.mp hm]
          exact empty
      · intro m hm
        rcases List.mem_append.mp hm with hm | hm
        · exact queued m hm
        · rw [List.mem_singleton.mp hm]
          exact sent
    | connect => exact nothing_told rest _ _ _
    | cancelConnect => exact nothing_told rest _ _ _
    | closeStream _ => exact nothing_told rest _ _ _
    | publish _ => exact nothing_told rest _ _ _
    | record _ => exact nothing_told rest _ _ _
    | acknowledge => exact nothing_told rest _ _ _

/-- An attentive consumer makes no difference to the driver. -/
theorem attended_after (policy : RetryPolicy) (capacity : Nat) (schedule : List Happening) :
    Attended ((new policy capacity).after (schedule.flatMap attended)) ∧
      ((new policy capacity).after (schedule.flatMap attended)).Agrees
        ((new policy capacity).after schedule) := by
  induction schedule using List.reverseRecOn with
  | nil => exact ⟨⟨rfl, rfl, by simp [new], by simp [new]⟩, rfl, rfl, rfl, rfl, rfl⟩
  | append_singleton schedule h ih =>
    obtain ⟨there, agrees⟩ := ih
    rw [List.flatMap_append, List.flatMap_singleton, after_append, after_append]
    obtain ⟨driver, due, status, earlier, turns⟩ := agrees.next h
    cases h with
    | wake now input =>
      refine ⟨?_, agrees.next (.wake now input)⟩
      simp only [attended, after_cons, after_nil, next]
      split
      · exact ⟨there.1, there.2, there.3, there.4⟩
      · exact there
    | act => exact ⟨there.act, driver, due, status, earlier, turns⟩
    | receive => exact ⟨there, driver, due, status, earlier, turns⟩
    | leave => exact ⟨there, driver, due, status, earlier, turns⟩

/-! ### Every pace of the consumer -/

/-- The consumer is there until it goes away. -/
theorem hasReceiver_after (policy : RetryPolicy) (capacity : Nat) (schedule : List Happening) :
    ((new policy capacity).after schedule).channel.hasReceiver = true ↔ .leave ∉ schedule := by
  induction schedule using List.reverseRecOn with
  | nil => simp [new, Channel.new]
  | append_singleton schedule h ih =>
    simp only [after_append, after_cons, after_nil, List.mem_append, List.mem_singleton, not_or,
      ← ih]
    cases h with
    | wake now input =>
      simp only [next]
      split <;> simp
    | act =>
      simp only [next]
      split
      · simp
      · next turn effect _ _ =>
        cases effect with
        | emit event => simp [apply, tell, Channel.send_fields]
        | connect => simp [apply]
        | cancelConnect => simp [apply]
        | closeStream _ => simp [apply]
        | publish _ => simp [apply]
        | record _ => simp [apply]
        | acknowledge => simp [apply]
    | receive => simp [next, Channel.receive]
    | leave => simp [next, Channel.dropReceiver]

/-- How things stand between a driver and its consumer after a schedule. -/
structure Bounded (policy : RetryPolicy) (capacity : Nat) (schedule : List Happening)
    (x : Exchange) : Prop where
  run : Run (.new policy) x.turns x.driver
  buffers : x.Buffers capacity
  hasReceiver_iff : x.channel.hasReceiver = true ↔ .leave ∉ schedule
  /-- The driver does the same for every consumer and every capacity, if it takes the same inputs and
  is as far in doing what they call for. -/
  agrees : ∀ (capacity' : Nat) (schedule' : List Happening),
    ((new policy capacity').after schedule').inputs = x.inputs →
    ((new policy capacity').after schedule').due.length = x.due.length →
    ((new policy capacity').after schedule').Agrees x
  /-- In particular for one that receives each event before the next is told. -/
  attended : ∃ schedule', ((new policy capacity).after schedule').Attended ∧
    ((new policy capacity).after schedule').Agrees x

/-- Whatever the capacity, the inputs and the pace of the consumer: what is received and what is
queued are some of the events told, in order; no more are queued than there is room for; none is
missing but those that found no room, which are counted, or no consumer; and to the driver it makes
no difference. -/
theorem bounded_after (policy : RetryPolicy) (capacity : Nat) (schedule : List Happening) :
    Bounded policy capacity schedule ((new policy capacity).after schedule) := by
  have reached := reachable_after policy capacity schedule
  refine ⟨reached.run, reached.buffers, hasReceiver_after policy capacity schedule, ?_,
    _, attended_after policy capacity schedule⟩
  intro capacity' schedule' inputs due
  exact reached.agrees (reachable_after policy capacity' schedule') inputs due

end Exchange

end Quoteboard.Client
