import Mathlib.Data.List.Induction
import Quoteboard.Client.Channel
import Quoteboard.Proofs.Client.Attempts

/-!
# A driver and its consumer

What passes between a driver and the consumer of its events, who works at a pace of its own. The
driver does what its turns call for one thing at a time, and between any two of these the consumer
may receive an event or go away. A schedule says who comes next; what cannot happen at its moment is
passed over. So a statement about schedules holds for every interleaving of the two.

The exchange keeps a record of what has happened to it: the turns of the driver, which make a run,
and every event that was told, with what it met at that moment.
-/

namespace Quoteboard.Client

open Quoteboard.Connection Quoteboard.Metrics Quoteboard.Transport

/-- An event at the moment when the driver tells it. -/
structure Telling where
  /-- How many events were told before it. -/
  number : Nat
  event : ClientEvent
  /-- The turn that it is told in. -/
  turn : Turn
  /-- The queue that it is sent to, as it is before. -/
  queue : Channel ClientEvent
  /-- The status that the watch holds. -/
  status : Status
  /-- The statuses that the watch held before, the latest first. -/
  earlier : List Status

/-- What becomes of an event that is told. -/
def Telling.delivery (t : Telling) : Delivery := (t.queue.send t.event).2

/-- The attempt that an event is of. -/
def Telling.attempt? (t : Telling) : Option Generation := t.turn.before.attempt?

/-- A driver, its consumer and what is between them. -/
structure Exchange where
  driver : Driver
  /-- What the driver has yet to do, each with the turn that calls for it. -/
  due : List (Turn × Effect)
  channel : Channel ClientEvent
  /-- The status that the watch holds. -/
  status : Status
  /-- The statuses that it held before, the latest first. -/
  earlier : List Status
  record : List Recording
  /-- The events that the consumer has received, in order. -/
  received : List ClientEvent
  /-- The turns of the driver so far. -/
  turns : List Turn
  /-- The events that were told so far, in order. -/
  tellings : List Telling

/-- What can happen to an exchange. -/
inductive Happening where
  /-- An input reaches the driver. -/
  | wake (now : Moment) (input : Input)
  /-- The driver does the next thing that is due. -/
  | act
  /-- The consumer receives the oldest event, if there is one. -/
  | receive
  /-- The consumer goes away. -/
  | leave

/-- Whether an effect is neither published nor told nor recorded. -/
def Effect.isSilent : Effect → Bool
  | .connect | .cancelConnect | .closeStream _ | .acknowledge => true
  | .publish _ | .emit _ | .record _ => false

/-- The status that an effect publishes, if it publishes one. -/
def Effect.published? : Effect → Option Status
  | .publish status => some status
  | _ => none

namespace Exchange

/-- An exchange in which nothing has happened. -/
def new (policy : RetryPolicy) (capacity : Nat) : Exchange :=
  ⟨.new policy, [], .new capacity, (Driver.new policy).machine.status, [], [], [], [], []⟩

/-- An event is told in a turn. -/
def tell (x : Exchange) (turn : Turn) (event : ClientEvent) : Exchange :=
  { x with
      channel := (x.channel.send event).1
      record :=
        x.record ++ if (x.channel.send event).2 = .full then [.one .eventsDropped] else []
      tellings :=
        x.tellings ++ [⟨x.tellings.length, event, turn, x.channel, x.status, x.earlier⟩] }

/-- Carry out an effect of a turn. -/
def apply (x : Exchange) (turn : Turn) : Effect → Exchange
  | .publish status => { x with status := status, earlier := x.status :: x.earlier }
  | .emit event => x.tell turn event
  | .record recording => { x with record := x.record ++ [recording] }
  | .connect | .cancelConnect | .closeStream _ | .acknowledge => x

/-- What a happening makes of an exchange, which is nothing if it cannot happen. -/
def next (x : Exchange) : Happening → Exchange
  | .wake now input =>
    if x.due = [] ∧ x.driver.awaits now input = true then
      { x with
          driver := (x.driver.step now input).1
          due := (x.driver.turn now input).effects.map (x.driver.turn now input, ·)
          turns := x.turns ++ [x.driver.turn now input] }
    else x
  | .act =>
    match x.due with
    | [] => x
    | (turn, effect) :: due => { x with due := due }.apply turn effect
  | .receive =>
    { x with
        channel := (x.channel.receive 1).1
        received := x.received ++ (x.channel.receive 1).2 }
  | .leave => { x with channel := x.channel.dropReceiver }

/-- What a schedule makes of an exchange. -/
def after (x : Exchange) (schedule : List Happening) : Exchange := schedule.foldl next x

@[simp] theorem after_nil (x : Exchange) : x.after [] = x := rfl

@[simp] theorem after_cons (x : Exchange) (h : Happening) (schedule : List Happening) :
    x.after (h :: schedule) = (x.next h).after schedule := rfl

theorem after_append (x : Exchange) (first second : List Happening) :
    x.after (first ++ second) = (x.after first).after second := List.foldl_append

/-- What can come of a happening, case by case. -/
inductive Step (x : Exchange) : Exchange → Prop where
  /-- It cannot happen. -/
  | idle : Step x x
  /-- The driver takes a turn. -/
  | woken (now : Moment) (input : Input) (ready : x.due = [])
      (awaited : x.driver.awaits now input = true) :
      Step x
        { x with
            driver := (x.driver.step now input).1
            due := (x.driver.turn now input).effects.map (x.driver.turn now input, ·)
            turns := x.turns ++ [x.driver.turn now input] }
  /-- The driver publishes a status. -/
  | published {turn : Turn} {status : Status} {rest : List (Turn × Effect)}
      (h : x.due = (turn, .publish status) :: rest) :
      Step x { x with due := rest, status := status, earlier := x.status :: x.earlier }
  /-- The driver tells an event. -/
  | told {turn : Turn} {event : ClientEvent} {rest : List (Turn × Effect)}
      (h : x.due = (turn, .emit event) :: rest) : Step x ({ x with due := rest }.tell turn event)
  /-- The driver makes a recording. -/
  | recorded {turn : Turn} {recording : Recording} {rest : List (Turn × Effect)}
      (h : x.due = (turn, .record recording) :: rest) :
      Step x { x with due := rest, record := x.record ++ [recording] }
  /-- The driver does something else. -/
  | done {turn : Turn} {effect : Effect} {rest : List (Turn × Effect)}
      (h : x.due = (turn, effect) :: rest) (silent : effect.isSilent = true) :
      Step x { x with due := rest }
  /-- The consumer receives an event, if there is one. -/
  | received :
      Step x
        { x with
            channel := (x.channel.receive 1).1
            received := x.received ++ (x.channel.receive 1).2 }
  /-- The consumer goes away. -/
  | left : Step x { x with channel := x.channel.dropReceiver }

variable {x : Exchange} {policy : RetryPolicy} {capacity : Nat}

/-- Every happening is one of the cases. -/
theorem step_next (x : Exchange) (h : Happening) : x.Step (x.next h) := by
  cases h with
  | wake now input =>
    simp only [next]
    split
    · next h => exact .woken now input h.1 h.2
    · exact .idle
  | act =>
    simp only [next]
    split
    · exact .idle
    · next turn effect rest h =>
      cases effect with
      | connect => exact .done h rfl
      | cancelConnect => exact .done h rfl
      | closeStream _ => exact .done h rfl
      | publish _ => exact .published h
      | emit _ => exact .told h
      | record _ => exact .recorded h
      | acknowledge => exact .done h rfl
  | receive => exact .received
  | leave => exact .left

/-- The exchanges that can come of a new one. -/
inductive Reachable (policy : RetryPolicy) (capacity : Nat) : Exchange → Prop where
  | start : Reachable policy capacity (.new policy capacity)
  | step {x y : Exchange} (h : Reachable policy capacity x) (step : x.Step y) :
      Reachable policy capacity y

/-- Every schedule leads to one of them. -/
theorem reachable_after (policy : RetryPolicy) (capacity : Nat) (schedule : List Happening) :
    Reachable policy capacity ((new policy capacity).after schedule) := by
  induction schedule using List.reverseRecOn with
  | nil => exact .start
  | append_singleton schedule h ih =>
    rw [after_append]
    exact .step ih (step_next _ h)

/-! ### The turns of an exchange -/

/-- Whatever the consumer does, the turns of the driver make a run. -/
theorem Reachable.run (h : Reachable policy capacity x) :
    Run (.new policy) x.turns x.driver := by
  induction h with
  | start => exact .nil _
  | step _ step ih =>
    cases step with
    | woken now input _ awaited => exact ih.append (.cons now input awaited (.nil _))
    | idle => exact ih
    | published => exact ih
    | told => exact ih
    | recorded => exact ih
    | done => exact ih
    | received => exact ih
    | left => exact ih

/-- What is due is called for by a turn that has led to the present driver. -/
theorem Reachable.turn_of_due (h : Reachable policy capacity x) :
    ∀ p ∈ x.due, p.1 ∈ x.turns ∧ p.2 ∈ p.1.effects ∧ p.1.after = x.driver := by
  induction h with
  | start => simp [new]
  | step _ step ih =>
    cases step with
    | woken now input ready awaited =>
      intro p hp
      obtain ⟨e, he, rfl⟩ := List.mem_map.mp hp
      exact ⟨by simp, he, rfl⟩
    | idle => exact ih
    | published h => exact fun p hp ↦ ih p (h ▸ List.mem_cons_of_mem _ hp)
    | told h => exact fun p hp ↦ ih p (h ▸ List.mem_cons_of_mem _ hp)
    | recorded h => exact fun p hp ↦ ih p (h ▸ List.mem_cons_of_mem _ hp)
    | done h => exact fun p hp ↦ ih p (h ▸ List.mem_cons_of_mem _ hp)
    | received => exact ih
    | left => exact ih

/-! ### What has been done -/

/-- What some turns call for, each with its turn. -/
def calledFor (turns : List Turn) : List (Turn × Effect) :=
  turns.flatMap fun t ↦ t.effects.map (t, ·)

/-- The events that some turns tell, each with its turn. -/
def tellsOf (turns : List Turn) : List (Turn × ClientEvent) :=
  turns.flatMap fun t ↦ (events t.effects).map (t, ·)

/-- The events that are yet to be told, each with its turn. -/
def untold (x : Exchange) : List (Turn × ClientEvent) :=
  x.due.filterMap fun p ↦ p.2.event?.map (p.1, ·)

/-- What is due is the rest of what the turns call for. What was done before it has told the events
told so far, and published the statuses that the watch has held since the first. -/
theorem Reachable.exists_done (h : Reachable policy capacity x) :
    ∃ done, calledFor x.turns = done ++ x.due ∧
      x.tellings.map (fun m ↦ (m.turn, m.event)) =
        done.filterMap (fun p ↦ p.2.event?.map (p.1, ·)) ∧
      x.status :: x.earlier =
        (done.filterMap (·.2.published?)).reverse ++ [(Driver.new policy).machine.status] := by
  induction h with
  | start => exact ⟨[], rfl, rfl, rfl⟩
  | @step x _ _ step ih =>
    obtain ⟨done, hc, ht, hs⟩ := ih
    have further {p : Turn × Effect} {rest : List (Turn × Effect)} (due : x.due = p :: rest) :
        calledFor x.turns = done ++ [p] ++ rest := by rw [hc, due, List.append_cons]
    cases step with
    | woken now input ready awaited =>
      rw [ready, List.append_nil] at hc
      exact ⟨done, by simp [calledFor, ← hc, Driver.turn], ht, hs⟩
    | published due =>
      exact ⟨_, further due, by simpa [Effect.event?] using ht, by simp [hs, Effect.published?]⟩
    | told due =>
      exact ⟨_, further due, by simpa [tell, Effect.event?] using ht,
        by simpa [tell, Effect.published?] using hs⟩
    | recorded due =>
      exact ⟨_, further due, by simpa [Effect.event?] using ht,
        by simpa [Effect.published?] using hs⟩
    | @done _ effect _ due silent =>
      have untold : effect.event? = none := by cases effect <;> first | rfl | cases silent
      have unpublished : effect.published? = none := by
        cases effect <;> first | rfl | cases silent
      exact ⟨_, further due, by simpa [untold] using ht, by simpa [unpublished] using hs⟩
    | idle => exact ⟨done, hc, ht, hs⟩
    | received => exact ⟨done, hc, ht, hs⟩
    | left => exact ⟨done, hc, ht, hs⟩

/-- What has been told and what is yet to be told is what the turns tell. -/
theorem Reachable.tellings_append_untold (h : Reachable policy capacity x) :
    x.tellings.map (fun m ↦ (m.turn, m.event)) ++ x.untold = tellsOf x.turns := by
  obtain ⟨done, hc, ht, -⟩ := h.exists_done
  rw [ht, untold, ← List.filterMap_append, ← hc, calledFor, tellsOf, List.filterMap_flatMap]
  simp only [events, List.filterMap_map, List.map_filterMap]
  rfl

end Exchange

end Quoteboard.Client
