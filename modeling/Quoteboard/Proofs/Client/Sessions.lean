import Quoteboard.Client.Session
import Quoteboard.Proofs.Client.Publication

/-!
# Sessions as exchanges

A session runs a driver and its consumer against a scripted source, on a clock of its own. What goes
on between the two is an exchange: whatever is done to a session, there is a schedule that leaves an
exchange with the same driver, queue, watch and recordings, and its consumer with the same events. So
what holds after every schedule holds in every session.
-/

namespace Quoteboard.Client

open Quoteboard.Connection Quoteboard.Metrics Quoteboard.Transport

/-- What sessions and exchanges have in common. -/
structure Picture where
  driver : Driver
  channel : Channel ClientEvent
  /-- The status that the watch holds. -/
  status : Status
  record : List Recording

def Session.picture (s : Session) : Picture := ⟨s.driver, s.channel, s.status, s.record⟩

def Exchange.picture (x : Exchange) : Picture := ⟨x.driver, x.channel, x.status, x.record⟩

/-- Some schedule leads to what a session shows while nothing is due, and its consumer to some
events. -/
def Session.IsExchange (policy : RetryPolicy) (capacity : Nat) (s : Session)
    (events : List ClientEvent) : Prop :=
  ∃ schedule, ((Exchange.new policy capacity).after schedule).picture = s.picture ∧
    ((Exchange.new policy capacity).after schedule).due = [] ∧
    ((Exchange.new policy capacity).after schedule).received = events

/-- What some actions make of a session, and the events that the consumer reads meanwhile. -/
def Session.performAll (s : Session) (eager : Bool) : List Session.Action →
    Session × List ClientEvent
  | [] => (s, [])
  | action :: rest =>
    let (next, events) := (s.perform action).1.read eager action
    let (last, more) := next.performAll eager rest
    (last, events ++ more)

/-- An input that a driver does not wait for is passed over, unless it is about a retry. -/
theorem Driver.step_of_not_awaited {d : Driver} {now : Moment} {input : Input}
    (h : d.awaits now input = false) (hi : input ≠ .retryTimer) : d.step now input = (d, []) := by
  cases hr : d.running with
  | false => simp [step, hr]
  | true =>
    cases input with
    | command => simp [awaits, hr] at h
    | abandoned => simp [awaits, hr] at h
    | resolved =>
      have nothing : d.pending = none := by simpa [awaits, hr] using h
      simp [step, hr, nothing]
    | received =>
      have nothing : d.stream = none := by simpa [awaits, hr] using h
      simp [step, hr, nothing]
    | retryTimer => exact absurd rfl hi

namespace Session

variable {s : Session}

/-- Calling the connector does not show. -/
theorem picture_call (s : Session) : s.call.picture = s.picture := by
  unfold call
  dsimp only
  split
  · rfl
  · rfl
  · rfl
  · split <;> rfl

/-- Nor does giving up a call. -/
theorem picture_cancelCall (s : Session) : s.cancelCall.picture = s.picture := by
  unfold cancelCall
  dsimp only
  split <;> rfl

end Session

namespace Exchange

variable {x : Exchange} {s : Session} {turn : Turn}

/-- Sessions and exchanges carry out effects alike. -/
theorem picture_apply (h : x.picture = s.picture) (effect : Effect) :
    (x.apply turn effect).picture = (s.apply effect).picture := by
  obtain ⟨driver, channel, status, record⟩ := Picture.mk.inj h
  cases effect with
  | connect => exact h.trans s.picture_call.symm
  | cancelConnect => exact h.trans s.picture_cancelCall.symm
  | closeStream => exact h
  | publish => simp [apply, Session.apply, picture, Session.picture, driver, channel, record]
  | emit =>
    simp [apply, tell, Session.apply, picture, Session.picture, driver, channel, status, record]
  | record => simp [apply, Session.apply, picture, Session.picture, driver, channel, status, record]
  | acknowledge => exact h

/-- An effect makes nothing due, and gives the consumer nothing by itself. -/
theorem apply_fields (x : Exchange) (turn : Turn) (effect : Effect) :
    (x.apply turn effect).due = x.due ∧ (x.apply turn effect).received = x.received := by
  cases effect <;> exact ⟨rfl, rfl⟩

/-- Sessions and exchanges carry out all that is due alike. -/
theorem after_acts {effects : List Effect} (h : x.picture = s.picture)
    (due : x.due = effects.map (turn, ·)) :
    (x.after (.replicate effects.length .act)).picture =
        (effects.foldl Session.apply s).picture ∧
      (x.after (.replicate effects.length .act)).due = [] ∧
      (x.after (.replicate effects.length .act)).received = x.received := by
  induction effects generalizing x s with
  | nil => exact ⟨h, due, rfl⟩
  | cons effect rest ih =>
    have acted : x.next .act = { x with due := rest.map (turn, ·) }.apply turn effect := by
      simp [next, due]
    obtain ⟨hd, hr⟩ := { x with due := rest.map (turn, ·) }.apply_fields turn effect
    obtain ⟨hp, hd, hr'⟩ := ih (picture_apply (x := { x with due := rest.map (turn, ·) }) h effect) hd
    rw [List.length_cons, List.replicate_succ, after_cons, acted]
    exact ⟨hp, hd, hr'.trans hr⟩

/-- The consumer may receive several events one by one. -/
theorem after_receives (x : Exchange) (n : Nat) :
    (x.after (.replicate n .receive)).picture =
        { x.picture with channel := (x.channel.receive n).1 } ∧
      (x.after (.replicate n .receive)).due = x.due ∧
      (x.after (.replicate n .receive)).received = x.received ++ (x.channel.receive n).2 := by
  induction n generalizing x with
  | zero => simp [after, picture, Channel.receive]
  | succ n ih =>
    obtain ⟨channel, taken⟩ := x.channel.receive_receive 1 n
    obtain ⟨hp, hd, hr⟩ := ih (x.next .receive)
    rw [List.replicate_succ, after_cons, Nat.add_comm n 1, ← channel, ← taken,
      ← List.append_assoc]
    exact ⟨hp, hd, hr⟩

end Exchange

namespace Session

variable {policy : RetryPolicy} {capacity : Nat} {s s' : Session} {events : List ClientEvent}

namespace IsExchange

/-- What does not show makes no difference. -/
theorem of_picture (h : s.IsExchange policy capacity events) (same : s'.picture = s.picture) :
    s'.IsExchange policy capacity events := by
  obtain ⟨schedule, hp, hd, hr⟩ := h
  exact ⟨schedule, hp.trans same.symm, hd, hr⟩

/-- The driver of a session takes an input as that of an exchange does. -/
theorem feed (h : s.IsExchange policy capacity events) (input : Input)
    (due : input = .retryTimer → s.isRetryDue = true) :
    (s.feed input).IsExchange policy capacity events := by
  cases awaited : s.driver.awaits s.now input with
  | false =>
    have other : input ≠ .retryTimer := by
      rintro rfl
      exact absurd (due rfl) (by simp [isRetryDue, awaited])
    refine h.of_picture ?_
    simp only [Session.feed, Driver.step_of_not_awaited awaited other]
    rfl
  | true =>
    obtain ⟨schedule, hp, hd, hr⟩ := h
    generalize hx : (Exchange.new policy capacity).after schedule = x at hp hd hr
    obtain ⟨driver, channel, status, record⟩ := Picture.mk.inj hp
    have woken : x.next (.wake s.now input) =
        { x with
            driver := (s.driver.step s.now input).1
            due := (s.driver.step s.now input).2.map (s.driver.turn s.now input, ·)
            turns := x.turns ++ [s.driver.turn s.now input] } := by
      simp [Exchange.next, hd, driver, awaited, Driver.turn]
    have same : (x.next (.wake s.now input)).picture =
        { s with driver := (s.driver.step s.now input).1 }.picture := by
      simp [woken, Exchange.picture, Session.picture, channel, status, record]
    obtain ⟨hp', hd', hr'⟩ := Exchange.after_acts same (by rw [woken])
    refine ⟨schedule ++ .wake s.now input ::
      .replicate (s.driver.step s.now input).2.length .act, ?_⟩
    rw [Exchange.after_append, hx, Exchange.after_cons]
    refine ⟨hp', hd', hr'.trans ?_⟩
    rw [woken]
    exact hr

/-- So does it when something is ready. -/
theorem advanceOnce (h : s.IsExchange policy capacity events) (ready : s.advanceOnce = some s') :
    s'.IsExchange policy capacity events := by
  unfold Session.advanceOnce at ready
  split at ready
  · obtain rfl := Option.some.inj ready
    refine (h.of_picture ?_).feed _ nofun
    rfl
  · split at ready
    · next stream event _ =>
      obtain rfl := Option.some.inj ready
      refine (h.of_picture ?_).feed _ nofun
      rfl
    · split at ready
      · next due =>
        obtain rfl := Option.some.inj ready
        exact h.feed _ fun _ ↦ due
      · cases ready

theorem runFor (h : s.IsExchange policy capacity events) (fuel : Nat) :
    (Session.runFor fuel s).IsExchange policy capacity events := by
  induction fuel generalizing s with
  | zero => exact h
  | succ fuel ih =>
    rw [Session.runFor]
    split
    · next ready => exact ih (h.advanceOnce ready)
    · exact h

/-- Running until nothing is ready is going on with the exchange. -/
theorem settle (h : s.IsExchange policy capacity events) :
    s.settle.IsExchange policy capacity events :=
  h.runFor s.budget

/-- So is moving the clock. -/
theorem moveTo (h : s.IsExchange policy capacity events) (target : Moment) (fuel : Nat) :
    (Session.moveTo target fuel s).IsExchange policy capacity events := by
  induction fuel generalizing s with
  | zero => exact h.of_picture rfl
  | succ fuel ih =>
    rw [Session.moveTo]
    split
    · split
      · exact ih (.settle (h.of_picture rfl))
      · exact h.of_picture rfl
    · exact h.of_picture rfl

theorem afterDrop (h : s.IsExchange policy capacity events) :
    s.afterDrop.IsExchange policy capacity events := by
  unfold Session.afterDrop
  split
  · exact h
  · exact (h.feed .abandoned nofun).settle

/-- What the source answers does not show. -/
theorem release (h : s.IsExchange policy capacity events) (call : Nat) (script : Script) :
    (s.release call script).1.IsExchange policy capacity events := by
  have answer {s : Session} (h : s.IsExchange policy capacity events)
      (result : Except TransportError StreamId) :
      (s.answer call result).IsExchange policy capacity events := by
    refine h.of_picture ?_
    unfold Session.answer
    split <;> rfl
  cases script with
  | accept waiting =>
    simp only [Session.release]
    split
    · refine answer (h.of_picture ?_) _
      rfl
    · exact h.of_picture rfl
  | refuse e =>
    simp only [Session.release]
    split
    · exact answer h _
    · exact h
  | hang => exact h

/-- Whatever is done to a session goes on with the exchange. -/
theorem perform (h : s.IsExchange policy capacity events) (action : Action) :
    (s.perform action).1.IsExchange policy capacity events := by
  cases action with
  | command c =>
    simp only [Session.perform]
    split
    · exact h
    · split
      · exact h
      · exact (h.feed (.command c) nofun).settle
  | clone =>
    simp only [Session.perform]
    split
    · exact h.of_picture rfl
    · exact h
  | dropMain => exact afterDrop (s := { s with hasMainHandle := false }) (h.of_picture rfl)
  | dropClones => exact afterDrop (s := { s with clones := 0 }) (h.of_picture rfl)
  | dropEvents =>
    obtain ⟨schedule, hp, hd, hr⟩ := h
    obtain ⟨driver, channel, status, record⟩ := Picture.mk.inj hp
    refine ⟨schedule ++ [.leave], ?_⟩
    rw [Exchange.after_append]
    refine ⟨?_, hd, hr⟩
    simp [Exchange.after_cons, Exchange.after_nil, Exchange.next, Exchange.picture,
      Session.picture, Session.perform, driver, channel, status, record]
  | frames stream arrivals =>
    simp only [Session.perform]
    split
    · exact h
    · split
      · exact h
      · split
        · exact .settle (h.of_picture rfl)
        · exact h
  | release call script => exact (h.release call script).settle
  | advance millis => exact (h.moveTo _ _).settle
  | drain => exact h

/-- What the consumer reads, it receives. -/
theorem read (h : s.IsExchange policy capacity events) (eager : Bool) (action : Action) :
    (s.read eager action).1.IsExchange policy capacity
      (events ++ (s.read eager action).2) := by
  have receive (n : Nat) : { s with channel := (s.channel.receive n).1 }.IsExchange policy capacity
      (events ++ (s.channel.receive n).2) := by
    obtain ⟨schedule, hp, hd, hr⟩ := h
    obtain ⟨driver, channel, status, record⟩ := Picture.mk.inj hp
    obtain ⟨hp', hd', hr'⟩ :=
      ((Exchange.new policy capacity).after schedule).after_receives n
    refine ⟨schedule ++ .replicate n .receive, ?_⟩
    rw [Exchange.after_append]
    refine ⟨hp'.trans ?_, hd'.trans hd, hr'.trans ?_⟩
    · rw [hp, channel]
      rfl
    · rw [hr, channel]
  cases action with
  | drain most =>
    cases most with
    | some most => exact receive most
    | none => exact receive s.channel.buffer.length
  | _ =>
    cases eager with
    | true => exact receive s.channel.buffer.length
    | false => simpa [Session.read] using h

theorem performAll (h : s.IsExchange policy capacity events) (eager : Bool)
    (actions : List Action) :
    (s.performAll eager actions).1.IsExchange policy capacity
      (events ++ (s.performAll eager actions).2) := by
  induction actions generalizing s events with
  | nil => simpa [Session.performAll] using h
  | cons action rest ih =>
    have more := ih ((h.perform action).read eager action)
    rwa [List.append_assoc] at more

end IsExchange

/-- Every session is an exchange. -/
theorem isExchange_performAll_new (policy : RetryPolicy) (capacity : Nat) (scripts : List Script)
    (eager : Bool) (actions : List Action) :
    ((new policy capacity scripts).performAll eager actions).1.IsExchange policy capacity
      ((new policy capacity scripts).performAll eager actions).2 := by
  have start : (new policy capacity scripts).IsExchange policy capacity [] := ⟨[], rfl, rfl, rfl⟩
  exact start.performAll eager actions

/-- In every session the watch holds the status of the machine. -/
theorem status_performAll_new (policy : RetryPolicy) (capacity : Nat) (scripts : List Script)
    (eager : Bool) (actions : List Action) :
    ((new policy capacity scripts).performAll eager actions).1.status =
      ((new policy capacity scripts).performAll eager actions).1.driver.machine.status := by
  obtain ⟨schedule, hp, hd, -⟩ :=
    isExchange_performAll_new policy capacity scripts eager actions
  obtain ⟨driver, -, status, -⟩ := Picture.mk.inj hp
  have settled := (Exchange.reachable_after policy capacity schedule).settles_due
  rw [hd, driver, status] at settled
  exact settled

end Session

end Quoteboard.Client
