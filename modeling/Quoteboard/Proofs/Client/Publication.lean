import Quoteboard.Proofs.Client.Buffering
import Quoteboard.Proofs.Client.EventGrammar

/-!
# The watch and the events

The status of a driver is published by hand, and only where it may have changed. Yet the watch holds
the status of the machine whenever the driver waits, and a turn that changes the status publishes it
before it tells anything. So a consumer who looks at the watch on receiving an event finds what the
event reports, or something later.
-/

namespace Quoteboard.Client

open Quoteboard.Connection Quoteboard.Metrics Quoteboard.Transport

/-- What an event reports of the status at the moment when it is told. -/
def ClientEvent.Reports : ClientEvent → Status → Prop
  | .opened, s => s.state = .connected ∧ s.attempts = 0 ∧ s.exhausted = false ∧ s.lastError = none
  | .message _, s | .error (.protocol _), s => s.state = .connected
  | .error (.transport e), s =>
    s.lastError = some e.message ∧
      (s.state = .error ∧ s.exhausted = false ∨ s.state = .disconnected ∧ s.exhausted = true)
  | .error (.exhausted n), s => s.state = .disconnected ∧ s.exhausted = true ∧ s.maxAttempts = n
  | .closed, s => s.state ≠ .connected

/-- Some effects publish a status before they tell anything, unless it is published already, and
nothing else after it. -/
def Settles (target : Status) : Status → List Effect → Prop
  | published, [] => published = target
  | published, effect :: rest =>
    (effect.event?.isSome = true → published = target) ∧
      Settles target (effect.published?.getD published) rest

variable {d d' : Driver} {now : Moment} {input : Input} {effects more : List Effect}
  {policy : RetryPolicy} {capacity : Nat} {turns : List Turn} {s target : Status}

/-! ### What a turn publishes and tells -/

@[simp] theorem settles_nil : Settles target s [] ↔ s = target := Iff.rfl

@[simp] theorem settles_publish (s' : Status) :
    Settles target s (.publish s' :: effects) ↔ Settles target s' effects := by
  simp [Settles, Effect.event?, Effect.published?]

@[simp] theorem settles_emit (event : ClientEvent) :
    Settles target s (.emit event :: effects) ↔ s = target ∧ Settles target s effects := by
  simp [Settles, Effect.event?, Effect.published?]

@[simp] theorem settles_record (r : Recording) :
    Settles target s (.record r :: effects) ↔ Settles target s effects := by
  simp [Settles, Effect.event?, Effect.published?]

@[simp] theorem settles_connect :
    Settles target s (.connect :: effects) ↔ Settles target s effects := by
  simp [Settles, Effect.event?, Effect.published?]

@[simp] theorem settles_cancelConnect :
    Settles target s (.cancelConnect :: effects) ↔ Settles target s effects := by
  simp [Settles, Effect.event?, Effect.published?]

@[simp] theorem settles_closeStream (stream : StreamId) :
    Settles target s (.closeStream stream :: effects) ↔ Settles target s effects := by
  simp [Settles, Effect.event?, Effect.published?]

@[simp] theorem settles_acknowledge :
    Settles target s (.acknowledge :: effects) ↔ Settles target s effects := by
  simp [Settles, Effect.event?, Effect.published?]

/-- Giving up what is held publishes and tells nothing. -/
@[simp] theorem settles_release (d : Driver) :
    Settles target s (d.release ++ effects) ↔ Settles target s effects := by
  unfold Driver.release
  cases d.pending <;> cases d.stream <;> simp

/-- The closing of what is held may be told when the status is published. -/
theorem settles_closing (d : Driver) (h : Settles target target effects) :
    Settles target target (d.closing ++ effects) := by
  unfold Driver.closing
  split
  · simpa using h
  · exact h

/-- A closing publishes what it changes. -/
theorem settles_close (m : Machine) (h : Settles m.close.1.status m.close.1.status effects) :
    Settles m.close.1.status m.status
      ((if m.closed then [] else [.publish m.close.1.status]) ++ effects) := by
  cases hc : m.closed with
  | true =>
    rw [Machine.close_of_closed hc] at h ⊢
    exact h
  | false => simpa using h

/-- A failure is published, then told. -/
theorem Failure.settles {m : Machine} {e : TransportError} (f : Failure m now e d' effects)
    (h : Settles d'.machine.status d'.machine.status more) :
    Settles d'.machine.status s (effects ++ more) := by
  cases f with
  | retry => simpa using h
  | exhausted => simpa using h

/-- Every turn publishes what it makes of the status before it tells anything. -/
theorem Move.settles (move : Move now d input d' effects) :
    Settles d'.machine.status d.machine.status effects := by
  cases move with
  | connect => simpa using settles_closing d (by simp)
  | retry => simpa using settles_closing d (by simp)
  | close h =>
    subst h
    simpa using settles_close d.machine (settles_closing d (by simp))
  | abandoned h =>
    subst h
    simpa using settles_close d.machine (settles_closing d (settles_nil.mpr rfl))
  | opened => simp
  | refused _ failure => simpa using failure.settles (settles_nil.mpr rfl)
  | data => simp
  | closed => simp
  | failed _ failure => simpa using failure.settles (by simp)
  | timer => simp

/-- What a failure tells is so after it. -/
theorem Failure.reports {m : Machine} {e : TransportError} (f : Failure m now e d' effects)
    (active : m.exhausted = false) :
    d'.machine.state ≠ .connected ∧ ∀ event ∈ events effects, event.Reports d'.machine.status := by
  cases f with
  | retry _ h => simp [h, ClientEvent.Reports, Machine.status, active]
  | exhausted _ h => simp [h, ClientEvent.Reports, Machine.status]

/-- What a turn tells is so after it. -/
theorem Move.reports (move : Move now d input d' effects) (hd : d.Coherent) :
    ∀ event ∈ events effects, event.Reports d'.machine.status := by
  have closing (h : d'.machine.state ≠ .connected) :
      ∀ event ∈ events d.closing, event.Reports d'.machine.status := by
    rw [events_closing]
    split
    · exact List.forall_mem_singleton.mpr h
    · exact List.forall_mem_nil _
  cases move with
  | connect h =>
    subst h
    simpa using closing nofun
  | retry h =>
    subst h
    simpa using closing nofun
  | close h =>
    subst h
    have state := hd.sound.state_close
    split <;> simpa using closing (by simp [state])
  | abandoned h =>
    subst h
    have state := hd.sound.state_close
    split <;> simpa using closing (by simp [state])
  | opened state h =>
    subst h
    have active := hd.sound.exhausted_of_active (Machine.isActive_of_connecting state)
    simpa [ClientEvent.Reports, Machine.status] using active
  | refused state failure =>
    exact (failure.reports (hd.sound.exhausted_of_active
      (Machine.isActive_of_connecting state))).2
  | @data m stream payload state =>
    rcases ofPayload_cases payload with ⟨_, h⟩ | ⟨_, h⟩ <;>
      simpa [h, ClientEvent.Reports, Machine.status] using state
  | closed _ h => simp [h, ClientEvent.Reports, Machine.status]
  | failed state failure =>
    obtain ⟨ended, told⟩ := failure.reports (hd.sound.exhausted_of_active
      (Machine.isActive_of_connected state))
    intro event he
    rw [List.cons_append, events_closeStream, events_append, List.mem_append] at he
    rcases he with he | he
    · exact told event he
    · obtain rfl := List.mem_singleton.mp he
      exact ended
  | timer => simp

/-! ### What the watch holds -/

namespace Exchange

variable {x : Exchange}

/-- How the watch and the events of an exchange go together. -/
structure Informs (x : Exchange) : Prop where
  /-- Every turn publishes what it makes of the status before it tells anything. -/
  settles : ∀ t ∈ x.turns, Settles t.after.machine.status t.before.machine.status t.effects
  /-- Between turns the watch holds the status of the machine. -/
  status_eq : x.due = [] → x.status = x.driver.machine.status
  /-- Exactly those events have been told that the turns call for, in order, less those that are
  still due. -/
  told : x.tellings.map (fun m ↦ (m.turn, m.event)) ++ x.untold = tellsOf x.turns
  /-- When an event is told, the watch holds the status that its turn leads to. -/
  status_of_telling : ∀ m ∈ x.tellings, m.status = m.turn.after.machine.status
  /-- That is a status which the event reports. -/
  reports : ∀ m ∈ x.tellings, m.event.Reports m.status
  /-- From then on the watch holds this status or a later one. -/
  not_older : ∀ m ∈ x.tellings, (m.status :: m.earlier) <:+ (x.status :: x.earlier)
  /-- The events that the consumer has received are some of those told. -/
  received : x.obtained.map (·.event) = x.received ∧ x.obtained.Sublist x.tellings

/-- What is due publishes the status of the machine before anything of it is told. -/
theorem Reachable.settles_due (h : Reachable policy capacity x) :
    Settles x.driver.machine.status x.status (x.due.map (·.2)) := by
  induction h with
  | start => rfl
  | @step x _ reached step ih =>
    cases step with
    | woken now input ready awaited =>
      have move := (reached.run.coherent (Driver.coherent_new policy)).move awaited
      have published : x.status = x.driver.machine.status := by simpa [ready] using ih
      simpa [published, Driver.turn, Function.comp_def] using move.settles
    | published h => simpa [h] using ih
    | told h =>
      have rest := ih
      rw [h, List.map_cons, settles_emit] at rest
      exact rest.2
    | recorded h => simpa [h] using ih
    | @done _ effect _ h silent =>
      cases effect with
      | connect => simpa [h] using ih
      | cancelConnect => simpa [h] using ih
      | closeStream => simpa [h] using ih
      | acknowledge => simpa [h] using ih
      | publish => cases silent
      | emit => cases silent
      | record => cases silent
    | idle => exact ih
    | received => exact ih
    | left => exact ih

/-- The watch holds the status that a turn leads to when the turn tells an event, and a later one at
most ever after. -/
theorem Reachable.status_of_telling (h : Reachable policy capacity x) :
    ∀ m ∈ x.tellings, m.turn ∈ x.turns ∧ m.event ∈ events m.turn.effects ∧
      m.status = m.turn.after.machine.status ∧
      (m.status :: m.earlier) <:+ (x.status :: x.earlier) := by
  induction h with
  | start => simp [Exchange.new]
  | @step x _ reached step ih =>
    cases step with
    | @told turn event rest due =>
      intro m hm
      rcases List.mem_append.mp hm with hm | hm
      · exact ih m hm
      · obtain rfl := List.mem_singleton.mp hm
        obtain ⟨ht, he, after⟩ := reached.turn_of_due _ (due ▸ List.mem_cons_self ..)
        have settles := reached.settles_due
        rw [due, List.map_cons, settles_emit] at settles
        refine ⟨ht, List.mem_filterMap.mpr ⟨_, he, rfl⟩, ?_, List.suffix_rfl⟩
        exact settles.1.trans (congrArg (·.machine.status) after.symm)
    | woken now input ready awaited =>
      intro m hm
      obtain ⟨ht, rest⟩ := ih m hm
      exact ⟨List.mem_append_left _ ht, rest⟩
    | published h =>
      intro m hm
      obtain ⟨ht, he, hs, older⟩ := ih m hm
      exact ⟨ht, he, hs, older.trans (List.suffix_cons ..)⟩
    | recorded => exact ih
    | done => exact ih
    | idle => exact ih
    | received => exact ih
    | left => exact ih

/-- Whatever the inputs and the pace of the consumer: between turns the watch holds the status of the
machine, and when an event is told it holds what the event reports. So whoever receives the event
finds nothing older there. -/
theorem informs_after (policy : RetryPolicy) (capacity : Nat) (schedule : List Happening) :
    ((new policy capacity).after schedule).Informs := by
  have reached := reachable_after policy capacity schedule
  have moves := fun t ht ↦ reached.run.move_of_mem (t := t) (Driver.coherent_new policy) ht
  refine ⟨fun t ht ↦ (moves t ht).2.settles, ?_, reached.tellings_append_untold,
    fun m hm ↦ (reached.status_of_telling m hm).2.2.1, ?_,
    fun m hm ↦ (reached.status_of_telling m hm).2.2.2, reached.kept_eq.1, ?_⟩
  · intro ready
    simpa [ready] using reached.settles_due
  · intro m hm
    obtain ⟨ht, he, hs, -⟩ := reached.status_of_telling m hm
    obtain ⟨hd, move⟩ := moves m.turn ht
    rw [hs]
    exact move.reports hd m.event he
  · exact (List.take_sublist ..).trans List.filter_sublist

end Exchange

end Quoteboard.Client
