import Quoteboard.Client.Driver
import Quoteboard.Proofs.Connection.Soundness

/-!
# Runs of the driver

A run is a list of turns: in each the driver takes an input that it waits for. Which of these
inputs comes next and how the clock moves is left open, so a statement about runs holds for every
order in which commands, connections, frames and timers can come.

What a driver holds always goes with the state of its machine, under the current generation. From
this follows, rule by rule, all that a turn can do: no rule has a place for a stale event.
-/

namespace Quoteboard.Client

open Quoteboard.Connection Quoteboard.Metrics Quoteboard.Transport

/-- One turn of a driver: what it was, the moment and the input that woke it, what it became, and
what it did. -/
structure Turn where
  before : Driver
  now : Moment
  input : Input
  after : Driver
  effects : List Effect

/-- The turn that an input makes a driver take. -/
def Driver.turn (d : Driver) (now : Moment) (input : Input) : Turn :=
  ⟨d, now, input, (d.step now input).1, (d.step now input).2⟩

/-- The turns by which a driver becomes another. -/
inductive Run : Driver → List Turn → Driver → Prop where
  | nil (d : Driver) : Run d [] d
  | cons {d d' : Driver} {turns : List Turn} (now : Moment) (input : Input)
      (awaited : d.awaits now input = true) (rest : Run (d.step now input).1 turns d') :
      Run d (d.turn now input :: turns) d'

/-- The turns that inputs make a driver take, each at its moment, and what it becomes, unless it
does not wait for one of them. -/
def Driver.run? (d : Driver) : List (Moment × Input) → Option (List Turn × Driver)
  | [] => some ([], d)
  | (now, input) :: rest =>
    if d.awaits now input then
      ((d.step now input).1.run? rest).map fun r ↦ (d.turn now input :: r.1, r.2)
    else none

/-- A first connection that fails after one payload, and a retry that is refused. -/
def sampleInputs : List (Moment × Input) :=
  [(0, .command .connect), (1, .resolved (.ok 7)), (2, .received (.data (.text "?"))),
    (3, .received (.failed .dropped)), (2003, .retryTimer), (2004, .resolved (.error .dropped))]

/-- A connection that is replaced on request after one payload, and another that brings two before
the peer closes it. -/
def replacedInputs : List (Moment × Input) :=
  [(0, .command .connect), (1, .resolved (.ok 7)), (2, .received (.data (.text "?"))),
    (3, .command .connect), (4, .resolved (.ok 8)), (5, .received (.data (.text "!"))),
    (6, .received (.data (.binary .empty))), (7, .received .closed)]

/-- A driver is in a state if its machine is, and if it holds what goes with that state, under the
current generation of the machine, and nothing else. -/
inductive Driver.IsIn : Driver → State → Prop where
  /-- Nothing is held. -/
  | disconnected {m : Machine} {running : Bool} (h : m.state = .disconnected) :
      IsIn ⟨m, none, none, none, running⟩ .disconnected
  /-- Only an attempt is held. -/
  | connecting {m : Machine} (h : m.state = .connecting) :
      IsIn ⟨m, some m.generation, none, none, true⟩ .connecting
  /-- Only a connection is held. -/
  | connected {m : Machine} (stream : StreamId) (h : m.state = .connected) :
      IsIn ⟨m, none, some (m.generation, stream), none, true⟩ .connected
  /-- Only a retry is held. -/
  | error {m : Machine} (due : Moment) (h : m.state = .error) :
      IsIn ⟨m, none, none, some (due, m.generation), true⟩ .error

/-- A driver whose machine is sound and which is in some state. -/
structure Driver.Coherent (d : Driver) : Prop where
  sound : d.machine.Sound
  isIn : ∃ state, d.IsIn state

/-- What a failure makes of a driver that held only what failed, and what it has it tell. -/
inductive Failure (m : Machine) (now : Moment) (e : TransportError) :
    Driver → List Effect → Prop where
  /-- A retry is left. -/
  | retry {m' : Machine} (left : m.attempts < m.policy.maxAttempts)
      (h : m' =
        { m with state := .error, attempts := m.attempts + 1, lastError := some e.message }) :
      Failure m now e
        ⟨m', none, none, some (now + m.policy.delayMillis, m'.generation), true⟩
        [.publish m'.status, .emit (.error (.transport e))]
  /-- No retry is left. -/
  | exhausted {m' : Machine} (used : m.policy.maxAttempts ≤ m.attempts)
      (h : m' =
        { m with state := .disconnected, exhausted := true, lastError := some e.message }) :
      Failure m now e ⟨m', none, none, none, true⟩
        [.publish m'.status, .emit (.error (.transport e)),
          .emit (.error (.exhausted m.policy.maxAttempts))]

/-- What a coherent driver makes of an input that it waits for, rule by rule. -/
inductive Move (now : Moment) : Driver → Input → Driver → List Effect → Prop where
  /-- Whatever is held gives way to a new attempt. -/
  | connect {d : Driver} {m : Machine} (h : m = d.machine.beginAttempt.1) :
      Move now d (.command .connect) ⟨m, some m.generation, none, none, true⟩
        (d.release ++ .publish m.status :: d.closing ++ [.connect])
  /-- The same, with the retries used so far forgotten. -/
  | retry {d : Driver} {m : Machine} (h : m = d.machine.manualRetry.1) :
      Move now d (.command .retry) ⟨m, some m.generation, none, none, true⟩
        (.record (.one (.reconnects true)) ::
          (d.release ++ .publish m.status :: d.closing ++ [.connect]))
  /-- Whatever is held is given up. -/
  | close {d : Driver} {m : Machine} (h : m = d.machine.close.1) :
      Move now d (.command .close) ⟨m, none, none, none, true⟩
        (d.release ++ (if d.machine.closed then [] else [.publish m.status]) ++ d.closing
          ++ [.acknowledge])
  /-- The same, for good. -/
  | abandoned {d : Driver} {m : Machine} (h : m = d.machine.close.1) :
      Move now d .abandoned ⟨m, none, none, none, false⟩
        (d.release ++ (if d.machine.closed then [] else [.publish m.status]) ++ d.closing)
  /-- The attempt opens a connection. -/
  | opened {m m' : Machine} {stream : StreamId} (state : m.state = .connecting)
      (h : m' = { m with state := .connected, attempts := 0, lastError := none }) :
      Move now ⟨m, some m.generation, none, none, true⟩ (.resolved (.ok stream))
        ⟨m', none, some (m'.generation, stream), none, true⟩
        [.publish m'.status, .emit .opened]
  /-- The attempt fails. -/
  | refused {m : Machine} {e : TransportError} {d' : Driver} {effects : List Effect}
      (state : m.state = .connecting) (failure : Failure m now e d' effects) :
      Move now ⟨m, some m.generation, none, none, true⟩ (.resolved (.error e)) d' effects
  /-- A payload comes in. -/
  | data {m : Machine} {stream : StreamId} {payload : Market.Feed.Payload}
      (state : m.state = .connected) :
      Move now ⟨m, none, some (m.generation, stream), none, true⟩ (.received (.data payload))
        ⟨m, none, some (m.generation, stream), none, true⟩ [.emit (.ofPayload payload)]
  /-- The peer closes the connection in the normal way. -/
  | closed {m m' : Machine} {stream : StreamId} (state : m.state = .connected)
      (h : m' = { m with state := .disconnected }) :
      Move now ⟨m, none, some (m.generation, stream), none, true⟩ (.received .closed)
        ⟨m', none, none, none, true⟩
        [.closeStream stream, .publish m'.status, .emit .closed]
  /-- The connection fails. -/
  | failed {m : Machine} {stream : StreamId} {e : TransportError} {d' : Driver}
      {effects : List Effect} (state : m.state = .connected)
      (failure : Failure m now e d' effects) :
      Move now ⟨m, none, some (m.generation, stream), none, true⟩ (.received (.failed e)) d'
        (.closeStream stream :: effects ++ [.emit .closed])
  /-- The retry is due. -/
  | timer {m m' : Machine} {due : Moment} (state : m.state = .error) (reached : due ≤ now)
      (h : m' = m.beginAttempt.1) :
      Move now ⟨m, none, none, some (due, m.generation), true⟩ .retryTimer
        ⟨m', some m'.generation, none, none, true⟩
        [.record (.one (.reconnects false)), .publish m'.status, .connect]

namespace Driver

variable {d d' : Driver} {now : Moment} {input : Input} {effects : List Effect}
  {policy : RetryPolicy} {turns : List Turn}

/-- A driver is in no state but that of its machine. -/
theorem IsIn.state_eq {s : State} (h : d.IsIn s) : s = d.machine.state := by
  cases h with
  | disconnected h => exact h.symm
  | connecting h => exact h.symm
  | connected _ h => exact h.symm
  | error _ h => exact h.symm

/-- A driver that has not connected yet is coherent. -/
theorem coherent_new (policy : RetryPolicy) : (new policy).Coherent :=
  ⟨.new policy, .disconnected, .disconnected rfl⟩

private theorem fail_active {m : Machine} (ha : m.isActive = true) (now : Moment)
    (e : TransportError) :
    Failure m now e (fail ⟨m, none, none, none, true⟩ now m.generation e).1
      (fail ⟨m, none, none, none, true⟩ now m.generation e).2 := by
  by_cases hl : m.attempts < m.policy.maxAttempts
  · simp only [fail, Machine.onFailure_of_lt ha hl]
    exact .retry hl rfl
  · have hu := Nat.not_lt.mp hl
    simp only [fail, Machine.onFailure_of_le ha hu]
    exact .exhausted hu rfl

private theorem shutdown_eq (d : Driver) :
    d.shutdown =
      (⟨d.machine.close.1, none, none, none, d.running⟩,
        d.release ++ (if d.machine.closed then [] else [.publish d.machine.close.1.status])
          ++ d.closing) := by
  cases hc : d.machine.closed <;> simp [shutdown, Machine.close, hc]

/-- A coherent driver takes every input that it waits for by one of the rules. -/
theorem Coherent.move (h : d.Coherent) (awaited : d.awaits now input = true) :
    Move now d input (d.step now input).1 (d.step now input).2 := by
  obtain ⟨hs, state, hi⟩ := h
  cases input with
  | command c =>
    obtain ⟨m, pending, stream, retryAt, running⟩ := d
    obtain rfl : running = true := awaited
    cases c with
    | connect => exact .connect rfl
    | retry => exact .retry rfl
    | close =>
      simp only [step, shutdown_eq]
      exact .close rfl
  | abandoned =>
    have hr : d.running = true := awaited
    simp only [step, hr, shutdown_eq]
    exact .abandoned rfl
  | resolved result =>
    cases hi with
    | disconnected => simp [awaits] at awaited
    | connected => simp [awaits] at awaited
    | error => simp [awaits] at awaited
    | connecting hc =>
      cases result with
      | ok stream =>
        simp only [step, resolve, Machine.onOpen_of_connecting hc]
        exact .opened hc rfl
      | error e =>
        exact .refused hc (fail_active (Machine.isActive_of_connecting hc) now e)
  | received event =>
    cases hi with
    | disconnected => simp [awaits] at awaited
    | connecting => simp [awaits] at awaited
    | error => simp [awaits] at awaited
    | connected stream hc =>
      have ha := Machine.isActive_of_connected hc
      cases event with
      | data payload => exact .data hc
      | closed =>
        simp only [step, receive, Machine.onClosed_of_active ha]
        exact .closed hc rfl
      | failed e => exact .failed hc (fail_active ha now e)
  | retryTimer =>
    cases hi with
    | disconnected => simp [awaits] at awaited
    | connecting => simp [awaits] at awaited
    | connected => simp [awaits] at awaited
    | error due hc =>
      have reached : due ≤ now := by simpa [awaits] using awaited
      have hd := (hs.retryDue_iff _).mpr ⟨hc, rfl⟩
      simp only [step, hd]
      exact .timer hc reached rfl

end Driver

variable {d d' d'' : Driver} {now : Moment} {input : Input} {effects : List Effect}
  {policy : RetryPolicy} {turns more : List Turn}

/-- What a failure leaves is coherent. -/
theorem Failure.coherent {m : Machine} {e : TransportError} (hs : m.Sound)
    (ha : m.isActive = true) (f : Failure m now e d' effects) : d'.Coherent := by
  have hf := hs.onFailure m.generation e.message
  cases f with
  | retry left h =>
    rw [Machine.onFailure_of_lt ha left] at hf
    subst h
    exact ⟨hf, .error, .error _ rfl⟩
  | exhausted used h =>
    rw [Machine.onFailure_of_le ha used] at hf
    subst h
    exact ⟨hf, .disconnected, .disconnected rfl⟩

/-- Every rule leaves a coherent driver coherent. -/
theorem Move.coherent (move : Move now d input d' effects) (hd : d.Coherent) :
    d'.Coherent := by
  have hs := hd.sound
  cases move with
  | connect h =>
    subst h
    exact ⟨hs.beginAttempt, .connecting, .connecting rfl⟩
  | retry h =>
    subst h
    exact ⟨hs.manualRetry, .connecting, .connecting rfl⟩
  | close h =>
    subst h
    exact ⟨hs.close, .disconnected, .disconnected hs.state_close⟩
  | abandoned h =>
    subst h
    exact ⟨hs.close, .disconnected, .disconnected hs.state_close⟩
  | @opened m _ _ state h =>
    have ho := hs.onOpen m.generation
    rw [Machine.onOpen_of_connecting state] at ho
    subst h
    exact ⟨ho, .connected, .connected _ rfl⟩
  | refused state failure => exact failure.coherent hs (Machine.isActive_of_connecting state)
  | data => exact hd
  | @closed m _ _ state h =>
    have hc := hs.onClosed m.generation
    rw [Machine.onClosed_of_active (Machine.isActive_of_connected state)] at hc
    subst h
    exact ⟨hc, .disconnected, .disconnected rfl⟩
  | failed state failure => exact failure.coherent hs (Machine.isActive_of_connected state)
  | timer state reached h =>
    subst h
    exact ⟨hs.beginAttempt, .connecting, .connecting rfl⟩

/-- No failure changes the policy. -/
theorem Failure.policy_eq {m : Machine} {e : TransportError} (f : Failure m now e d' effects) :
    d'.machine.policy = m.policy := by
  cases f with
  | retry _ h => rw [h]
  | exhausted _ h => rw [h]

/-- No rule changes the policy. -/
theorem Move.policy_eq (move : Move now d input d' effects) :
    d'.machine.policy = d.machine.policy := by
  cases move with
  | connect h => rw [h]; rfl
  | retry h => rw [h]; rfl
  | close h => rw [h]; exact (Machine.close_fields _).1
  | abandoned h => rw [h]; exact (Machine.close_fields _).1
  | opened _ h => rw [h]
  | refused _ failure => exact failure.policy_eq
  | data => rfl
  | closed _ h => rw [h]
  | failed _ failure => exact failure.policy_eq
  | timer _ _ h => rw [h]; rfl

namespace Run

/-- What inputs make of a driver is a run of it. -/
theorem of_run? {inputs : List (Moment × Input)} (h : d.run? inputs = some (turns, d')) :
    Run d turns d' := by
  induction inputs generalizing d turns with
  | nil =>
    cases h
    exact .nil _
  | cons wake rest ih =>
    rw [Driver.run?] at h
    split at h
    · next awaited =>
      obtain ⟨⟨later, last⟩, hr, he⟩ := Option.map_eq_some_iff.mp h
      cases he
      exact .cons _ _ awaited (ih hr)
    · cases h

/-- A run can be computed from its inputs. -/
theorem run?_eq (run : Run d turns d') :
    d.run? (turns.map fun t ↦ (t.now, t.input)) = some (turns, d') := by
  induction run with
  | nil => rfl
  | cons now input awaited _ ih =>
    simp only [List.map_cons, Driver.turn, Driver.run?]
    rw [if_pos awaited, ih]
    rfl

/-- Runs that follow one another make one run. -/
theorem append (run : Run d turns d') (rest : Run d' more d'') : Run d (turns ++ more) d'' := by
  induction run with
  | nil => exact rest
  | cons now input awaited _ ih => exact .cons now input awaited (ih rest)

/-- A run can be cut anywhere. -/
theorem split (run : Run d (turns ++ more) d'') : ∃ d', Run d turns d' ∧ Run d' more d'' := by
  induction turns generalizing d with
  | nil => exact ⟨d, .nil d, run⟩
  | cons t turns ih =>
    cases run with
    | cons now input awaited rest =>
      obtain ⟨d', first, second⟩ := ih rest
      exact ⟨d', .cons now input awaited first, second⟩

/-- Induction along a run: what holds at first and after each further turn of a coherent driver
holds after the run. -/
theorem induction {P : List Turn → Driver → Prop} (start : d.Coherent) (nil : P [] d)
    (snoc : ∀ {turns d₁ now input d₂ effects}, Run d turns d₁ → d₁.Coherent → P turns d₁ →
      Move now d₁ input d₂ effects → P (turns ++ [⟨d₁, now, input, d₂, effects⟩]) d₂)
    (run : Run d turns d') : P turns d' := by
  suffices h : ∀ {before d₁}, Run d before d₁ → d₁.Coherent → P before d₁ → Run d₁ turns d' →
      P (before ++ turns) d' from h (.nil d) start nil run
  intro before d₁ sofar hc hp rest
  clear run
  induction rest generalizing before with
  | nil => simpa using hp
  | @cons d₁ d' turns now input awaited rest ih =>
    have move := hc.move awaited
    have next := ih (sofar.append (.cons now input awaited (.nil _))) (move.coherent hc)
      (snoc sofar hc hp move)
    simpa using next

/-- A driver stays coherent along a run. -/
theorem coherent (run : Run d turns d') (h : d.Coherent) : d'.Coherent :=
  run.induction (P := fun _ d ↦ d.Coherent) h h fun _ hc _ move ↦ move.coherent hc

/-- A run can be cut around any turn, which follows one of the rules. -/
theorem split_turn {t : Turn} (run : Run d (turns ++ t :: more) d') (h : d.Coherent) :
    Run d turns t.before ∧ Run d (turns ++ [t]) t.after ∧ Run t.after more d' ∧
      Move t.now t.before t.input t.after t.effects := by
  obtain ⟨d₁, first, second⟩ := run.split
  cases second with
  | cons now input awaited rest =>
    have through := first.append (.cons now input awaited (.nil _))
    exact ⟨first, through, rest, (first.coherent h).move awaited⟩

/-- The policy stays the same along a run. -/
theorem policy_eq (run : Run d turns d') (h : d.Coherent) :
    d'.machine.policy = d.machine.policy :=
  run.induction (P := fun _ d₁ ↦ d₁.machine.policy = d.machine.policy) h rfl
    fun _ _ ih move ↦ move.policy_eq.trans ih

/-- Each turn of a run is one of a coherent driver and follows one of the rules. -/
theorem move_of_mem (run : Run d turns d') (h : d.Coherent) {t : Turn} (ht : t ∈ turns) :
    t.before.Coherent ∧ Move t.now t.before t.input t.after t.effects := by
  induction run with
  | nil => cases ht
  | cons now input awaited _ ih =>
    have move := h.move awaited
    cases ht with
    | head => exact ⟨h, move⟩
    | tail _ ht => exact ih (move.coherent h) ht

end Run

end Quoteboard.Client
