import Quoteboard.Proofs.Client.Reconnection
import Quoteboard.Proofs.Client.Transports

/-!
# Closing a client

A client can be closed whatever it is about, and as often as one likes. What it had under way or
open is given up, which is told only if a connection was open, and only then the closing is
acknowledged. From there on nothing can wake it but its owner, so nothing is done, told or published
until it is asked to connect again. When all have left it, the same happens for good.
-/

namespace Quoteboard.Client

open Quoteboard.Connection Quoteboard.Metrics Quoteboard.Transport

/-- A driver that is closed, with nothing left that could wake it. -/
structure Driver.IsShut (d : Driver) : Prop where
  closed : d.machine.closed = true
  state : d.machine.state = .disconnected
  pending : d.pending = none
  stream : d.stream = none
  retryAt : d.retryAt = none

/-- A turn that gives up all there is. -/
structure Turn.TearsDown (t : Turn) : Prop where
  isShut : t.after.IsShut
  /-- An attempt that is under way is given up. -/
  cancel_iff : .cancelConnect ∈ t.effects ↔ t.before.pending.isSome = true
  /-- A connection that is open is closed. -/
  closedBy_eq : closedBy t.effects = t.before.held
  /-- That is told if there was one, and nothing else is told. -/
  events_eq : events t.effects = if t.before.stream.isSome then [.closed] else []
  connect : .connect ∉ t.effects

/-- A turn in which nothing happens, but that a closing may be acknowledged. -/
structure Turn.IsIdle (t : Turn) : Prop where
  input : t.input ≠ .retryTimer
  effects : ∀ e ∈ t.effects, e = .acknowledge
  machine : t.after.machine = t.before.machine

/-- What comes of closing a driver at a moment, and of leaving it. -/
structure Driver.Stops (d : Driver) (now : Moment) : Prop where
  close : (d.turn now (.command .close)).TearsDown
  /-- A closing is acknowledged when all else is done. -/
  acknowledge : ∃ before, (d.turn now (.command .close)).effects = before ++ [.acknowledge] ∧
    .acknowledge ∉ before
  /-- After a closing nothing happens, at whatever time, up to the next request. -/
  idle : ∀ (later : List Turn) (d' : Driver), Run (d.turn now (.command .close)).after later d' →
    (∀ t ∈ later, t.input.isRequest = false) → ∀ t ∈ later, t.IsIdle
  abandoned : (d.turn now .abandoned).TearsDown
  /-- A driver that all have left takes no further turn. -/
  final : ∀ (later : List Turn) (d' : Driver), Run (d.turn now .abandoned).after later d' →
    later = []

variable {d d' : Driver} {now : Moment} {input : Input} {effects : List Effect}
  {policy : RetryPolicy} {turns : List Turn}

/-! ### Giving up what there is -/

/-- The effects of closing a driver, with the status that is published if it was not closed. -/
def Driver.ending (d : Driver) (status : Status) : List Effect :=
  d.release ++ (if d.machine.closed then [] else [.publish status]) ++ d.closing

/-- No part of an ending acknowledges it, or asks for a connection. -/
theorem not_mem_ending (d : Driver) (status : Status) :
    .acknowledge ∉ d.ending status ∧ .connect ∉ d.ending status := by
  unfold Driver.ending Driver.release Driver.closing
  cases d.pending <;> cases d.stream <;> cases d.machine.closed <;> simp

/-- An attempt is given up just if one is under way. -/
theorem cancelConnect_mem_ending (d : Driver) (status : Status) :
    .cancelConnect ∈ d.ending status ↔ d.pending.isSome = true := by
  unfold Driver.ending Driver.release Driver.closing
  cases d.pending <;> cases d.stream <;> cases d.machine.closed <;> simp

/-- An ending closes what is held. -/
@[simp] theorem closedBy_ending (d : Driver) (status : Status) :
    closedBy (d.ending status) = d.held := by
  unfold Driver.ending
  split <;> simp [closedBy_cons, Effect.closed?]

/-- An ending tells of the connection that it closes, if there is one. -/
@[simp] theorem events_ending (d : Driver) (status : Status) :
    events (d.ending status) = if d.stream.isSome then [.closed] else [] := by
  unfold Driver.ending
  split <;> simp [events_closing]

/-- A closed driver has nothing to give up or to publish. -/
theorem Driver.IsShut.ending_eq (h : d.IsShut) (status : Status) : d.ending status = [] := by
  simp [Driver.ending, Driver.release, Driver.closing, h.closed, h.pending, h.stream]

/-- What a closing makes of a driver. -/
theorem Move.eq_of_close (move : Move now d (.command .close) d' effects) :
    d' = ⟨d.machine.close.1, none, none, none, true⟩ ∧
      effects = d.ending d.machine.close.1.status ++ [.acknowledge] := by
  cases move with
  | close h => exact ⟨by rw [h], by rw [h]; rfl⟩

/-- What becomes of a driver that all have left. -/
theorem Move.eq_of_abandoned (move : Move now d .abandoned d' effects) :
    d' = ⟨d.machine.close.1, none, none, none, false⟩ ∧
      effects = d.ending d.machine.close.1.status := by
  cases move with
  | abandoned h => exact ⟨by rw [h], by rw [h]; rfl⟩

/-- Closing a coherent driver leaves nothing that could wake it. -/
theorem Driver.Coherent.isShut_close (h : d.Coherent) (running : Bool) :
    Driver.IsShut ⟨d.machine.close.1, none, none, none, running⟩ :=
  ⟨d.machine.closed_close, h.sound.state_close, rfl, rfl, rfl⟩

/-- Closing a coherent driver gives up all there is. -/
theorem Move.tearsDown_of_close (move : Move now d (.command .close) d' effects)
    (hd : d.Coherent) : Turn.TearsDown ⟨d, now, .command .close, d', effects⟩ := by
  obtain ⟨rfl, rfl⟩ := move.eq_of_close
  constructor
  · exact hd.isShut_close true
  · simp [cancelConnect_mem_ending]
  · simp [closedBy_cons, Effect.closed?]
  · simp
  · simp [not_mem_ending]

/-- So does leaving it. -/
theorem Move.tearsDown_of_abandoned (move : Move now d .abandoned d' effects)
    (hd : d.Coherent) : Turn.TearsDown ⟨d, now, .abandoned, d', effects⟩ := by
  obtain ⟨rfl, rfl⟩ := move.eq_of_abandoned
  constructor
  · exact hd.isShut_close false
  · exact cancelConnect_mem_ending d _
  · exact closedBy_ending d _
  · exact events_ending d _
  · exact (not_mem_ending d _).2

/-! ### After a closing -/

/-- Only its owner can wake a closed driver, and unless that is to connect, nothing happens. -/
theorem Move.idle (move : Move now d input d' effects) (hd : d.IsShut)
    (h : input.isRequest = false) :
    Turn.IsIdle ⟨d, now, input, d', effects⟩ ∧ d'.IsShut := by
  have stays : d.machine.close.1 = d.machine := by rw [Machine.close_of_closed hd.closed]
  have shut (running : Bool) : Driver.IsShut ⟨d.machine, none, none, none, running⟩ :=
    ⟨hd.closed, hd.state, rfl, rfl, rfl⟩
  cases input with
  | command c =>
    cases c with
    | connect => cases h
    | retry => cases h
    | close =>
      obtain ⟨rfl, rfl⟩ := move.eq_of_close
      rw [hd.ending_eq, stays]
      exact ⟨⟨nofun, by simp, rfl⟩, shut true⟩
  | abandoned =>
    obtain ⟨rfl, rfl⟩ := move.eq_of_abandoned
    rw [hd.ending_eq, stays]
    exact ⟨⟨nofun, by simp, rfl⟩, shut false⟩
  | resolved result =>
    cases move with
    | opened => cases hd.pending
    | refused => cases hd.pending
  | received event =>
    cases move with
    | data => cases hd.stream
    | closed => cases hd.stream
    | failed => cases hd.stream
  | retryTimer =>
    cases move with
    | timer => cases hd.retryAt

/-- From a closed driver on, nothing happens up to the next request. -/
theorem Run.idle (run : Run d turns d') (hd : d.Coherent) (hs : d.IsShut)
    (h : ∀ t ∈ turns, t.input.isRequest = false) : ∀ t ∈ turns, t.IsIdle := by
  induction run with
  | nil => simp
  | cons now input awaited _ ih =>
    have move := hd.move awaited
    obtain ⟨idle, shut⟩ := move.idle hs (h _ (List.mem_cons_self ..))
    have rest := ih (move.coherent hd) shut fun t ht ↦ h t (List.mem_cons_of_mem _ ht)
    exact List.forall_mem_cons.mpr ⟨idle, rest⟩

/-- A driver that has stopped takes no turn. -/
theorem Run.eq_nil_of_stopped (run : Run d turns d') (h : d.running = false) : turns = [] := by
  cases run with
  | nil => rfl
  | cons now input awaited _ =>
    cases input <;> simp [Driver.awaits, h] at awaited

/-- Whatever a running driver is about, it can be closed and left: all it has under way or open is
given up, a closing is acknowledged after that and followed by nothing up to the next request, and
a driver that all have left takes no further turn. -/
theorem stops_of_run (run : Run (.new policy) turns d) (running : d.running = true)
    (now : Moment) : d.Stops now := by
  have hd := run.coherent (Driver.coherent_new policy)
  have closing : d.awaits now (.command .close) = true := running
  have leaving : d.awaits now .abandoned = true := running
  have close := hd.move closing
  have leave := hd.move leaving
  have shut := close.tearsDown_of_close hd
  refine ⟨shut, ?_, ?_, leave.tearsDown_of_abandoned hd, ?_⟩
  · exact ⟨_, close.eq_of_close.2, (not_mem_ending d _).1⟩
  · intro later d' rest quiet
    exact rest.idle (close.coherent hd) shut.isShut quiet
  · intro later d' rest
    exact rest.eq_nil_of_stopped (congrArg Driver.running leave.eq_of_abandoned.1)

/-- A client that is closed while its second connection is open tells of that once. -/
theorem stops_of_replaced_run :
    ∃ turns d, (Driver.new ⟨1, 2000⟩).run? (replacedInputs.take 6) = some (turns, d) ∧
      Run (.new ⟨1, 2000⟩) turns d ∧ d.running = true ∧ d.held = [8] ∧
      events (d.turn 6 (.command .close)).effects = [.closed] ∧ d.Stops 6 := by
  have run := Run.of_run?
    (rfl : (Driver.new ⟨1, 2000⟩).run? (replacedInputs.take 6) = some (_, _))
  exact ⟨_, _, rfl, run, rfl, rfl, rfl, stops_of_run run rfl 6⟩

end Quoteboard.Client
