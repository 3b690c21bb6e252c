import Mathlib.Logic.ExistsUnique
import Quoteboard.Proofs.Client.Run

/-!
# What a driver holds, and what it accepts

Between its turns a driver is in exactly one of four states, and what it holds is what the state
calls for. So the machine accepts whatever reaches it: a result is of the attempt that it awaits,
a frame of the connection that it believes open, and a retry is still due when its time comes.
-/

namespace Quoteboard.Client

open Quoteboard.Connection Quoteboard.Transport

variable {d d' : Driver} {now : Moment} {input : Input} {effects : List Effect}
  {policy : RetryPolicy} {turns : List Turn}

/-- The machine takes what an input brings, under the generation that the driver holds it under,
rather than passing it over as stale. -/
def Driver.Accepts (d : Driver) : Input → Prop
  | .command _ | .abandoned => True
  | .resolved (.ok _) => ∃ g, d.pending = some g ∧ (d.machine.onOpen g).2 = true
  | .resolved (.error e) =>
    ∃ g, d.pending = some g ∧ (d.machine.onFailure g e.message).2 ≠ .stale
  | .received (.data _) =>
    ∃ g stream, d.stream = some (g, stream) ∧ g = d.machine.generation
      ∧ d.machine.state = .connected
  | .received .closed =>
    ∃ g stream, d.stream = some (g, stream) ∧ (d.machine.onClosed g).2 = true
  | .received (.failed e) =>
    ∃ g stream, d.stream = some (g, stream) ∧ (d.machine.onFailure g e.message).2 ≠ .stale
  | .retryTimer => ∃ due g, d.retryAt = some (due, g) ∧ d.machine.retryDue g = true

/-- A coherent driver is in one state only. -/
theorem Driver.Coherent.existsUnique_isIn (h : d.Coherent) : ∃! state, d.IsIn state := by
  obtain ⟨-, state, hi⟩ := h
  exact ⟨state, hi, fun _ ho ↦ ho.state_eq.trans hi.state_eq.symm⟩

/-- A driver that awaits a retry in the error state has one. -/
theorem Driver.Coherent.retryAt_of_error (h : d.Coherent) (hs : d.machine.state = .error) :
    ∃ due, d.retryAt = some (due, d.machine.generation) := by
  obtain ⟨-, state, hi⟩ := h
  cases hi with
  | disconnected h => cases h.symm.trans hs
  | connecting h => cases h.symm.trans hs
  | connected _ h => cases h.symm.trans hs
  | error due => exact ⟨due, rfl⟩

private theorem onFailure_ne_stale {m : Machine} (ha : m.isActive = true) (reason : String) :
    (m.onFailure m.generation reason).2 ≠ .stale := by
  by_cases h : m.attempts < m.policy.maxAttempts
  · simp [Machine.onFailure_of_lt ha h]
  · simp [Machine.onFailure_of_le ha (Nat.not_lt.mp h)]

/-- No rule is about an input that the machine would pass over. -/
theorem Move.accepts (move : Move now d input d' effects) (hd : d.Coherent) :
    d.Accepts input := by
  cases move with
  | connect => trivial
  | retry => trivial
  | close => trivial
  | abandoned => trivial
  | opened state => exact ⟨_, rfl, by rw [Machine.onOpen_of_connecting state]⟩
  | refused state =>
    exact ⟨_, rfl, onFailure_ne_stale (Machine.isActive_of_connecting state) _⟩
  | data state => exact ⟨_, _, rfl, rfl, state⟩
  | closed state =>
    have ha := Machine.isActive_of_connected state
    exact ⟨_, _, rfl, by rw [Machine.onClosed_of_active ha]⟩
  | failed state =>
    exact ⟨_, _, rfl, onFailure_ne_stale (Machine.isActive_of_connected state) _⟩
  | timer state => exact ⟨_, _, rfl, (hd.sound.retryDue_iff _).mpr ⟨state, rfl⟩⟩

/-- After every turn of every run the driver is in exactly one state, and holds what goes with
it; in the error state that is a retry. The machine has accepted every input on the way. -/
theorem existsUnique_isIn_of_run (run : Run (.new policy) turns d) :
    (∃! state, d.IsIn state) ∧
      (d.machine.state = .error → ∃ due, d.retryAt = some (due, d.machine.generation)) ∧
      ∀ t ∈ turns, (∃! state, t.after.IsIn state) ∧ t.before.Accepts t.input := by
  have start := Driver.coherent_new policy
  have last := run.coherent start
  refine ⟨last.existsUnique_isIn, last.retryAt_of_error, fun t ht ↦ ?_⟩
  obtain ⟨hb, move⟩ := run.move_of_mem start ht
  exact ⟨(move.coherent hb).existsUnique_isIn, move.accepts hb⟩

/-- The sample run up to the failure of its connection, after which the only retry is armed. -/
theorem existsUnique_isIn_of_failed_run :
    ∃ turns d, (Driver.new ⟨1, 2000⟩).run? (sampleInputs.take 4) = some (turns, d) ∧
      Run (.new ⟨1, 2000⟩) turns d ∧ d.machine.state = .error ∧ d.retryAt = some (2003, 1) ∧
      (∃! state, d.IsIn state) ∧
      (d.machine.state = .error → ∃ due, d.retryAt = some (due, d.machine.generation)) ∧
      ∀ t ∈ turns, (∃! state, t.after.IsIn state) ∧ t.before.Accepts t.input := by
  have run := Run.of_run?
    (rfl : (Driver.new ⟨1, 2000⟩).run? (sampleInputs.take 4) = some (_, _))
  exact ⟨_, _, rfl, run, rfl, rfl, existsUnique_isIn_of_run run⟩

end Quoteboard.Client
