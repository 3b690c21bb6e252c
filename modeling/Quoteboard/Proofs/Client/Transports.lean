import Mathlib.Data.List.Nodup
import Quoteboard.Proofs.Client.Attempts

/-!
# Connections handed over and closed

Every connection that a driver is handed it closes, once and before it is handed the next one. So
the connections closed are those handed over, in the same order, up to the one that is held; and one
is held only while the client is connected, never while an attempt is under way.
-/

namespace Quoteboard.Client

open Quoteboard.Connection Quoteboard.Metrics Quoteboard.Transport

/-- The connection that an input hands over, if it hands one over. -/
def Input.stream? : Input → Option StreamId
  | .resolved (.ok stream) => some stream
  | _ => none

/-- The connection that an effect closes, if it closes one. -/
def Effect.closed? : Effect → Option StreamId
  | .closeStream stream => some stream
  | _ => none

/-- The connections that some effects close, in order. -/
def closedBy (effects : List Effect) : List StreamId := effects.filterMap Effect.closed?

/-- The connections that are closed in some turns, in order. -/
def closings (turns : List Turn) : List StreamId := turns.flatMap fun t ↦ closedBy t.effects

/-- The connections that some turns are handed, in order. -/
def handed (turns : List Turn) : List StreamId := turns.filterMap (·.input.stream?)

/-- The connection that a driver has open. -/
def Driver.held (d : Driver) : List StreamId := d.stream.toList.map (·.2)

/-- How the connections of a run are disposed of. -/
structure Transports (turns : List Turn) (d : Driver) : Prop where
  /-- What was handed over has been closed, in order, up to what is held. -/
  closings_append : closings turns ++ d.held = handed turns
  /-- If no connection is handed over twice, none is closed more than once, and exactly the one
  that is held has not been closed. -/
  count_closings : (handed turns).Nodup →
    ∀ s ∈ handed turns, (closings turns).count s = if s ∈ d.held then 0 else 1
  /-- A connection is held just while the client is connected. -/
  held_iff : d.stream.isSome = true ↔ d.machine.state = .connected
  /-- An attempt is asked for last in its turn, when all that was handed over is closed. -/
  connect : ∀ (front : List Turn) (t : Turn) (back : List Turn),
    turns = front ++ t :: back → .connect ∈ t.effects →
      ∃ before, t.effects = before ++ [.connect] ∧ .connect ∉ before ∧
        closings front ++ closedBy before = handed front
  /-- Nothing is open while an attempt is under way. -/
  pending : d.pending.isSome = true → closings turns = handed turns
  /-- Nothing is open after the client is closed or left by all. -/
  ended : ∀ (front : List Turn) (t : Turn) (back : List Turn),
    turns = front ++ t :: back → t.input = .command .close ∨ t.input = .abandoned →
      closings (front ++ [t]) = handed (front ++ [t])

variable {d d' : Driver} {now : Moment} {input : Input} {effects more : List Effect}
  {policy : RetryPolicy} {turns : List Turn} {t : Turn}

/-! ### What effects close -/

@[simp] theorem closedBy_nil : closedBy [] = [] := rfl

@[simp] theorem closedBy_append : closedBy (effects ++ more) = closedBy effects ++ closedBy more :=
  List.filterMap_append

theorem closedBy_cons (e : Effect) :
    closedBy (e :: effects) = e.closed?.toList ++ closedBy effects := by
  cases h : e.closed? <;> simp [closedBy, h]

/-- What is held is closed when it is given up. -/
@[simp] theorem closedBy_release (d : Driver) : closedBy d.release = d.held := by
  unfold Driver.release Driver.held
  cases d.pending <;> cases d.stream <;> rfl

/-- Telling of a closing closes nothing. -/
@[simp] theorem closedBy_closing (d : Driver) : closedBy d.closing = [] := by
  unfold Driver.closing
  split <;> rfl

@[simp] theorem closings_concat :
    closings (turns ++ [t]) = closings turns ++ closedBy t.effects := by
  simp [closings]

@[simp] theorem handed_concat :
    handed (turns ++ [t]) = handed turns ++ t.input.stream?.toList := by
  cases h : t.input.stream? <;> simp [handed, h]

/-! ### What a turn closes -/

/-- A failure closes nothing by itself. -/
theorem Failure.closedBy_eq {m : Machine} {e : TransportError} (f : Failure m now e d' effects) :
    closedBy effects = [] := by
  cases f with
  | retry => rfl
  | exhausted => rfl

/-- What a turn closes and what is held after it are what was held before it and what it is
handed. -/
theorem Move.closedBy_append_held (move : Move now d input d' effects) :
    closedBy effects ++ d'.held = d.held ++ input.stream?.toList := by
  cases move with
  | connect => simp [closedBy_cons, Effect.closed?, Driver.held, Input.stream?]
  | retry => simp [closedBy_cons, Effect.closed?, Driver.held, Input.stream?]
  | close => split <;> simp [closedBy_cons, Effect.closed?, Driver.held, Input.stream?]
  | abandoned => split <;> simp [closedBy_cons, Effect.closed?, Driver.held, Input.stream?]
  | opened => rfl
  | refused _ failure =>
    rw [failure.closedBy_eq, Driver.held, failure.stream_eq]
    rfl
  | data => rfl
  | closed => rfl
  | failed _ failure =>
    rw [List.cons_append, closedBy_cons, closedBy_append, failure.closedBy_eq, Driver.held,
      failure.stream_eq]
    rfl
  | timer => rfl

/-- An attempt is asked for last in its turn, after whatever was held has been closed. -/
theorem Move.closedBy_before_connect (move : Move now d input d' effects)
    (h : .connect ∈ effects) :
    ∃ before, effects = before ++ [.connect] ∧ .connect ∉ before ∧ closedBy before = d.held := by
  have hr := connect_not_mem_release d
  have hc := connect_not_mem_closing d
  cases move with
  | @connect _ m =>
    refine ⟨d.release ++ .publish m.status :: d.closing, by simp, by simp [hr, hc], ?_⟩
    simp [closedBy_cons, Effect.closed?]
  | @retry _ m =>
    refine ⟨.record (.one (.reconnects true)) :: (d.release ++ .publish m.status :: d.closing),
      by simp, by simp [hr, hc], ?_⟩
    simp [closedBy_cons, Effect.closed?]
  | close => split at h <;> simp [hr, hc] at h
  | abandoned => split at h <;> simp [hr, hc] at h
  | opened => simp at h
  | refused _ failure => exact absurd h failure.attempt.2.2
  | data => simp at h
  | closed => simp at h
  | failed _ failure => simp [failure.attempt.2.2] at h
  | @timer _ m' =>
    exact ⟨[.record (.one (.reconnects false)), .publish m'.status], rfl, by simp, rfl⟩

/-- Closing the client, or leaving it, leaves no connection. -/
theorem Move.held_of_end (move : Move now d input d' effects)
    (h : input = .command .close ∨ input = .abandoned) : d'.held = [] := by
  rcases h with rfl | rfl
  · cases move with
    | close => rfl
  · cases move with
    | abandoned => rfl

/-! ### What a run closes -/

/-- A coherent driver has a connection just while its machine is connected. -/
theorem Driver.Coherent.stream_isSome_iff (h : d.Coherent) :
    d.stream.isSome = true ↔ d.machine.state = .connected := by
  obtain ⟨-, state, hi⟩ := h
  cases hi with
  | disconnected h => simp [h]
  | connecting h => simp [h]
  | connected _ h => simp [h]
  | error _ h => simp [h]

/-- Along every run what was handed over is closed in order, up to what is held. -/
theorem Run.closings_append (run : Run (.new policy) turns d) :
    closings turns ++ d.held = handed turns := by
  refine run.induction (P := fun turns d ↦ closings turns ++ d.held = handed turns)
    (Driver.coherent_new policy) rfl ?_
  intro turns d₁ now input d₂ effects _ _ ih move
  calc closings (turns ++ [⟨d₁, now, input, d₂, effects⟩]) ++ d₂.held
      = closings turns ++ (closedBy effects ++ d₂.held) := by simp
    _ = (closings turns ++ d₁.held) ++ input.stream?.toList := by
      rw [move.closedBy_append_held, List.append_assoc]
    _ = handed (turns ++ [⟨d₁, now, input, d₂, effects⟩]) := by rw [ih, handed_concat]

private theorem count_of_append_eq {α : Type} [DecidableEq α] {closed held all : List α}
    (h : closed ++ held = all) (hn : all.Nodup) {a : α} (ha : a ∈ all) :
    closed.count a = if a ∈ held then 0 else 1 := by
  subst h
  split
  · next hh =>
    have apart := (List.nodup_append.mp hn).2.2
    exact List.count_eq_zero.mpr fun hc ↦ apart a hc a hh rfl
  · next hh =>
    have hc : a ∈ closed := (List.mem_append.mp ha).resolve_right hh
    exact List.count_eq_one_of_mem (List.nodup_append.mp hn).1 hc

/-- Along every run each connection that is handed over is closed, once and before the next one is
asked for; the one that is open is held by a driver that is connected. -/
theorem transports_of_run (run : Run (.new policy) turns d) : Transports turns d := by
  have start := Driver.coherent_new policy
  have hd := run.coherent start
  have all := run.closings_append
  refine ⟨all, fun hn s hs ↦ count_of_append_eq all hn hs, hd.stream_isSome_iff, ?_, ?_, ?_⟩
  · rintro front t back rfl hc
    obtain ⟨first, -, -, move⟩ := run.split_turn start
    obtain ⟨before, he, hn, hb⟩ := move.closedBy_before_connect hc
    exact ⟨before, he, hn, by rw [hb, first.closings_append]⟩
  · intro hp
    obtain ⟨g, hg⟩ := Option.isSome_iff_exists.mp hp
    have none_held : d.held = [] := by simp [Driver.held, hd.stream_of_pending hg]
    simpa [none_held] using all
  · rintro front t back rfl ht
    obtain ⟨-, through, -, move⟩ := run.split_turn start
    have all := through.closings_append
    rwa [move.held_of_end ht, List.append_nil] at all

/-- In this run the first connection is closed when the second is asked for, which is open now. -/
theorem transports_of_replaced_run :
    ∃ turns d, (Driver.new ⟨1, 2000⟩).run? (replacedInputs.take 5) = some (turns, d) ∧
      Run (.new ⟨1, 2000⟩) turns d ∧ handed turns = [7, 8] ∧ closings turns = [7] ∧
      d.held = [8] ∧ Transports turns d := by
  have run := Run.of_run?
    (rfl : (Driver.new ⟨1, 2000⟩).run? (replacedInputs.take 5) = some (_, _))
  exact ⟨_, _, rfl, run, rfl, rfl, rfl, transports_of_run run⟩

end Quoteboard.Client
