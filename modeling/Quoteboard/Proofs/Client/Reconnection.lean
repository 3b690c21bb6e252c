import Quoteboard.Proofs.Client.Attempts

/-!
# Reconnecting

When a driver connects again without being asked. A retry is armed by a failure and held only until
the next turn, so it can start one attempt at most. The retries used are counted, and only an
opening or a retry on request sets the count back: however commands and failures are mixed, the
automatic attempts between two of these are no more than the policy allows.
-/

namespace Quoteboard.Client

open Quoteboard.Connection Quoteboard.Metrics Quoteboard.Transport

/-- Whether an input starts an attempt. -/
def Input.starts : Input → Bool
  | .command .connect | .command .retry | .retryTimer => true
  | _ => false

/-- Whether an input is a request to connect. -/
def Input.isRequest : Input → Bool
  | .command .connect | .command .retry => true
  | _ => false

/-- Whether an input sets the count of the retries used back to zero. -/
def Input.resets : Input → Bool
  | .command .retry | .resolved (.ok _) => true
  | _ => false

/-- Whether an input reconnects, on request (`true`) or automatically. -/
def Input.reconnects (manual : Bool) : Input → Bool
  | .command .retry => manual
  | .retryTimer => !manual
  | _ => false

/-- What followed from the failure that a turn was about, if it was about one. -/
def Turn.outcome? (t : Turn) : Option FailureOutcome :=
  match t.input with
  | .resolved (.error e) | .received (.failed e) =>
    t.before.attempt?.map fun g ↦ (t.before.machine.onFailure g e.message).2
  | _ => none

/-- The recording that an effect makes, if it makes one. -/
def Effect.recording? : Effect → Option Recording
  | .record recording => some recording
  | _ => none

/-- The recordings among some effects, in order. -/
def recordingsOf (effects : List Effect) : List Recording := effects.filterMap Effect.recording?

/-- The recordings that some turns make. -/
def recordings (turns : List Turn) : List Recording :=
  turns.flatMap fun t ↦ recordingsOf t.effects

/-- The retries that have started an attempt since the count was set back: of those used, one may
still be waiting for its time. -/
def Driver.spent (d : Driver) : Nat := d.machine.attempts - if d.retryAt.isSome then 1 else 0

/-- How the turns of a run reconnect. -/
structure Reconnecting (policy : RetryPolicy) (turns : List Turn) : Prop where
  /-- A turn starts one attempt if it is on a request or on a retry, else none. -/
  count_connect : ∀ t ∈ turns, t.effects.count .connect = if t.input.starts then 1 else 0
  /-- A turn on a retry comes right after the failure that armed it, once the delay is over. -/
  armed : ∀ (front : List Turn) (t : Turn) (back : List Turn),
    turns = front ++ t :: back → t.input = .retryTimer →
      ∃ (before : List Turn) (f : Turn) (g : Generation) (n : Nat), front = before ++ [f] ∧
        f.outcome? = some (.retry g n policy.delayMillis) ∧
        t.before.retryAt = some (f.now + policy.delayMillis, g) ∧
        f.now + policy.delayMillis ≤ t.now
  /-- Between two turns that set the count back, retries start no more attempts than the policy
  allows. -/
  countP_le : ∀ front mid back : List Turn,
    turns = front ++ mid ++ back → (∀ t ∈ mid, t.input.resets = false) →
      mid.countP (·.input.reconnects false) ≤ policy.maxAttempts
  /-- Once the retries are used up or the client is closed, nothing is started up to the next
  request. -/
  idle : ∀ (front : List Turn) (t : Turn) (mid back : List Turn),
    turns = front ++ t :: mid ++ back →
      t.outcome? = some .exhausted ∨ t.input = .command .close →
      (∀ u ∈ mid, u.input.isRequest = false) → ∀ u ∈ mid, .connect ∉ u.effects
  /-- The counters count the attempts on a retry and the requests for one. -/
  total_reconnects : ∀ manual : Bool,
    total (.reconnects manual) (recordings turns) = turns.countP (·.input.reconnects manual)

variable {d d' : Driver} {now due : Moment} {input : Input} {effects more : List Effect}
  {policy : RetryPolicy} {turns : List Turn} {g : Generation}

/-! ### What starts an attempt -/

/-- No failure starts an attempt by itself. -/
theorem Failure.count_connect {m : Machine} {e : TransportError}
    (f : Failure m now e d' effects) : effects.count .connect = 0 :=
  List.count_eq_zero.mpr f.attempt.2.2

/-- A turn starts one attempt if it is on a request or on a retry that is due, else none. -/
theorem Move.count_connect (move : Move now d input d' effects) :
    effects.count .connect = if input.starts then 1 else 0 := by
  have hr := List.count_eq_zero.mpr (connect_not_mem_release d)
  have hc := List.count_eq_zero.mpr (connect_not_mem_closing d)
  cases move with
  | connect => simp [Input.starts, hr, hc]
  | retry => simp [Input.starts, hr, hc]
  | close => split <;> simp [Input.starts, hr, hc]
  | abandoned => split <;> simp [Input.starts, hr, hc]
  | opened => rfl
  | refused _ failure => exact failure.count_connect
  | data => rfl
  | closed => rfl
  | failed _ failure => simp [Input.starts, failure.count_connect]
  | timer => rfl

/-! ### Retries are armed by failures -/

/-- What the machine makes of a failure is what the driver goes by. -/
theorem Failure.outcome_cases {m : Machine} {e : TransportError}
    (f : Failure m now e d' effects) (ha : m.isActive = true) :
    ((m.onFailure m.generation e.message).2 =
        .retry m.generation (m.attempts + 1) m.policy.delayMillis ∧
      d'.retryAt = some (now + m.policy.delayMillis, m.generation)) ∨
    ((m.onFailure m.generation e.message).2 = .exhausted ∧
      d'.retryAt = none ∧ d'.machine.state = .disconnected) := by
  cases f with
  | retry left h =>
    rw [Machine.onFailure_of_lt ha left]
    exact .inl ⟨rfl, by rw [h]⟩
  | exhausted used h =>
    rw [Machine.onFailure_of_le ha used]
    exact .inr ⟨rfl, rfl, by rw [h]⟩

/-- What a turn about a failure leaves: a retry that is due once the delay is over, or nothing. -/
theorem Move.outcome_cases (move : Move now d input d' effects) :
    (∃ g n, Turn.outcome? ⟨d, now, input, d', effects⟩ =
        some (.retry g n d.machine.policy.delayMillis) ∧
      d'.retryAt = some (now + d.machine.policy.delayMillis, g)) ∨
    (Turn.outcome? ⟨d, now, input, d', effects⟩ = some .exhausted ∧
      d'.retryAt = none ∧ d'.machine.state = .disconnected) ∨
    (Turn.outcome? ⟨d, now, input, d', effects⟩ = none ∧ d'.retryAt = none) := by
  cases move with
  | connect => exact .inr (.inr ⟨rfl, rfl⟩)
  | retry => exact .inr (.inr ⟨rfl, rfl⟩)
  | close => exact .inr (.inr ⟨rfl, rfl⟩)
  | abandoned => exact .inr (.inr ⟨rfl, rfl⟩)
  | opened => exact .inr (.inr ⟨rfl, rfl⟩)
  | refused state failure =>
    rcases failure.outcome_cases (Machine.isActive_of_connecting state) with ⟨ho, hr⟩ | ⟨ho, hr⟩
    · exact .inl ⟨_, _, congrArg some ho, hr⟩
    · exact .inr (.inl ⟨congrArg some ho, hr⟩)
  | data => exact .inr (.inr ⟨rfl, rfl⟩)
  | closed => exact .inr (.inr ⟨rfl, rfl⟩)
  | failed state failure =>
    rcases failure.outcome_cases (Machine.isActive_of_connected state) with ⟨ho, hr⟩ | ⟨ho, hr⟩
    · exact .inl ⟨_, _, congrArg some ho, hr⟩
    · exact .inr (.inl ⟨congrArg some ho, hr⟩)
  | timer => exact .inr (.inr ⟨rfl, rfl⟩)

/-- A retry that is held after a run was armed by a failure in its last turn. -/
theorem Run.outcome_of_retryAt (run : Run (.new policy) turns d)
    (h : d.retryAt = some (due, g)) :
    ∃ (before : List Turn) (f : Turn) (n : Nat), turns = before ++ [f] ∧
      f.outcome? = some (.retry g n policy.delayMillis) ∧ due = f.now + policy.delayMillis := by
  have start := Driver.coherent_new policy
  refine run.induction (P := fun turns d ↦ d.retryAt = some (due, g) →
      ∃ (before : List Turn) (f : Turn) (n : Nat), turns = before ++ [f] ∧
        f.outcome? = some (.retry g n policy.delayMillis) ∧ due = f.now + policy.delayMillis)
    start nofun ?_ h
  intro turns d₁ now input d₂ effects run _ _ move hr
  have hp : d₁.machine.policy = policy := run.policy_eq start
  rcases move.outcome_cases with ⟨g', n, ho, hr'⟩ | ⟨-, hr', -⟩ | ⟨-, hr'⟩
  · rw [hp] at ho hr'
    cases hr'.symm.trans hr
    exact ⟨turns, _, n, rfl, ho, rfl⟩
  · cases hr'.symm.trans hr
  · cases hr'.symm.trans hr

/-- A turn on a retry finds it due. -/
theorem Move.retryAt_of_timer (move : Move now d .retryTimer d' effects) :
    ∃ due g, d.retryAt = some (due, g) ∧ due ≤ now := by
  cases move with
  | timer _ reached => exact ⟨_, _, rfl, reached⟩

/-! ### How many retries there are -/

/-- A failure uses up a retry only by arming it. -/
theorem Failure.spent_eq {m : Machine} {e : TransportError} (f : Failure m now e d' effects) :
    d'.spent = m.attempts := by
  cases f with
  | retry _ h => simp [Driver.spent, h]
  | exhausted _ h => simp [Driver.spent, h]

/-- Unless the count is set back, no turn lowers it, and each automatic attempt raises it. -/
theorem Move.spent_le (move : Move now d input d' effects) (hd : d.Coherent)
    (h : input.resets = false) :
    d.spent + (if input.reconnects false then 1 else 0) ≤ d'.spent := by
  have hs : d.spent ≤ d.machine.attempts := Nat.sub_le _ _
  cases move with
  | connect hm =>
    subst hm
    exact hs
  | retry => cases h
  | close hm =>
    subst hm
    have ha := (Machine.close_fields d.machine).2.1
    exact Nat.le_trans hs (Nat.le_of_eq ha.symm)
  | abandoned hm =>
    subst hm
    have ha := (Machine.close_fields d.machine).2.1
    exact Nat.le_trans hs (Nat.le_of_eq ha.symm)
  | opened => cases h
  | refused _ failure =>
    rw [failure.spent_eq]
    exact hs
  | data => exact Nat.le_refl _
  | closed _ hm =>
    subst hm
    exact hs
  | failed _ failure =>
    rw [failure.spent_eq]
    exact hs
  | @timer m _ _ state _ hm =>
    subst hm
    have used : 0 < m.attempts := (hd.sound.of_error state).1
    exact Nat.le_of_eq (Nat.sub_add_cancel used)

/-- Along a run in which the count is not set back, it grows by every automatic attempt. -/
theorem Run.spent_le (run : Run d turns d') (hd : d.Coherent)
    (h : ∀ t ∈ turns, t.input.resets = false) :
    d.spent + turns.countP (·.input.reconnects false) ≤ d'.spent := by
  refine run.induction (P := fun turns d' ↦ (∀ t ∈ turns, t.input.resets = false) →
      d.spent + turns.countP (·.input.reconnects false) ≤ d'.spent)
    hd (fun _ ↦ Nat.le_refl _) ?_ h
  intro turns d₁ now input d₂ effects _ hd₁ ih move h
  have sofar := ih fun t ht ↦ h t (List.mem_append_left _ ht)
  have more := move.spent_le hd₁ (h _ (List.mem_append_right _ (List.mem_singleton_self _)))
  rw [List.countP_append, List.countP_singleton, ← Nat.add_assoc]
  exact Nat.le_trans (Nat.add_le_add_right sofar _) more

/-- The count never exceeds what the policy allows. -/
theorem Driver.Coherent.spent_le (hd : d.Coherent) :
    d.spent ≤ d.machine.policy.maxAttempts :=
  Nat.le_trans (Nat.sub_le _ _) hd.sound.attempts_le

/-! ### When there are none -/

/-- A driver that is disconnected stays so until it is asked to connect. -/
theorem Move.state_of_disconnected (move : Move now d input d' effects) (hd : d.Coherent)
    (h : d.machine.state = .disconnected) (hi : input.isRequest = false) :
    d'.machine.state = .disconnected ∧ input.starts = false := by
  cases move with
  | connect => cases hi
  | retry => cases hi
  | close hm =>
    subst hm
    exact ⟨hd.sound.state_close, rfl⟩
  | abandoned hm =>
    subst hm
    exact ⟨hd.sound.state_close, rfl⟩
  | opened state => cases h.symm.trans state
  | refused state => cases h.symm.trans state
  | data state => cases h.symm.trans state
  | closed state => cases h.symm.trans state
  | failed state => cases h.symm.trans state
  | timer state => cases h.symm.trans state

/-- When the retries are used up, and on a closing, a driver becomes disconnected. -/
theorem Move.state_of_outcome (move : Move now d input d' effects) (hd : d.Coherent)
    (h : Turn.outcome? ⟨d, now, input, d', effects⟩ = some .exhausted ∨
      input = .command .close) :
    d'.machine.state = .disconnected := by
  rcases h with h | rfl
  · rcases move.outcome_cases with ⟨_, _, ho, -⟩ | ⟨-, -, hs⟩ | ⟨ho, -⟩
    · cases ho.symm.trans h
    · exact hs
    · cases ho.symm.trans h
  · cases move with
    | close hm =>
      subst hm
      exact hd.sound.state_close

/-- Along a run from a disconnected driver no attempt is started before a request. -/
theorem Run.starts_of_disconnected (run : Run d turns d') (hd : d.Coherent)
    (h : d.machine.state = .disconnected) (hi : ∀ t ∈ turns, t.input.isRequest = false) :
    ∀ t ∈ turns, t.input.starts = false := by
  induction run with
  | nil => simp
  | cons now input awaited _ ih =>
    have move := hd.move awaited
    obtain ⟨hs, hn⟩ := move.state_of_disconnected hd h (hi _ (List.mem_cons_self ..))
    have rest := ih (move.coherent hd) hs fun t ht ↦ hi t (List.mem_cons_of_mem _ ht)
    exact List.forall_mem_cons.mpr ⟨hn, rest⟩

/-! ### What is counted -/

@[simp] theorem recordingsOf_nil : recordingsOf [] = [] := rfl

@[simp] theorem recordingsOf_append :
    recordingsOf (effects ++ more) = recordingsOf effects ++ recordingsOf more :=
  List.filterMap_append

theorem recordingsOf_cons (e : Effect) :
    recordingsOf (e :: effects) = e.recording?.toList ++ recordingsOf effects := by
  cases h : e.recording? <;> simp [recordingsOf, h]

private theorem recordingsOf_release (d : Driver) : recordingsOf d.release = [] := by
  unfold Driver.release
  cases d.pending <;> cases d.stream <;> rfl

private theorem recordingsOf_closing (d : Driver) : recordingsOf d.closing = [] := by
  unfold Driver.closing
  split <;> rfl

/-- No failure is recorded by itself. -/
theorem Failure.recordingsOf_eq {m : Machine} {e : TransportError}
    (f : Failure m now e d' effects) : recordingsOf effects = [] := by
  cases f with
  | retry => rfl
  | exhausted => rfl

/-- A turn records an attempt if it reconnects, and nothing else. -/
theorem Move.recordingsOf_eq (move : Move now d input d' effects) :
    recordingsOf effects =
      match input with
      | .command .retry => [.one (.reconnects true)]
      | .retryTimer => [.one (.reconnects false)]
      | _ => [] := by
  have hr := recordingsOf_release d
  have hc := recordingsOf_closing d
  cases move with
  | connect => simp [recordingsOf_cons, Effect.recording?, hr, hc]
  | retry => simp [recordingsOf_cons, Effect.recording?, hr, hc]
  | close => split <;> simp [recordingsOf_cons, Effect.recording?, hr, hc]
  | abandoned => split <;> simp [recordingsOf_cons, Effect.recording?, hr, hc]
  | opened => rfl
  | refused _ failure => exact failure.recordingsOf_eq
  | data => rfl
  | closed => rfl
  | failed _ failure => simp [recordingsOf_cons, Effect.recording?, failure.recordingsOf_eq]
  | timer => rfl

/-- A turn counts as reconnecting exactly if its input reconnects, in the way that is counted. -/
theorem Move.total_reconnects (move : Move now d input d' effects) (manual : Bool) :
    total (.reconnects manual) (recordingsOf effects) =
      if input.reconnects manual then 1 else 0 := by
  rw [move.recordingsOf_eq]
  cases manual <;> cases input with
  | command c => cases c <;> rfl
  | abandoned => rfl
  | resolved => rfl
  | received => rfl
  | retryTimer => rfl

/-- The counters of reconnections are those of the turns that reconnect. -/
theorem Run.total_reconnects (run : Run (.new policy) turns d) (manual : Bool) :
    total (.reconnects manual) (recordings turns) =
      turns.countP (·.input.reconnects manual) := by
  refine run.induction (P := fun turns _ ↦ total (.reconnects manual) (recordings turns) =
      turns.countP (·.input.reconnects manual)) (Driver.coherent_new policy) rfl ?_
  intro turns d₁ now input d₂ effects _ _ ih move
  have more : recordings (turns ++ [⟨d₁, now, input, d₂, effects⟩]) =
      recordings turns ++ recordingsOf effects := by simp [recordings]
  rw [more, total_append, ih, move.total_reconnects, List.countP_append, List.countP_singleton]

/-! ### Reconnections along a run -/

/-- Every run reconnects in bounds, and no sooner than it may: attempts are started only on a
request and on a retry that a failure armed right before, and there are no more of these than the
policy allows until the count is set back. -/
theorem reconnecting_of_run (run : Run (.new policy) turns d) : Reconnecting policy turns := by
  have start := Driver.coherent_new policy
  have once : ∀ t ∈ turns, t.effects.count .connect = if t.input.starts then 1 else 0 :=
    fun t ht ↦ (run.move_of_mem start ht).2.count_connect
  refine ⟨once, ?_, ?_, ?_, run.total_reconnects⟩
  · rintro front t back rfl ht
    obtain ⟨d₁, first, second⟩ := run.split
    cases second with
    | cons now input awaited _ =>
      obtain rfl : input = .retryTimer := ht
      obtain ⟨due, g, hr, hle⟩ := ((first.coherent start).move awaited).retryAt_of_timer
      obtain ⟨before, f, n, hf, ho, rfl⟩ := first.outcome_of_retryAt hr
      exact ⟨before, f, g, n, hf, ho, hr, hle⟩
  · rintro front mid back rfl hm
    obtain ⟨d₂, run', -⟩ := run.split
    obtain ⟨d₁, first, second⟩ := run'.split
    have hd := first.coherent start
    have hp : d₂.machine.policy = policy := run'.policy_eq start
    calc mid.countP (·.input.reconnects false)
        ≤ d₁.spent + mid.countP (·.input.reconnects false) := Nat.le_add_left _ _
      _ ≤ d₂.spent := second.spent_le hd hm
      _ ≤ d₂.machine.policy.maxAttempts := (second.coherent hd).spent_le
      _ = policy.maxAttempts := by rw [hp]
  · rintro front t mid back rfl ht hm u hu
    obtain ⟨d₂, run', -⟩ := run.split
    obtain ⟨d₁, first, second⟩ := run'.split
    have hd := first.coherent start
    cases second with
    | cons now input awaited rest =>
      have move := hd.move awaited
      have idle := rest.starts_of_disconnected (move.coherent hd)
        (move.state_of_outcome hd ht) hm u hu
      have none_started := once u (by simp [hu])
      rw [idle] at none_started
      exact List.count_eq_zero.mp none_started

/-- In the sample run the retry that the failure at 3 arms starts an attempt at 2003, as soon as it
may, and the failure of that attempt leaves none. -/
theorem reconnecting_of_sample_run :
    ∃ (turns : List Turn) (d : Driver),
      (Driver.new ⟨1, 2000⟩).run? sampleInputs = some (turns, d) ∧
      Run (.new ⟨1, 2000⟩) turns d ∧
      turns.map (fun t ↦ t.outcome?) =
        [none, none, none, some (.retry 1 1 2000), none, some .exhausted] ∧
      turns.map (fun t ↦ t.input.starts) = [true, false, false, false, true, false] ∧
      Reconnecting ⟨1, 2000⟩ turns := by
  have run := Run.of_run? (rfl : (Driver.new ⟨1, 2000⟩).run? sampleInputs = some (_, _))
  exact ⟨_, _, rfl, run, rfl, rfl, reconnecting_of_run run⟩

end Quoteboard.Client
