import Quoteboard.Proofs.Client.Attempts

/-!
# The grammar of client events

Which words the events of an attempt can form. An attempt whose connection never opened is told of
by nothing or by its failure; one that opened by its opening, the payloads and its closing, which
comes last also after a failure. So openings and closings take turns over the whole run, and each
closing is of the connection that opened last.
-/

namespace Quoteboard.Client

open Quoteboard.Connection Quoteboard.Metrics Quoteboard.Transport
open Quoteboard.Market.Feed (Payload)

variable {d d' : Driver} {now : Moment} {input : Input} {inputs : List Input}
  {effects : List Effect} {word' : List ClientEvent} {policy : RetryPolicy} {turns : List Turn}
  {g : Generation}

/-- Whether an input comes from the owner of the client. -/
def Input.isOrder : Input → Bool
  | .command _ | .abandoned => true
  | _ => false

/-- The inputs that payloads come in by. -/
def payloadInputs (payloads : List Payload) : List Input :=
  payloads.map fun p ↦ .received (.data p)

/-- What is told of a failure: the failure, and if the retries are used up also that. -/
def failureEvents (maxAttempts : Nat) (e : TransportError) (exhausted : Bool) :
    List ClientEvent :=
  .error (.transport e) :: if exhausted then [.error (.exhausted maxAttempts)] else []

/-- The words of attempts that are over, by the inputs that the attempt took and by whether the
machine was exhausted after the last of them. -/
inductive Word (maxAttempts : Nat) : List Input → Bool → List ClientEvent → Prop where
  /-- Superseded or closed before there was a result. -/
  | withdrawn {order : Input} {exhausted : Bool} (h : order.isOrder = true) :
      Word maxAttempts [order] exhausted []
  /-- The connection could not be opened. -/
  | refused {e : TransportError} {exhausted : Bool} :
      Word maxAttempts [.resolved (.error e)] exhausted (failureEvents maxAttempts e exhausted)
  /-- The connection was open, until the peer or the owner ended it. -/
  | ended {stream : StreamId} {payloads : List Payload} {last : Input} {exhausted : Bool}
      (h : last.isOrder = true ∨ last = .received .closed) :
      Word maxAttempts (.resolved (.ok stream) :: payloadInputs payloads ++ [last]) exhausted
        (.opened :: payloads.map .ofPayload ++ [.closed])
  /-- The connection was open, until it failed. -/
  | failed {stream : StreamId} {payloads : List Payload} {e : TransportError}
      {exhausted : Bool} :
      Word maxAttempts
        (.resolved (.ok stream) :: payloadInputs payloads ++ [.received (.failed e)]) exhausted
        (.opened :: payloads.map .ofPayload ++ failureEvents maxAttempts e exhausted ++ [.closed])

/-- The words of the attempt that a driver holds, by the inputs that it has taken so far. -/
inductive Opening (d : Driver) : List Input → List ClientEvent → Prop where
  /-- There is no result yet. -/
  | awaited {g : Generation} (h : d.pending = some g) : Opening d [] []
  /-- The connection is open. -/
  | opened {g : Generation} {stream : StreamId} {payloads : List Payload}
      (h : d.stream = some (g, stream)) :
      Opening d (.resolved (.ok stream) :: payloadInputs payloads)
        (.opened :: payloads.map .ofPayload)

/-- The attempt whose connection is open after some events, each given with the attempt that it is
of. There is no answer if a connection opens while one is open, or if one closes that is not. -/
def openAfter : Option Generation → List (Option Generation × ClientEvent) →
    Option (Option Generation)
  | o, [] => some o
  | none, (g, .opened) :: rest => openAfter g rest
  | some _, (_, .opened) :: _ => none
  | none, (_, .closed) :: _ => none
  | some g, (g', .closed) :: rest => if g' = some g then openAfter none rest else none
  | o, (_, .error _) :: rest => openAfter o rest
  | o, (_, .message _) :: rest => openAfter o rest

/-- The events of some turns, each with the attempt that it is of. -/
def told (turns : List Turn) : List (Option Generation × ClientEvent) :=
  turns.flatMap fun t ↦ (events t.effects).map (t.before.attempt?, ·)

/-- A payload gives rise to a snapshot or to a complaint about it, and to nothing else. -/
theorem ofPayload_cases (p : Payload) :
    (∃ s, ClientEvent.ofPayload p = .message s) ∨
      ∃ e, ClientEvent.ofPayload p = .error (.protocol e) := by
  unfold ClientEvent.ofPayload
  cases Market.Feed.receive p with
  | ok s => exact .inl ⟨s, rfl⟩
  | error e => exact .inr ⟨e, rfl⟩

/-- What a failure tells, by whether it leaves the machine exhausted. -/
theorem Failure.events_eq {m : Machine} {e : TransportError} (f : Failure m now e d' effects)
    (he : m.exhausted = false) :
    events effects = failureEvents m.policy.maxAttempts e d'.machine.exhausted := by
  cases f with
  | retry _ h => simp [failureEvents, h, he]
  | exhausted _ h => simp [failureEvents, h]

/-- An order ends whatever attempt there is, and tells of the connection that it closes. -/
theorem Move.order (move : Move now d input d' effects) (h : input.isOrder = true) :
    events effects = (if d.stream.isSome then [.closed] else []) ∧
      d'.attempt? ≠ some d.machine.generation ∧ d'.stream = none := by
  cases move with
  | connect hm =>
    subst hm
    refine ⟨by simp [events_closing], fun he ↦ ?_, rfl⟩
    exact Nat.succ_ne_self _ (Option.some.inj he)
  | retry hm =>
    subst hm
    refine ⟨by simp [events_closing], fun he ↦ ?_, rfl⟩
    exact Nat.succ_ne_self _ (Option.some.inj he)
  | close => exact ⟨by split <;> simp [events_closing], nofun, rfl⟩
  | abandoned => exact ⟨by split <;> simp [events_closing], nofun, rfl⟩
  | opened => cases h
  | refused => cases h
  | data => cases h
  | closed => cases h
  | failed => cases h
  | timer => cases h

/-- The word so far is of the attempt of the current generation. -/
theorem Opening.attempt_eq (o : Opening d inputs word') (hd : d.Coherent) :
    d.attempt? = some d.machine.generation := by
  obtain ⟨-, state, hi⟩ := hd
  cases o with
  | awaited h =>
    cases hi with
    | connecting => rfl
    | disconnected => cases h
    | connected => cases h
    | error => cases h
  | opened h =>
    cases hi with
    | connected => rfl
    | disconnected => cases h
    | connecting => cases h
    | error => cases h

/-- A turn either keeps the attempt that is held, and its word goes on, or ends it, and its word is
complete. -/
theorem Opening.move (o : Opening d inputs word') (hd : d.Coherent)
    (move : Move now d input d' effects) :
    (d'.attempt? = d.attempt? ∧ Opening d' (inputs ++ [input]) (word' ++ events effects)) ∨
    (d'.attempt? ≠ d.attempt? ∧
      Word d.machine.policy.maxAttempts (inputs ++ [input]) d'.machine.exhausted
        (word' ++ events effects)) := by
  have ha := o.attempt_eq hd
  cases ho : input.isOrder with
  | true =>
    obtain ⟨he, hn, -⟩ := move.order ho
    rw [he, ha]
    refine .inr ⟨hn, ?_⟩
    cases o with
    | awaited h =>
      rw [hd.stream_of_pending h]
      exact .withdrawn ho
    | opened h =>
      rw [h]
      exact .ended (.inl ho)
  | false =>
    cases move with
    | connect => cases ho
    | retry => cases ho
    | close => cases ho
    | abandoned => cases ho
    | opened state h =>
      subst h
      cases o with
      | awaited => exact .inl ⟨rfl, @Opening.opened _ _ _ [] rfl⟩
      | opened h => cases h
    | refused state failure =>
      have active := Machine.isActive_of_connecting state
      rw [failure.events_eq (hd.sound.exhausted_of_active active)]
      cases o with
      | awaited => exact .inr ⟨by rw [failure.attempt.1]; exact nofun, .refused⟩
      | opened h => cases h
    | @data m stream payload state =>
      cases o with
      | awaited h => cases h
      | @opened _ _ payloads h =>
        have more := @Opening.opened _ _ _ (payloads ++ [payload]) h
        exact .inl ⟨rfl, by simpa [payloadInputs] using more⟩
    | closed =>
      cases o with
      | awaited h => cases h
      | opened h =>
        cases h
        exact .inr ⟨nofun, .ended (.inr rfl)⟩
    | failed state failure =>
      have active := Machine.isActive_of_connected state
      rw [List.cons_append, events_closeStream, events_append,
        failure.events_eq (hd.sound.exhausted_of_active active)]
      cases o with
      | awaited h => cases h
      | opened h =>
        cases h
        refine .inr ⟨by rw [failure.attempt.1]; exact nofun, ?_⟩
        rw [← List.append_assoc]
        exact .failed
    | timer =>
      cases o with
      | awaited h => cases h
      | opened h => cases h

/-! ### Openings and closings -/

theorem openAfter_append (o : Option Generation) (l l' : List (Option Generation × ClientEvent)) :
    openAfter o (l ++ l') = (openAfter o l).bind (openAfter · l') := by
  fun_induction openAfter o l with
  | case1 => rfl
  | case2 => simp_all [openAfter]
  | case3 => simp_all [openAfter]
  | case4 => simp_all [openAfter]
  | case5 => simp_all [openAfter]
  | case6 => simp_all [openAfter]
  | case7 => simp_all [openAfter]
  | case8 => simp_all [openAfter]

/-- A failure by itself opens and closes nothing. -/
theorem openAfter_failureEvents (o a : Option Generation) (n : Nat) (e : TransportError)
    (exhausted : Bool) :
    openAfter o ((failureEvents n e exhausted).map (a, ·)) = some o := by
  cases exhausted <;> cases o <;> rfl

/-- Nor does a payload. -/
theorem openAfter_ofPayload (o a : Option Generation) (p : Payload) :
    openAfter o [(a, .ofPayload p)] = some o := by
  rcases ofPayload_cases p with ⟨s, h⟩ | ⟨e, h⟩ <;> rw [h] <;> cases o <;> rfl

/-- The events of a turn lead from the connection that was open to the one that is open then. -/
theorem Move.openAfter_eq (move : Move now d input d' effects) (hd : d.Coherent) :
    openAfter (d.stream.map (·.1)) ((events effects).map (d.attempt?, ·)) =
      some (d'.stream.map (·.1)) := by
  cases ho : input.isOrder with
  | true =>
    obtain ⟨he, -, hs⟩ := move.order ho
    rw [he, hs]
    obtain ⟨-, state, hi⟩ := hd
    cases hi with
    | disconnected => rfl
    | connecting => rfl
    | connected => simp [Driver.attempt?, openAfter]
    | error => rfl
  | false =>
    cases move with
    | connect => cases ho
    | retry => cases ho
    | close => cases ho
    | abandoned => cases ho
    | opened _ h =>
      subst h
      rfl
    | refused state failure =>
      have active := Machine.isActive_of_connecting state
      rw [failure.events_eq (hd.sound.exhausted_of_active active), openAfter_failureEvents,
        failure.stream_eq]
    | data => exact openAfter_ofPayload _ _ _
    | closed => simp [Driver.attempt?, openAfter]
    | failed state failure =>
      have active := Machine.isActive_of_connected state
      rw [List.cons_append, events_closeStream, events_append,
        failure.events_eq (hd.sound.exhausted_of_active active), List.map_append,
        openAfter_append, openAfter_failureEvents, failure.stream_eq]
      simp [Driver.attempt?, openAfter]
    | timer => rfl

/-! ### The events of a run -/

/-- The inputs that some turns took. -/
def inputsOf (turns : List Turn) : List Input := turns.map (·.input)

/-- Whether the machine was exhausted after the last of some turns. -/
def exhaustedAfter (turns : List Turn) : Bool := turns.getLast?.any (·.after.machine.exhausted)

/-- An attempt that a turn starts is the one that the driver has under way then. -/
theorem pending_of_begun {t : Turn} (h : t.begun? = some g) : t.after.pending = some g := by
  unfold Turn.begun? at h
  split at h
  · exact h
  · cases h

/-- Along every run the word of an attempt is complete once the driver does not hold it any
more. -/
theorem Run.word_of_mem (run : Run (.new policy) turns d) :
    ∀ g ∈ begun turns,
      if d.attempt? = some g then Opening d (inputsOf (life turns g)) (word turns g)
      else Word policy.maxAttempts (inputsOf (life turns g)) (exhaustedAfter (life turns g))
        (word turns g) := by
  have start := Driver.coherent_new policy
  refine run.induction (P := fun turns d ↦ ∀ g ∈ begun turns,
      if d.attempt? = some g then Opening d (inputsOf (life turns g)) (word turns g)
      else Word policy.maxAttempts (inputsOf (life turns g)) (exhaustedAfter (life turns g))
        (word turns g)) start nofun ?_
  intro turns d₁ now input d₂ effects run hd ih move g hg
  have numbered := run.numbered
  rw [begun_concat, List.mem_append] at hg
  rcases hg with hg | hg
  · have old := ih g hg
    by_cases ha : d₁.attempt? = some g
    · -- The turn goes on with the word, or completes it.
      rw [if_pos ha] at old
      rw [life_concat_of_eq ha, word_concat_of_eq ha]
      rcases old.move hd move with ⟨he, more⟩ | ⟨hn, whole⟩
      · rw [if_pos (he.trans ha)]
        simpa [inputsOf] using more
      · rw [if_neg (ha ▸ hn)]
        have hp : d₁.machine.policy = policy := run.policy_eq start
        rw [hp] at whole
        simpa [inputsOf, exhaustedAfter] using whole
    · -- The word is of an earlier attempt, and stays as it is.
      have hn := (move.attempt_ne ha (numbered.le_generation g hg)).1
      rw [if_neg ha] at old
      rw [if_neg hn, life_concat_of_ne ha, word_concat_of_ne ha]
      exact old
  · -- The attempt has just started.
    have hb : Turn.begun? ⟨d₁, now, input, d₂, effects⟩ = some g := by simpa using hg
    obtain ⟨fresh, ha⟩ := numbered.fresh_of_begun hd move hb
    have hp : d₂.pending = some g := pending_of_begun hb
    have hs : d₂.attempt? = some g := by simp [Driver.attempt?, hp]
    rw [if_pos hs, life_concat_of_ne ha, word_concat_of_ne ha, word, numbered.life_eq_nil fresh]
    exact .awaited hp

/-- Along every run openings and closings take turns. -/
theorem Run.openAfter_told (run : Run (.new policy) turns d) :
    openAfter none (told turns) = some (d.stream.map (·.1)) := by
  refine run.induction (P := fun turns d ↦ openAfter none (told turns) = some (d.stream.map (·.1)))
    (Driver.coherent_new policy) rfl ?_
  intro turns d₁ now input d₂ effects _ hd ih move
  have more : told (turns ++ [⟨d₁, now, input, d₂, effects⟩]) =
      told turns ++ (events effects).map (d₁.attempt?, ·) := by simp [told]
  rw [more, openAfter_append, ih]
  exact move.openAfter_eq hd

/-- The events of every run, as they are handed over, are the words of its attempts, one after the
other in the order of the attempts. Each word is complete but that of the attempt which is still
held, the latest. Openings and closings take turns, and each closing is of the connection that
opened last. -/
theorem heard_of_run (run : Run (.new policy) turns d) :
    heard turns = (begun turns).flatMap (word turns) ∧
      (begun turns).Pairwise (· < ·) ∧
      (∀ g, d.attempt? = some g → (begun turns).getLast? = some g) ∧
      (∀ g ∈ begun turns,
        if d.attempt? = some g then Opening d (inputsOf (life turns g)) (word turns g)
        else Word policy.maxAttempts (inputsOf (life turns g)) (exhaustedAfter (life turns g))
          (word turns g)) ∧
      openAfter none (told turns) = some (d.stream.map (·.1)) :=
  ⟨run.heard_eq_flatMap, run.numbered.pairwise_lt, run.numbered.getLast?, run.word_of_mem,
    run.openAfter_told⟩

/-- In the sample run the first connection fails after one payload, and the automatic retry is
refused, which uses up the retries. -/
theorem heard_of_sample_run :
    ∃ turns d, (Driver.new ⟨1, 2000⟩).run? sampleInputs = some (turns, d) ∧
      Run (.new ⟨1, 2000⟩) turns d ∧ begun turns = [1, 2] ∧
      word turns 1 =
        [.opened, .ofPayload (.text "?"), .error (.transport .dropped), .closed] ∧
      word turns 2 = [.error (.transport .dropped), .error (.exhausted 1)] ∧
      heard turns = (begun turns).flatMap (word turns) ∧
      (begun turns).Pairwise (· < ·) ∧
      (∀ g, d.attempt? = some g → (begun turns).getLast? = some g) ∧
      (∀ g ∈ begun turns,
        if d.attempt? = some g then Opening d (inputsOf (life turns g)) (word turns g)
        else Word 1 (inputsOf (life turns g)) (exhaustedAfter (life turns g)) (word turns g)) ∧
      openAfter none (told turns) = some (d.stream.map (·.1)) := by
  have run := Run.of_run? (rfl : (Driver.new ⟨1, 2000⟩).run? sampleInputs = some (_, _))
  exact ⟨_, _, rfl, run, rfl, rfl, rfl, heard_of_run run⟩

end Quoteboard.Client
