import Quoteboard.Proofs.Client.Attempts

/-!
# Deliveries

What a client tells of payloads, connection by connection: the results told between an opening and
the closing that follows it are those of the payloads that this connection has brought, one for one
and in order. An event is taken only from a connection that has brought nothing but payloads since
it opened, and a payload, whatever it holds, changes nothing.
-/

namespace Quoteboard.Client

open Quoteboard.Connection Quoteboard.Metrics Quoteboard.Transport
open Quoteboard.Market (Snapshot)
open Quoteboard.Market.Feed (Payload ProtocolError receive)

/-! ### What is told between openings and closings -/

/-- What reading a payload has come to. -/
abbrev Result := Except ProtocolError Snapshot

/-- The results that a sequence of events tells of, in order, cut at openings and closings. -/
structure Deliveries where
  /-- Those between an opening and the closing that followed, one list for each. -/
  past : List (List Result)
  /-- Those since the latest opening, if no closing has followed it. -/
  current : Option (List Result)
  /-- Those after a closing, or before the first opening. -/
  outside : List Result

namespace Deliveries

/-- One more result. -/
def tell (s : Deliveries) (r : Result) : Deliveries :=
  match s.current with
  | some results => { s with current := some (results ++ [r]) }
  | none => { s with outside := s.outside ++ [r] }

/-- One more event. -/
def add (s : Deliveries) : ClientEvent → Deliveries
  | .opened => { s with past := s.past ++ s.current.toList, current := some [] }
  | .closed => { s with past := s.past ++ s.current.toList, current := none }
  | .message snapshot => s.tell (.ok snapshot)
  | .error (.protocol e) => s.tell (.error e)
  | .error _ => s

/-- The results that some events tell of. -/
def ofEvents (events : List ClientEvent) : Deliveries := events.foldl add ⟨[], none, []⟩

end Deliveries

/-! ### What is read, by connections -/

/-- The connection that a turn opens, with the attempt it is of, if it opens one. -/
def Turn.opening? (t : Turn) : Option (Generation × StreamId) :=
  match t.input with
  | .resolved (.ok stream) => t.before.pending.map (·, stream)
  | _ => none

/-- The payload that a turn takes from a connection, if it takes one. -/
def Turn.payload? (t : Turn) (a : Generation × StreamId) : Option Payload :=
  match t.input with
  | .received (.data payload) => if t.before.stream = some a then some payload else none
  | _ => none

/-- The connections that some turns open, in order. -/
def openings (turns : List Turn) : List (Generation × StreamId) := turns.filterMap Turn.opening?

/-- What the payloads that some turns take from a connection come to, in order. -/
def results (turns : List Turn) (a : Generation × StreamId) : List Result :=
  (turns.filterMap (·.payload? a)).map receive

/-- How the payloads of a run are told. -/
structure Delivers (turns : List Turn) (d : Driver) : Prop where
  /-- For each connection the results of its payloads are told between its opening and its closing,
  or so far if it is open, and none are told otherwise. -/
  deliveries_eq : ∃ ended, openings turns = ended ++ d.stream.toList ∧
    Deliveries.ofEvents (heard turns) =
      ⟨ended.map (results turns), d.stream.map (results turns), []⟩
  /-- The connections are of attempts of their own. -/
  pairwise_lt : (openings turns).Pairwise (·.1 < ·.1)
  /-- An event is taken from the connection of the latest attempt, which has brought nothing but
  payloads since it opened. -/
  live : ∀ (front : List Turn) (t : Turn) (back : List Turn) (event : TransportEvent),
    turns = front ++ t :: back → t.input = .received event →
      ∃ (before : List Turn) (o : Turn) (since : List Turn) (a : Generation × StreamId),
        front = before ++ o :: since ∧ o.opening? = some a ∧ t.before.stream = some a ∧
        (begun front).getLast? = some a.1 ∧
        ∀ u ∈ since, u.before.stream = some a ∧ ∃ payload, u.input = .received (.data payload)
  /-- Nothing is taken from a connection that has ended or was closed. -/
  finished : ∀ (front : List Turn) (t : Turn) (back : List Turn) (a : Generation × StreamId),
    turns = front ++ t :: back → t.before.stream = some a →
      t.input = .received .closed ∨ (∃ e, t.input = .received (.failed e)) ∨
        .closeStream a.2 ∈ t.effects →
      ∀ u ∈ back, u.before.stream ≠ some a
  /-- A payload leaves the driver as it is, and only its result is told. -/
  data : ∀ t ∈ turns, ∀ payload, t.input = .received (.data payload) →
    t.after = t.before ∧ t.effects = [.emit (.ofPayload payload)]

variable {d d' : Driver} {now : Moment} {input : Input} {effects : List Effect}
  {policy : RetryPolicy} {turns : List Turn} {t : Turn} {g : Generation}
  {a : Generation × StreamId}

/-- A payload is told by its result. -/
theorem Deliveries.add_ofPayload (s : Deliveries) (payload : Payload) :
    s.add (.ofPayload payload) = s.tell (receive payload) := by
  unfold ClientEvent.ofPayload
  cases receive payload with
  | ok snapshot => rfl
  | error e => rfl

/-- A turn opens a connection if the attempt that it finds under way has come to one. -/
theorem Turn.opening?_eq_some_iff :
    t.opening? = some a ↔ t.input = .resolved (.ok a.2) ∧ t.before.pending = some a.1 := by
  obtain ⟨d, now, input, d', effects⟩ := t
  cases input with
  | resolved result =>
    cases result with
    | error => simp [Turn.opening?]
    | ok stream =>
      simp only [Turn.opening?, Option.map_eq_some_iff, Input.resolved.injEq, Except.ok.injEq]
      constructor
      · rintro ⟨g, hp, rfl⟩
        exact ⟨rfl, hp⟩
      · rintro ⟨rfl, hp⟩
        exact ⟨a.1, hp, rfl⟩
  | command => simp [Turn.opening?]
  | abandoned => simp [Turn.opening?]
  | received => simp [Turn.opening?]
  | retryTimer => simp [Turn.opening?]

/-- A turn takes a payload from the connection that it finds open. -/
theorem Turn.payload?_eq_some_iff {payload : Payload} :
    t.payload? a = some payload ↔
      t.input = .received (.data payload) ∧ t.before.stream = some a := by
  obtain ⟨d, now, input, d', effects⟩ := t
  cases input with
  | received event => cases event <;> simp [Turn.payload?, and_comm]
  | command => simp [Turn.payload?]
  | abandoned => simp [Turn.payload?]
  | resolved => simp [Turn.payload?]
  | retryTimer => simp [Turn.payload?]

theorem openings_concat : openings (turns ++ [t]) = openings turns ++ t.opening?.toList := by
  cases h : t.opening? <;> simp [openings, h]

/-- A turn adds the result of the payload that it takes. -/
theorem results_concat :
    results (turns ++ [t]) a = results turns a ++ ((t.payload? a).map receive).toList := by
  cases h : t.payload? a <;> simp [results, h]

/-! ### What a turn tells and reads -/

/-- A failure by itself opens and closes nothing, and tells of no payload. -/
theorem Failure.foldl_add {m : Machine} {e : TransportError} (f : Failure m now e d' effects)
    (s : Deliveries) : (events effects).foldl Deliveries.add s = s := by
  cases f with
  | retry => rfl
  | exhausted => rfl

/-- What a turn can do about connections: open one, tell of a payload of the one that is open, or
leave none open. -/
theorem Move.delivery_cases (move : Move now d input d' effects) :
    (∃ g stream, input = .resolved (.ok stream) ∧ d.pending = some g ∧ d.stream = none ∧
      d'.stream = some (g, stream) ∧ events effects = [.opened]) ∨
    (∃ a payload, input = .received (.data payload) ∧ d.stream = some a ∧ d' = d ∧
      effects = [.emit (.ofPayload payload)]) ∨
    ((∀ stream, input ≠ .resolved (.ok stream)) ∧ (∀ payload, input ≠ .received (.data payload)) ∧
      d'.stream = none ∧ ∀ s, (events effects).foldl Deliveries.add s =
        if d.stream.isSome then s.add .closed else s) := by
  cases move with
  | connect =>
    refine .inr (.inr ⟨nofun, nofun, rfl, fun s ↦ ?_⟩)
    cases hs : d.stream <;> simp [events_closing, hs]
  | retry =>
    refine .inr (.inr ⟨nofun, nofun, rfl, fun s ↦ ?_⟩)
    cases hs : d.stream <;> simp [events_closing, hs]
  | close =>
    refine .inr (.inr ⟨nofun, nofun, rfl, fun s ↦ ?_⟩)
    cases hs : d.stream <;> split <;> simp [events_closing, hs]
  | abandoned =>
    refine .inr (.inr ⟨nofun, nofun, rfl, fun s ↦ ?_⟩)
    cases hs : d.stream <;> split <;> simp [events_closing, hs]
  | opened _ h =>
    subst h
    exact .inl ⟨_, _, rfl, rfl, rfl, rfl, rfl⟩
  | refused _ failure =>
    exact .inr (.inr ⟨nofun, nofun, failure.stream_eq, failure.foldl_add⟩)
  | data => exact .inr (.inl ⟨_, _, rfl, rfl, rfl, rfl⟩)
  | closed => exact .inr (.inr ⟨nofun, nofun, rfl, fun s ↦ rfl⟩)
  | failed _ failure =>
    refine .inr (.inr ⟨nofun, nofun, failure.stream_eq, fun s ↦ ?_⟩)
    rw [List.cons_append, events_closeStream, events_append, List.foldl_append,
      failure.foldl_add]
    rfl
  | timer => exact .inr (.inr ⟨nofun, nofun, rfl, fun s ↦ rfl⟩)

/-- An attempt that is under way after a turn is one that the turn has started. -/
theorem Move.eq_of_pending (move : Move now d input d' effects) (h : d'.pending = some g) :
    g = d.machine.generation + 1 := by
  have none_left {m : Machine} {e : TransportError} {effects : List Effect}
      (failure : Failure m now e d' effects) : False := by
    have nothing := failure.attempt.1
    rw [Driver.attempt?, h] at nothing
    cases nothing
  cases move with
  | connect hm =>
    subst hm
    exact (Option.some.inj h).symm
  | retry hm =>
    subst hm
    exact (Option.some.inj h).symm
  | close => cases h
  | abandoned => cases h
  | opened => cases h
  | refused _ failure => exact (none_left failure).elim
  | data => cases h
  | closed => cases h
  | failed _ failure => exact (none_left failure).elim
  | timer _ _ hm =>
    subst hm
    exact (Option.some.inj h).symm

/-! ### Connections along a run -/

/-- How the connections that some turns open are numbered. -/
structure Opened (turns : List Turn) (d : Driver) : Prop where
  pairwise_lt : (openings turns).Pairwise (·.1 < ·.1)
  le_generation : ∀ a ∈ openings turns, a.1 ≤ d.machine.generation
  /-- The attempt that is under way comes after those that opened. -/
  lt_of_pending : ∀ g, d.pending = some g → ∀ a ∈ openings turns, a.1 < g
  mem_of_stream : ∀ a, d.stream = some a → a ∈ openings turns
  /-- A turn finds no connection but those that were opened. -/
  mem_openings : ∀ t ∈ turns, ∀ a, t.before.stream = some a → a ∈ openings turns

/-- The connections of every run are numbered in order. -/
theorem Run.opened (run : Run (.new policy) turns d) : Opened turns d := by
  have start : Opened [] (.new policy) :=
    ⟨.nil, by simp [openings], by simp [openings], nofun, by simp⟩
  refine run.induction (Driver.coherent_new policy) start ?_
  intro turns d₁ now input d₂ effects _ hd ih move
  generalize ht : Turn.mk d₁ now input d₂ effects = t
  -- The attempt whose connection opens now is the one that was under way, and so the current one.
  have fresh : ∀ a ∈ t.opening?, d₁.pending = some a.1 ∧ a.1 = d₁.machine.generation := by
    intro a ha
    obtain ⟨-, hp⟩ := Turn.opening?_eq_some_iff.mp ha
    subst ht
    exact ⟨hp, hd.generation_of_attempt (by simp [Driver.attempt?, show d₁.pending = _ from hp])⟩
  have sofar : ∀ a ∈ openings (turns ++ [t]), a.1 ≤ d₁.machine.generation := by
    intro a ha
    rw [openings_concat, List.mem_append, Option.mem_toList] at ha
    rcases ha with ha | ha
    · exact ih.le_generation a ha
    · exact Nat.le_of_eq (fresh a ha).2
  constructor
  · rw [openings_concat, List.pairwise_append]
    refine ⟨ih.pairwise_lt, ?_, ?_⟩
    · cases t.opening? <;> simp
    · intro a ha b hb
      exact ih.lt_of_pending b.1 (fresh b (Option.mem_toList.mp hb)).1 a ha
  · intro a ha
    exact Nat.le_trans (sofar a ha) move.generation_le
  · intro g hg a ha
    rw [move.eq_of_pending hg]
    exact Nat.lt_succ_of_le (sofar a ha)
  · intro a ha
    rw [openings_concat, List.mem_append, Option.mem_toList]
    rcases move.delivery_cases with
      ⟨g, stream, hi, hp, -, hs, -⟩ | ⟨_, _, -, -, rfl, -⟩ | ⟨-, -, hs, -⟩
    · obtain rfl := Option.some.inj (hs.symm.trans ha)
      exact .inr (Turn.opening?_eq_some_iff.mpr (ht ▸ ⟨hi, hp⟩))
    · exact .inl (ih.mem_of_stream a ha)
    · cases hs.symm.trans ha
  · intro u hu a ha
    rw [openings_concat, List.mem_append]
    rcases List.mem_append.mp hu with hu | hu
    · exact .inl (ih.mem_openings u hu a ha)
    · rw [List.mem_singleton.mp hu, ← ht] at ha
      exact .inl (ih.mem_of_stream a ha)

/-- Nothing was taken so far from a connection that has yet to open. -/
theorem Opened.results_eq_nil (h : Opened turns d) (ha : a ∉ openings turns) :
    results turns a = [] := by
  have none_taken : turns.filterMap (·.payload? a) = [] := by
    refine List.filterMap_eq_nil_iff.mpr fun t ht ↦ ?_
    cases hp : t.payload? a with
    | none => rfl
    | some payload => exact absurd (h.mem_openings t ht a (Turn.payload?_eq_some_iff.mp hp).2) ha
  rw [results, none_taken]
  rfl

/-- A turn adds to no results but those of the connection that it finds open. -/
theorem results_concat_of_ne (h : t.before.stream ≠ some a) :
    results (turns ++ [t]) a = results turns a := by
  have hp : t.payload? a = none :=
    Option.eq_none_iff_forall_ne_some.mpr fun _ hp ↦ h (Turn.payload?_eq_some_iff.mp hp).2
  simp [results_concat, hp]

/-- Nor to any if it takes no payload. -/
theorem results_concat_of_no_data (h : ∀ payload, t.input ≠ .received (.data payload)) :
    results (turns ++ [t]) = results turns := by
  funext a
  have hp : t.payload? a = none :=
    Option.eq_none_iff_forall_ne_some.mpr fun p hp ↦ h p (Turn.payload?_eq_some_iff.mp hp).1
  simp [results_concat, hp]

/-- Along every run the results told for a connection are those of its payloads. -/
theorem Run.deliveries_eq (run : Run (.new policy) turns d) :
    ∃ ended, openings turns = ended ++ d.stream.toList ∧
      Deliveries.ofEvents (heard turns) =
        ⟨ended.map (results turns), d.stream.map (results turns), []⟩ := by
  refine run.induction (P := fun turns d ↦ ∃ ended, openings turns = ended ++ d.stream.toList ∧
      Deliveries.ofEvents (heard turns) =
        ⟨ended.map (results turns), d.stream.map (results turns), []⟩)
    (Driver.coherent_new policy) ⟨[], rfl, rfl⟩ ?_
  rintro turns d₁ now input d₂ effects run hd ⟨ended, ho, ih⟩ move
  have opened := run.opened
  rw [openings_concat, heard_concat, Deliveries.ofEvents, List.foldl_append,
    ← Deliveries.ofEvents, ih, ho]
  rcases move.delivery_cases with
    ⟨g, stream, rfl, hp, hn, hs, he⟩ | ⟨a, payload, rfl, hs, rfl, rfl⟩ | ⟨hr, hd, hs, he⟩
  · -- A connection opens, from which nothing has been taken so far.
    have fresh : (g, stream) ∉ openings turns := fun hm ↦
      Nat.lt_irrefl g (opened.lt_of_pending g hp _ hm)
    refine ⟨ended, by simp [Turn.opening?, hp, hn, hs], ?_⟩
    rw [results_concat_of_no_data (by simp), hs, he, hn]
    simp [Deliveries.add, opened.results_eq_nil fresh]
  · -- A result is told of the open connection, which is none of those before it.
    rw [hs, Option.toList_some] at ho
    have earlier : ∀ b ∈ ended, b.1 < a.1 := fun b hb ↦ by
      have lt := opened.pairwise_lt
      rw [ho, List.pairwise_append] at lt
      exact lt.2.2 b hb a (List.mem_singleton_self a)
    have same : ended.map (results (turns ++ [⟨d₂, now, .received (.data payload), d₂,
        [.emit (.ofPayload payload)]⟩])) = ended.map (results turns) := by
      refine List.map_congr_left fun b hb ↦ results_concat_of_ne fun he ↦ ?_
      have eq := Option.some.inj (hs.symm.trans he)
      exact Nat.lt_irrefl _ (eq ▸ earlier b hb)
    refine ⟨ended, by simp [Turn.opening?, hs], ?_⟩
    rw [same, hs]
    simp [Deliveries.add_ofPayload, Deliveries.tell, results_concat, Turn.payload?, hs]
  · -- The connection that was open, if any, is closed.
    have hno : Turn.opening? ⟨d₁, now, input, d₂, effects⟩ = none :=
      Option.eq_none_iff_forall_ne_some.mpr fun a ha ↦
        hr a.2 (Turn.opening?_eq_some_iff.mp ha).1
    refine ⟨ended ++ d₁.stream.toList, by simp [hno, hs], ?_⟩
    rw [results_concat_of_no_data hd, he, hs]
    cases d₁.stream with
    | none => simp
    | some a => simp [Deliveries.add]

/-! ### What is read along a run -/

/-- A connection that is open after a run has brought nothing but payloads since it opened. -/
theorem Run.exists_opening (run : Run (.new policy) turns d) (h : d.stream = some a) :
    ∃ (before : List Turn) (o : Turn) (since : List Turn), turns = before ++ o :: since ∧
      o.opening? = some a ∧
      ∀ u ∈ since, u.before.stream = some a ∧ ∃ payload, u.input = .received (.data payload) := by
  refine run.induction (P := fun turns d ↦ d.stream = some a →
      ∃ (before : List Turn) (o : Turn) (since : List Turn), turns = before ++ o :: since ∧
        o.opening? = some a ∧
        ∀ u ∈ since, u.before.stream = some a ∧ ∃ payload, u.input = .received (.data payload))
    (Driver.coherent_new policy) nofun ?_ h
  intro turns d₁ now input d₂ effects _ _ ih move h
  rcases move.delivery_cases with
    ⟨g, stream, hi, hp, -, hs, -⟩ | ⟨_, payload, hi, -, rfl, -⟩ | ⟨-, -, hs, -⟩
  · obtain rfl := Option.some.inj (hs.symm.trans h)
    exact ⟨turns, _, [], rfl, Turn.opening?_eq_some_iff.mpr ⟨hi, hp⟩, by simp⟩
  · obtain ⟨before, o, since, rfl, ho, hd⟩ := ih h
    refine ⟨before, o, since ++ [⟨d₂, now, input, d₂, effects⟩], by simp, ho, fun u hu ↦ ?_⟩
    rcases List.mem_append.mp hu with hu | hu
    · exact hd u hu
    · obtain rfl := List.mem_singleton.mp hu
      exact ⟨h, payload, hi⟩
  · cases hs.symm.trans h

/-- An event is taken only from a connection that is open. -/
theorem Move.exists_stream {event : TransportEvent}
    (move : Move now d (.received event) d' effects) : ∃ a, d.stream = some a := by
  cases move with
  | data => exact ⟨_, rfl⟩
  | closed => exact ⟨_, rfl⟩
  | failed => exact ⟨_, rfl⟩

/-- The attempt of a connection that a turn ends is over. -/
theorem Move.attempt_ne_of_stream (move : Move now d input d' effects) (hd : d.Coherent)
    (h : d.stream = some a) (hs : d'.stream = none) : d'.attempt? ≠ some a.1 := by
  intro he
  have hp : d'.pending = some a.1 := by simpa [Driver.attempt?, hs] using he
  have current := hd.generation_of_attempt (hd.attempt_of_stream h)
  have next := move.eq_of_pending hp
  exact Nat.succ_ne_self _ (next.symm.trans current)

/-- A turn that finds a connection open leaves it, if something else than a payload comes. -/
theorem Move.stream_eq_none (move : Move now d input d' effects) (h : d.stream = some a)
    (ended : input = .received .closed ∨ (∃ e, input = .received (.failed e)) ∨
      .closeStream a.2 ∈ effects) : d'.stream = none := by
  rcases move.delivery_cases with ⟨_, _, -, -, hn, -⟩ | ⟨_, _, rfl, -, -, rfl⟩ | ⟨-, -, hs, -⟩
  · cases hn.symm.trans h
  · simp at ended
  · exact hs

/-- What every run tells of payloads between the opening of a connection and its closing is what
those taken from this connection come to. Events are taken only from the connection of the latest
attempt, up to the first that is not a payload; payloads leave the driver as it is. -/
theorem delivers_of_run (run : Run (.new policy) turns d) : Delivers turns d := by
  have start := Driver.coherent_new policy
  refine ⟨run.deliveries_eq, run.opened.pairwise_lt, ?_, ?_, ?_⟩
  · rintro front t back event rfl ht
    obtain ⟨first, -, -, move⟩ := run.split_turn start
    rw [ht] at move
    obtain ⟨a, ha⟩ := move.exists_stream
    obtain ⟨before, o, since, hf, ho, data⟩ := first.exists_opening ha
    have latest := first.numbered.getLast? a.1 ((first.coherent start).attempt_of_stream ha)
    exact ⟨before, o, since, a, hf, ho, ha, latest, data⟩
  · rintro front t back a rfl ha ended u hu he
    obtain ⟨first, -, rest, move⟩ := run.split_turn start
    have hd := first.coherent start
    have after := move.coherent hd
    have current := hd.generation_of_attempt (hd.attempt_of_stream ha)
    have gone := move.attempt_ne_of_stream hd ha (move.stream_eq_none ha ended)
    have never := rest.attempt_ne after gone (current ▸ move.generation_le) u hu
    exact never ((rest.move_of_mem after hu).1.attempt_of_stream he)
  · intro t ht payload hi
    rcases (run.move_of_mem start ht).2.delivery_cases with
      ⟨_, _, hr, -⟩ | ⟨_, _, hp, -, hd, he⟩ | ⟨-, hn, -⟩
    · cases hi.symm.trans hr
    · cases hi.symm.trans hp
      exact ⟨hd, he⟩
    · exact absurd hi (hn payload)

/-- In this run the first of two connections brings one payload and the second brings two. -/
theorem delivers_of_replaced_run :
    ∃ turns d, (Driver.new ⟨1, 2000⟩).run? replacedInputs = some (turns, d) ∧
      Run (.new ⟨1, 2000⟩) turns d ∧ openings turns = [(1, 7), (2, 8)] ∧
      results turns (1, 7) = [receive (.text "?")] ∧
      results turns (2, 8) = [receive (.text "!"), receive (.binary .empty)] ∧
      Delivers turns d := by
  have run := Run.of_run? (rfl : (Driver.new ⟨1, 2000⟩).run? replacedInputs = some (_, _))
  exact ⟨_, _, rfl, run, rfl, rfl, rfl, delivers_of_run run⟩

end Quoteboard.Client
