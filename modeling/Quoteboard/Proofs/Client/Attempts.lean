import Quoteboard.Proofs.Client.Run

/-!
# The attempts of a run

A run is told attempt by attempt: the turns in which an attempt was under way or its connection
open are its life, and the events of these turns its word. Attempts begin under increasing
generations, at most one of them is held at a time, and no event is of an attempt other than the
one that is held; so what a consumer hears of a run is the words of its attempts, one after the
other.
-/

namespace Quoteboard.Client

open Quoteboard.Connection Quoteboard.Metrics Quoteboard.Transport

/-- The event that an effect hands to the consumer, if it hands one over. -/
def Effect.event? : Effect → Option ClientEvent
  | .emit event => some event
  | _ => none

/-- The events among some effects, in order. -/
def events (effects : List Effect) : List ClientEvent := effects.filterMap Effect.event?

/-- The attempt that a driver has under way, or whose connection it has open. -/
def Driver.attempt? (d : Driver) : Option Generation := d.pending.or (d.stream.map (·.1))

/-- The attempt that a turn starts, if it starts one. -/
def Turn.begun? (t : Turn) : Option Generation :=
  if .connect ∈ t.effects then t.after.pending else none

/-- The events that some turns hand to the consumer, before any is lost on the way. -/
def heard (turns : List Turn) : List ClientEvent := turns.flatMap fun t ↦ events t.effects

/-- The attempts that some turns start. -/
def begun (turns : List Turn) : List Generation := turns.filterMap Turn.begun?

/-- The turns that find an attempt under way or its connection open. -/
def life (turns : List Turn) (g : Generation) : List Turn :=
  turns.filter fun t ↦ t.before.attempt? = some g

/-- The events of the life of an attempt. -/
def word (turns : List Turn) (g : Generation) : List ClientEvent := heard (life turns g)

variable {d d' : Driver} {now : Moment} {input : Input} {effects more : List Effect}
  {policy : RetryPolicy} {turns : List Turn} {t : Turn} {g : Generation}

/-! ### Events and turns -/

@[simp] theorem events_nil : events [] = [] := rfl

@[simp] theorem events_append : events (effects ++ more) = events effects ++ events more :=
  List.filterMap_append

@[simp] theorem events_emit (e : ClientEvent) :
    events (.emit e :: effects) = e :: events effects := rfl

@[simp] theorem events_publish (s : Status) : events (.publish s :: effects) = events effects :=
  rfl

@[simp] theorem events_record (r : Recording) : events (.record r :: effects) = events effects :=
  rfl

@[simp] theorem events_closeStream (s : StreamId) :
    events (.closeStream s :: effects) = events effects := rfl

@[simp] theorem events_connect : events (.connect :: effects) = events effects := rfl

@[simp] theorem events_acknowledge : events (.acknowledge :: effects) = events effects := rfl

/-- Giving up what is held is not told by itself. -/
@[simp] theorem events_release (d : Driver) : events d.release = [] := by
  unfold Driver.release
  cases d.pending <;> cases d.stream <;> rfl

/-- The closing of what is held is told if a connection was open. -/
theorem events_closing (d : Driver) :
    events d.closing = if d.stream.isSome then [.closed] else [] := by
  unfold Driver.closing
  split <;> rfl

@[simp] theorem heard_concat : heard (turns ++ [t]) = heard turns ++ events t.effects := by
  simp [heard]

theorem begun_concat : begun (turns ++ [t]) = begun turns ++ t.begun?.toList := by
  cases h : t.begun? <;> simp [begun, h]

/-- A turn adds to the life of the attempt that it finds. -/
theorem life_concat_of_eq (h : t.before.attempt? = some g) :
    life (turns ++ [t]) g = life turns g ++ [t] := by
  simp [life, h]

/-- A turn adds to no other life. -/
theorem life_concat_of_ne (h : t.before.attempt? ≠ some g) :
    life (turns ++ [t]) g = life turns g := by
  simp [life, h]

/-! ### What a turn does to the attempt that is held -/

/-- Giving up what is held starts no attempt. -/
theorem connect_not_mem_release (d : Driver) : Effect.connect ∉ d.release := by
  unfold Driver.release
  cases d.pending <;> cases d.stream <;> simp

/-- Nor does telling of its closing. -/
theorem connect_not_mem_closing (d : Driver) : Effect.connect ∉ d.closing := by
  unfold Driver.closing
  split <;> simp

/-- The attempt that a coherent driver holds is that of the current generation. -/
theorem Driver.Coherent.generation_of_attempt (h : d.Coherent) (hg : d.attempt? = some g) :
    g = d.machine.generation := by
  obtain ⟨-, state, hi⟩ := h
  cases hi with
  | disconnected => cases hg
  | connecting => exact (Option.some.inj hg).symm
  | connected => exact (Option.some.inj hg).symm
  | error => cases hg

/-- No connection is open while an attempt is under way. -/
theorem Driver.Coherent.stream_of_pending (h : d.Coherent) (hp : d.pending = some g) :
    d.stream = none := by
  obtain ⟨-, state, hi⟩ := h
  cases hi with
  | connecting => rfl
  | disconnected => cases hp
  | connected => cases hp
  | error => cases hp

/-- The attempt that is held is that of the open connection. -/
theorem Driver.Coherent.attempt_of_stream (h : d.Coherent) {stream : StreamId}
    (hs : d.stream = some (g, stream)) : d.attempt? = some g := by
  cases hp : d.pending with
  | none => simp [Driver.attempt?, hp, hs]
  | some _ => cases (h.stream_of_pending hp).symm.trans hs

/-- A failure leaves no attempt, and starts none. -/
theorem Failure.attempt {m : Machine} {e : TransportError} (f : Failure m now e d' effects) :
    d'.attempt? = none ∧ d'.machine.generation = m.generation ∧ .connect ∉ effects := by
  cases f with
  | retry _ h => exact ⟨rfl, by rw [h], by simp⟩
  | exhausted _ h => exact ⟨rfl, by rw [h], by simp⟩

/-- No connection is left after a failure. -/
theorem Failure.stream_eq {m : Machine} {e : TransportError} (f : Failure m now e d' effects) :
    d'.stream = none := by
  cases f with
  | retry => rfl
  | exhausted => rfl

/-- What a turn can do about attempts: start one under the next generation, or start none and
either keep the one that is held or end it. -/
theorem Move.attempt_cases (move : Move now d input d' effects) :
    (Turn.begun? ⟨d, now, input, d', effects⟩ = some (d.machine.generation + 1) ∧
      d'.attempt? = some (d.machine.generation + 1) ∧
      d'.machine.generation = d.machine.generation + 1) ∨
    (Turn.begun? ⟨d, now, input, d', effects⟩ = none ∧
      d.machine.generation ≤ d'.machine.generation ∧
      (d'.attempt? = d.attempt? ∨ d'.attempt? = none)) := by
  have hr := connect_not_mem_release d
  have hc := connect_not_mem_closing d
  cases move with
  | connect h =>
    subst h
    exact .inl ⟨by simp [Turn.begun?, Machine.beginAttempt], rfl, rfl⟩
  | retry h =>
    subst h
    exact .inl ⟨by simp [Turn.begun?, Machine.manualRetry, Machine.beginAttempt], rfl, rfl⟩
  | close h =>
    refine .inr ⟨?_, by rw [h]; exact Machine.generation_le_close _, .inr rfl⟩
    simp [Turn.begun?, hr, hc]
  | abandoned h =>
    refine .inr ⟨?_, by rw [h]; exact Machine.generation_le_close _, .inr rfl⟩
    simp [Turn.begun?, hr, hc]
  | opened _ h =>
    subst h
    exact .inr ⟨by simp [Turn.begun?], Nat.le_refl _, .inl rfl⟩
  | refused _ failure =>
    obtain ⟨ha, hg, hn⟩ := failure.attempt
    exact .inr ⟨by simp [Turn.begun?, hn], Nat.le_of_eq hg.symm, .inr ha⟩
  | data => exact .inr ⟨by simp [Turn.begun?], Nat.le_refl _, .inl rfl⟩
  | closed _ h =>
    subst h
    exact .inr ⟨by simp [Turn.begun?], Nat.le_refl _, .inr rfl⟩
  | failed _ failure =>
    obtain ⟨ha, hg, hn⟩ := failure.attempt
    exact .inr ⟨by simp [Turn.begun?, hn], Nat.le_of_eq hg.symm, .inr ha⟩
  | timer _ _ h =>
    subst h
    exact .inl ⟨by simp [Turn.begun?, Machine.beginAttempt], rfl, rfl⟩

/-- Generations never go back. -/
theorem Move.generation_le (move : Move now d input d' effects) :
    d.machine.generation ≤ d'.machine.generation := by
  rcases move.attempt_cases with ⟨-, -, hn⟩ | ⟨-, hn, -⟩
  · exact hn ▸ Nat.le_succ _
  · exact hn

/-- An attempt that is over is not held again. -/
theorem Move.attempt_ne (move : Move now d input d' effects) (h : d.attempt? ≠ some g)
    (hg : g ≤ d.machine.generation) :
    d'.attempt? ≠ some g ∧ g ≤ d'.machine.generation := by
  rcases move.attempt_cases with ⟨-, ha, hn⟩ | ⟨-, hn, ha⟩
  · rw [ha, hn]
    refine ⟨fun he ↦ ?_, Nat.le_succ_of_le hg⟩
    exact Nat.not_succ_le_self _ (Option.some.inj he ▸ hg)
  · refine ⟨?_, Nat.le_trans hg hn⟩
    rcases ha with ha | ha
    · rwa [ha]
    · rw [ha]
      exact nofun

/-- Nothing is told while no attempt is held. -/
theorem Move.events_eq_nil (move : Move now d input d' effects) (h : d.attempt? = none) :
    events effects = [] := by
  have hs : d.stream.isSome = false := by
    cases hs : d.stream with
    | none => rfl
    | some held => cases hp : d.pending <;> simp [Driver.attempt?, hp, hs] at h
  cases move with
  | connect => simp [events_closing, hs]
  | retry => simp [events_closing, hs]
  | close => split <;> simp [events_closing, hs]
  | abandoned => split <;> simp [events_closing, hs]
  | opened => cases h
  | refused => cases h
  | data => cases h
  | closed => cases h
  | failed => cases h
  | timer => rfl

/-! ### Attempts along a run -/

/-- How the attempts of a run are numbered. -/
structure Numbered (turns : List Turn) (d : Driver) : Prop where
  /-- Each attempt has a greater generation than those before it. -/
  pairwise_lt : (begun turns).Pairwise (· < ·)
  le_generation : ∀ g ∈ begun turns, g ≤ d.machine.generation
  /-- Only the latest attempt can still be held. -/
  getLast? : ∀ g, d.attempt? = some g → (begun turns).getLast? = some g
  /-- A turn finds no attempt but those that were started. -/
  mem_begun : ∀ t ∈ turns, ∀ g, t.before.attempt? = some g → g ∈ begun turns

/-- The attempts of every run are numbered in order. -/
theorem Run.numbered (run : Run (.new policy) turns d) : Numbered turns d := by
  have start : Numbered [] (.new policy) :=
    ⟨.nil, by simp [begun], by simp [Driver.attempt?, Driver.new], by simp⟩
  refine run.induction (Driver.coherent_new policy) start ?_
  intro turns d₁ now input d₂ effects _ _ ih move
  -- Whether the turn starts an attempt or not, the one that it finds was started before.
  have found : ∀ t ∈ turns ++ [⟨d₁, now, input, d₂, effects⟩], ∀ g,
      t.before.attempt? = some g → g ∈ begun (turns ++ [⟨d₁, now, input, d₂, effects⟩]) := by
    intro t ht g htg
    rw [begun_concat]
    apply List.mem_append_left
    simp only [List.mem_append, List.mem_singleton] at ht
    rcases ht with ht | rfl
    · exact ih.mem_begun t ht g htg
    · exact List.mem_of_getLast? (ih.getLast? g htg)
  rcases move.attempt_cases with ⟨hb, ha, hg⟩ | ⟨hb, hg, ha⟩
  · constructor
    · rw [begun_concat, hb]
      apply List.pairwise_append.mpr
      refine ⟨ih.pairwise_lt, by simp, ?_⟩
      intro g hm g' hm'
      have hle := ih.le_generation g hm
      rw [Option.toList_some, List.mem_singleton] at hm'
      exact hm' ▸ Nat.lt_succ_of_le hle
    · intro g hm
      rw [begun_concat, hb] at hm
      simp only [Option.toList_some, List.mem_append, List.mem_singleton] at hm
      rcases hm with hm | hm
      · exact hg ▸ Nat.le_succ_of_le (ih.le_generation g hm)
      · exact hm ▸ Nat.le_of_eq hg.symm
    · intro g hd
      rw [begun_concat, hb]
      rw [ha] at hd
      simpa using hd
    · exact found
  · constructor
    · simpa [begun_concat, hb] using ih.pairwise_lt
    · intro g hm
      rw [begun_concat, hb] at hm
      simp only [Option.toList_none, List.append_nil] at hm
      exact Nat.le_trans (ih.le_generation g hm) hg
    · intro g hd
      rw [begun_concat, hb]
      rcases ha with ha | ha
      · simpa using ih.getLast? g (ha ▸ hd)
      · rw [ha] at hd
        cases hd
    · exact found

/-- An attempt that is yet to start has no life so far. -/
theorem Numbered.life_eq_nil (h : Numbered turns d) (hg : g ∉ begun turns) :
    life turns g = [] := by
  refine List.filter_eq_nil_iff.mpr fun t ht he ↦ ?_
  exact hg (h.mem_begun t ht g (by simpa using he))

/-- A turn adds its events to the word of the attempt that it finds. -/
theorem word_concat_of_eq (h : t.before.attempt? = some g) :
    word (turns ++ [t]) g = word turns g ++ events t.effects := by
  rw [word, life_concat_of_eq h, heard_concat, word]

/-- A turn adds to no other word. -/
theorem word_concat_of_ne (h : t.before.attempt? ≠ some g) :
    word (turns ++ [t]) g = word turns g := by
  rw [word, life_concat_of_ne h, word]

/-- Nor does it to those of several attempts that it does not find. -/
theorem flatMap_word_concat {gs : List Generation}
    (h : ∀ g ∈ gs, t.before.attempt? ≠ some g) :
    gs.flatMap (word (turns ++ [t])) = gs.flatMap (word turns) := by
  rw [List.flatMap_def, List.flatMap_def]
  congr 1
  exact List.map_congr_left fun g hg ↦ word_concat_of_ne (h g hg)

/-- What a turn tells is added to the words of the attempts so far. -/
theorem Numbered.flatMap_concat (h : Numbered turns d) (move : Move now d input d' effects) :
    (begun turns).flatMap (word (turns ++ [⟨d, now, input, d', effects⟩])) =
      (begun turns).flatMap (word turns) ++ events effects := by
  cases hd : d.attempt? with
  | none =>
    rw [move.events_eq_nil hd, List.append_nil]
    apply flatMap_word_concat
    intro g _ he
    exact nomatch hd.symm.trans he
  | some g =>
    obtain ⟨front, hf⟩ := List.getLast?_eq_some_iff.mp (h.getLast? g hd)
    have hlt := h.pairwise_lt
    rw [hf, List.pairwise_append] at hlt
    have same : front.flatMap (word (turns ++ [⟨d, now, input, d', effects⟩])) =
        front.flatMap (word turns) := by
      apply flatMap_word_concat
      intro g' hg' he
      have lt := hlt.2.2 g' hg' g (List.mem_singleton_self g)
      exact Nat.ne_of_gt lt (Option.some.inj (hd.symm.trans he))
    rw [hf, List.flatMap_append, List.flatMap_append, same, List.flatMap_singleton,
      List.flatMap_singleton, word_concat_of_eq hd, List.append_assoc]

/-- An attempt that a turn starts is new, and not the one that the turn finds. -/
theorem Numbered.fresh_of_begun (h : Numbered turns d) (hd : d.Coherent)
    (move : Move now d input d' effects)
    (hg : Turn.begun? ⟨d, now, input, d', effects⟩ = some g) :
    g ∉ begun turns ∧ d.attempt? ≠ some g := by
  rcases move.attempt_cases with ⟨hb, -, -⟩ | ⟨hb, -, -⟩
  · obtain rfl := Option.some.inj (hb.symm.trans hg)
    constructor
    · intro hm
      exact Nat.not_succ_le_self _ (h.le_generation _ hm)
    · intro ha
      exact Nat.succ_ne_self _ (hd.generation_of_attempt ha)
  · rw [hb] at hg
    cases hg

/-- Along a run an attempt that is over is not found again. -/
theorem Run.attempt_ne (run : Run d turns d') (hd : d.Coherent) (h : d.attempt? ≠ some g)
    (hg : g ≤ d.machine.generation) : ∀ t ∈ turns, t.before.attempt? ≠ some g := by
  induction run with
  | nil => simp
  | cons now input awaited _ ih =>
    have move := hd.move awaited
    obtain ⟨next, hle⟩ := move.attempt_ne h hg
    exact List.forall_mem_cons.mpr ⟨h, ih (move.coherent hd) next hle⟩

/-- What is told of a run is the words of its attempts, in the order in which they started. -/
theorem Run.heard_eq_flatMap (run : Run (.new policy) turns d) :
    heard turns = (begun turns).flatMap (word turns) := by
  refine run.induction (P := fun turns _ ↦ heard turns = (begun turns).flatMap (word turns))
    (Driver.coherent_new policy) rfl ?_
  intro turns d₁ now input d₂ effects run hd ih move
  have numbered := run.numbered
  rw [heard_concat, begun_concat, List.flatMap_append, numbered.flatMap_concat move, ← ih]
  cases hb : Turn.begun? ⟨d₁, now, input, d₂, effects⟩ with
  | none => simp
  | some g =>
    obtain ⟨fresh, ha⟩ := numbered.fresh_of_begun hd move hb
    have none_yet : word (turns ++ [⟨d₁, now, input, d₂, effects⟩]) g = [] := by
      rw [word_concat_of_ne ha, word, numbered.life_eq_nil fresh]
      rfl
    simp [none_yet]

end Quoteboard.Client
