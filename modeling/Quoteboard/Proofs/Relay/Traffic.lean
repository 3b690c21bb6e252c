import Quoteboard.Proofs.Relay.Opening

/-!
# Pairs beside one another

The pairs of a relay go on by themselves and share a registry. What a pair does is carried into the
registry effect by effect, and between any two of these other pairs may go on, viewers may come,
and pairs may be stopped from outside. A relay that goes on step by step, each with all its
effects, is one case of this. A pair does not depend on what the others do, so its acts can be left
out of a history without changing theirs.
-/

namespace Quoteboard.Relay

open Quoteboard.Config (RelaySettings)
open Quoteboard.Transport

/-- A pair at work. -/
structure Task where
  pair : Pair
  /-- The turns that it took. -/
  turns : List Pair.Turn
  /-- What it did in these turns, as far as that was carried into the registry. -/
  done : List PairEffect
  /-- The rest of it, which comes next. -/
  due : List PairEffect

namespace Task

/-- A pair that has just started. -/
def new (target : String) : Task := ⟨.new target, [], [], []⟩

/-- Take an input. A pair passes it over while it is at work on the one before, and if it does not
wait for it. -/
def take (t : Task) (timeout : Duration) (input : PairInput) (written : Except String Unit) :
    Task :=
  if t.due.isEmpty && t.pair.awaits input then
    let turn := t.pair.turn timeout input written
    ⟨turn.after, t.turns ++ [turn], t.done, turn.effects⟩
  else t

/-- The next effect is carried into the registry. -/
def carry (t : Task) : Task :=
  { t with done := t.done ++ t.due.head?.toList, due := t.due.tail }

/-- Whether a pair has ended for a reason, and nothing is left to do for it. -/
def hasEnded (t : Task) (reason : TeardownReason) : Bool :=
  t.pair.phase = .ended reason && t.due.isEmpty

end Task

/-- What can happen in a relay. -/
inductive Act where
  /-- A viewer connects. -/
  | connect
  /-- A pair takes an input. -/
  | take (id : PairId) (input : PairInput) (written : Except String Unit)
  /-- The next effect of a pair is carried into the registry. -/
  | carry (id : PairId)
  /-- Pairs are removed or told to stop from outside. -/
  | ask (call : Call)

/-- The pair that goes on in an act, if one does. -/
def Act.subject? : Act → Option PairId
  | .take id _ _ | .carry id => some id
  | .connect | .ask _ => none

/-- A relay whose pairs go on by themselves. -/
structure Traffic where
  settings : RelaySettings
  registry : Registry
  /-- The pairs by their numbers. -/
  tasks : List Task
  /-- The outcomes that pairs noted, each with the number of the pair, the latest at the end. -/
  noted : List (PairId × Bool)

namespace Traffic

/-- A relay without pairs. -/
def new (settings : RelaySettings) : Traffic := ⟨settings, .new, [], []⟩

/-- What comes next from a pair. -/
def next? (s : Traffic) (id : PairId) : Option PairEffect :=
  s.tasks[id]?.bind (·.due.head?)

/-- What an act makes of a relay. -/
def act (s : Traffic) : Act → Traffic
  | .connect =>
    { s with
        registry := (s.registry.register Hub.root).1
        tasks := s.tasks ++ [.new s.settings.sourceUrl] }
  | .take id input written =>
    { s with tasks := s.tasks.modify id (·.take s.settings.connectTimeout input written) }
  | .carry id =>
    match s.next? id with
    | none => s
    | some effect =>
      { s with
          registry := Hub.note id s.registry effect
          tasks := s.tasks.modify id .carry
          noted := s.noted ++ (effect.noted?.map (id, ·)).toList }
  | .ask call => if call.onlyStops then { s with registry := (s.registry.call call).1 } else s

/-- What acts make of a relay. -/
def after (s : Traffic) (acts : List Act) : Traffic := acts.foldl act s

variable {settings : RelaySettings} {s s' : Traffic} {id other : PairId} {t t' : Task}

@[simp] theorem after_nil (s : Traffic) : s.after [] = s := rfl

@[simp] theorem after_cons (s : Traffic) (a : Act) (acts : List Act) :
    s.after (a :: acts) = (s.act a).after acts := rfl

theorem after_append (s : Traffic) (acts more : List Act) :
    s.after (acts ++ more) = (s.after acts).after more :=
  List.foldl_append

/-- No act changes the settings. -/
@[simp] theorem settings_act (s : Traffic) (a : Act) : (s.act a).settings = s.settings := by
  cases a <;> simp only [act] <;> split <;> rfl

/-- What comes next from a pair is the first of what it is about to do. -/
theorem next?_eq_some_iff {effect : PairEffect} : s.next? id = some effect ↔
    ∃ t rest, s.tasks[id]? = some t ∧ t.due = effect :: rest := by
  simp only [next?, Option.bind_eq_some_iff, List.head?_eq_some_iff, exists_and_left]

/-! ### A relay that goes on step by step -/

/-- Between two steps, nothing is left to carry in for any pair. -/
structure Mirrors (s : Traffic) (h : Hub) : Prop where
  settings_eq : s.settings = h.settings
  registry_eq : s.registry = h.registry
  pairs_eq : s.tasks.map (·.pair) = h.pairs
  idle : ∀ t ∈ s.tasks, t.due = []

theorem mirrors_new (settings : RelaySettings) : Mirrors (.new settings) (.new settings) :=
  ⟨rfl, rfl, rfl, by simp [new]⟩

private theorem set_modify {f : Task → Task} (l : List Task) :
    (l.modify id f).set id t = l.set id t := by
  apply List.ext_getElem?
  intro i
  by_cases he : id = i
  · subst he
    simp [List.getElem?_set]
  · simp [he]

/-- What a pair is about to do can be carried in without a break. -/
theorem exists_carried (ht : s.tasks[id]? = some t) :
    ∃ acts, (s.after acts).settings = s.settings ∧
      (s.after acts).registry = t.due.foldl (Hub.note id) s.registry ∧
      (s.after acts).tasks = s.tasks.set id ⟨t.pair, t.turns, t.done ++ t.due, []⟩ := by
  generalize hd : t.due = due
  induction due generalizing s t with
  | nil =>
    refine ⟨[], rfl, rfl, ?_⟩
    have same : (⟨t.pair, t.turns, t.done ++ [], []⟩ : Task) = t := by rw [List.append_nil, ← hd]
    obtain ⟨_, rfl⟩ := List.getElem?_eq_some_iff.mp ht
    rw [same, List.set_getElem_self, after_nil]
  | cons effect rest ih =>
    have next : s.next? id = some effect := next?_eq_some_iff.mpr ⟨t, rest, ht, hd⟩
    have there : (s.act (.carry id)).tasks[id]? = some t.carry := by simp [act, next, ht]
    obtain ⟨acts, settings_eq, registry_eq, tasks_eq⟩ := ih there (by simp [Task.carry, hd])
    refine ⟨.carry id :: acts, settings_eq.trans (settings_act s _), ?_, ?_⟩
    · simpa [act, next] using registry_eq
    · simpa [act, next, Task.carry, hd, set_modify] using tasks_eq

namespace Mirrors

variable {h : Hub}

/-- A viewer that is accepted connects, and any other changes nothing. -/
theorem connect (m : Mirrors s h) (reachable : Bool) (path : String) :
    ∃ acts, Mirrors (s.after acts) (h.connect reachable path).1 := by
  rw [Hub.connect]
  split
  · split
    · refine ⟨[.connect], m.settings_eq, ?_, ?_, ?_⟩
      · simp [Traffic.act, m.registry_eq]
      · simp [Traffic.act, m.pairs_eq, m.settings_eq, Task.new]
      · exact List.forall_mem_append.mpr ⟨m.idle, by simp [Task.new]⟩
    · exact ⟨[], m⟩
  · exact ⟨[], m⟩

/-- A step is the turn of a pair, with all its effects carried in before anything else happens. -/
theorem step (m : Mirrors s h) (id : PairId) (input : PairInput) (written : Except String Unit) :
    ∃ acts, Mirrors (s.after acts) (h.step id input written).1 := by
  cases ht : s.tasks[id]? with
  | none =>
    have absent : h.pairs[id]? = none := by simp [← m.pairs_eq, ht]
    exact ⟨[], by simpa [Hub.step, absent] using m⟩
  | some t =>
    have there : h.pairs[id]? = some t.pair := by simp [← m.pairs_eq, ht]
    cases awaited : t.pair.awaits input with
    | false =>
      have kept : h.pairs.set id t.pair = h.pairs := by
        obtain ⟨_, same⟩ := List.getElem?_eq_some_iff.mp there
        rw [← same, List.set_getElem_self]
      have passed : (h.step id input written).1 = h := by
        simp [Hub.step, there, Pair.step_of_awaits_eq_false awaited, kept]
      exact ⟨[], by rwa [passed]⟩
    | true =>
      have idle : t.due = [] := m.idle t (List.mem_of_getElem? ht)
      have taken : (s.act (.take id input written)).tasks[id]?
          = some (t.take s.settings.connectTimeout input written) := by simp [Traffic.act, ht]
      obtain ⟨acts, settings_eq, registry_eq, tasks_eq⟩ := exists_carried taken
      rw [show (s.act (.take id input written)).tasks = s.tasks.modify id _ from rfl,
        set_modify] at tasks_eq
      rw [Task.take, idle, awaited, m.settings_eq] at registry_eq tasks_eq
      refine ⟨.take id input written :: acts, ?_⟩
      simp only [Hub.step, there]
      refine ⟨settings_eq.trans m.settings_eq, ?_, ?_, ?_⟩
      · rw [after_cons, registry_eq, ← m.registry_eq]
        rfl
      · rw [after_cons, tasks_eq, List.map_set, m.pairs_eq]
        rfl
      · rw [after_cons, tasks_eq]
        intro t' ht'
        rcases List.mem_or_eq_of_mem_set ht' with before | rfl
        · exact m.idle t' before
        · rfl

/-- When the relay shuts down, the root is cancelled, and every pair takes that as its next
input. -/
theorem shutdown (m : Mirrors s h) : ∃ acts, Mirrors (s.after acts) h.shutdown := by
  suffices all : ∀ (ids : List PairId) {s : Traffic} {h : Hub}, Mirrors s h → ∃ acts,
      Mirrors (s.after acts) (ids.foldl (fun h id ↦ (h.step id .cancelled (.ok ())).1) h) by
    obtain ⟨acts, m⟩ := all (List.range h.pairs.length)
      (s := s.act (.ask (.cancelRoot Hub.root)))
      (h := { h with isServing := false, registry := h.registry.cancelRoot Hub.root })
      ⟨m.settings_eq, congrArg (·.cancelRoot Hub.root) m.registry_eq, m.pairs_eq, m.idle⟩
    exact ⟨_ :: acts, m⟩
  intro ids
  induction ids with
  | nil => exact fun m ↦ ⟨[], m⟩
  | cons id ids ih =>
    intro s h m
    obtain ⟨first, m⟩ := m.step id .cancelled (.ok ())
    obtain ⟨rest, m⟩ := ih m
    exact ⟨first ++ rest, by rwa [after_append]⟩

end Mirrors

/-- The relays that come about step by step. -/
inductive Reached (settings : RelaySettings) : Hub → Prop where
  | new : Reached settings (.new settings)
  | connect {h : Hub} (sofar : Reached settings h) (reachable : Bool) (path : String) :
      Reached settings (h.connect reachable path).1
  | step {h : Hub} (sofar : Reached settings h) (id : PairId) (input : PairInput)
      (written : Except String Unit) : Reached settings (h.step id input written).1
  | shutdown {h : Hub} (sofar : Reached settings h) : Reached settings h.shutdown

/-- A relay that comes about step by step also comes about act by act, in a suitable order. -/
theorem exists_mirrors {h : Hub} (reached : Reached settings h) :
    ∃ acts, Mirrors ((new settings).after acts) h := by
  induction reached with
  | new => exact ⟨[], mirrors_new settings⟩
  | connect _ reachable path ih =>
    obtain ⟨acts, m⟩ := ih
    obtain ⟨more, m⟩ := m.connect reachable path
    exact ⟨acts ++ more, by rwa [after_append]⟩
  | step _ id input written ih =>
    obtain ⟨acts, m⟩ := ih
    obtain ⟨more, m⟩ := m.step id input written
    exact ⟨acts ++ more, by rwa [after_append]⟩
  | shutdown _ ih =>
    obtain ⟨acts, m⟩ := ih
    obtain ⟨more, m⟩ := m.shutdown
    exact ⟨acts ++ more, by rwa [after_append]⟩

/-! ### Leaving out what a pair did -/

/-- Two relays that differ only in what one pair did: it may have gone on in the first and not in
the second. -/
structure Apart (id : PairId) (s s' : Traffic) : Prop where
  settings_eq : s'.settings = s.settings
  length_eq : s'.tasks.length = s.tasks.length
  tasks_eq : ∀ other, other ≠ id → s'.tasks[other]? = s.tasks[other]?
  noted_eq : s'.noted = s.noted.filter (·.1 ≠ id)

namespace Apart

/-- What the pair does in the first relay makes no other difference. -/
theorem skip (h : Apart id s s') {a : Act} (own : a.subject? = some id) :
    Apart id (s.act a) s' := by
  have elsewhere (f : Task → Task) (other : PairId) (differ : other ≠ id) :
      s'.tasks[other]? = (s.tasks.modify id f)[other]? := by
    rw [h.tasks_eq other differ, List.getElem?_modify]
    simp [differ.symm]
  cases a with
  | connect => cases own
  | ask call => cases own
  | take id input written =>
    cases own
    exact ⟨h.settings_eq, by simpa [act] using h.length_eq, elsewhere _, h.noted_eq⟩
  | carry id =>
    cases own
    rw [act]
    split
    · exact h
    next effect _ =>
      refine ⟨h.settings_eq, by simpa using h.length_eq, elsewhere _, ?_⟩
      rw [h.noted_eq, List.filter_append]
      cases effect.noted? <;> simp

/-- What others do is the same in both. -/
theorem act (h : Apart id s s') {a : Act} (foreign : a.subject? ≠ some id) :
    Apart id (s.act a) (s'.act a) := by
  have changed (f : Task → Task) (at' other : PairId) (differ : other ≠ id) :
      (s'.tasks.modify at' f)[other]? = (s.tasks.modify at' f)[other]? := by
    rw [List.getElem?_modify, List.getElem?_modify, h.tasks_eq other differ]
  cases a with
  | connect =>
    refine ⟨h.settings_eq, by simp [Traffic.act, h.length_eq], fun other differ ↦ ?_, h.noted_eq⟩
    simp only [Traffic.act, List.getElem?_append, h.length_eq, h.settings_eq,
      h.tasks_eq other differ]
  | take at' input written =>
    refine ⟨h.settings_eq, by simp [Traffic.act, h.length_eq], fun other differ ↦ ?_, h.noted_eq⟩
    simp only [Traffic.act, h.settings_eq, changed _ at' other differ]
  | carry at' =>
    have differ : at' ≠ id := fun e ↦ foreign (congrArg some e)
    have same : s'.next? at' = s.next? at' := by rw [next?, next?, h.tasks_eq at' differ]
    cases hn : s.next? at' with
    | none => simpa only [Traffic.act, same, hn] using h
    | some effect =>
      simp only [Traffic.act, same, hn]
      refine ⟨h.settings_eq, by simp [h.length_eq], changed _ at', ?_⟩
      rw [h.noted_eq, List.filter_append]
      cases effect.noted? <;> simp [differ]
  | ask call =>
    cases stops : call.onlyStops with
    | true =>
      simp only [Traffic.act, stops]
      exact ⟨h.settings_eq, h.length_eq, h.tasks_eq, h.noted_eq⟩
    | false => simpa [Traffic.act, stops] using h

/-- A history differs from what is left of it without the pair in what this pair did. -/
theorem after (h : Apart id s s') (acts : List Act) :
    Apart id (s.after acts) (s'.after (acts.filter (·.subject? ≠ some id))) := by
  induction acts generalizing s s' with
  | nil => exact h
  | cons a acts ih =>
    by_cases own : a.subject? = some id
    · simpa [own] using ih (h.skip own)
    · simpa [own] using ih (h.act own)

end Apart

end Traffic

/-! ### What a pair at work keeps -/

/-- What a pair at work has done and is about to do are the effects of its turns. -/
structure Task.Sound (settings : RelaySettings) (t : Task) : Prop where
  run : Pair.Run settings.connectTimeout (.new settings.sourceUrl) t.turns t.pair
  effects_eq : t.done ++ t.due = Pair.effectsOf t.turns

namespace Task

variable {settings : RelaySettings} {t : Task}

theorem sound_new (settings : RelaySettings) : Sound settings (.new settings.sourceUrl) :=
  ⟨.nil _, rfl⟩

@[simp] theorem done_take (t : Task) (timeout : Duration) (input : PairInput)
    (written : Except String Unit) : (t.take timeout input written).done = t.done := by
  rw [take]
  split <;> rfl

namespace Sound

/-- A pair takes an input when nothing is due, so its effects are due after all that was done. -/
theorem take (h : Sound settings t) (input : PairInput) (written : Except String Unit) :
    Sound settings (t.take settings.connectTimeout input written) := by
  rw [Task.take]
  split
  · next ready =>
    obtain ⟨idle, awaited⟩ := Bool.and_eq_true_iff.mp ready
    have carried := h.effects_eq
    rw [List.isEmpty_iff.mp idle, List.append_nil] at carried
    refine ⟨h.run.append (.cons input written awaited (.nil _)), ?_⟩
    rw [Pair.effectsOf_append, Pair.effectsOf_singleton, carried]
  · exact h

/-- What is carried into the registry moves from what is due to what is done. -/
theorem carry (h : Sound settings t) : Sound settings t.carry := by
  refine ⟨h.run, ?_⟩
  rw [← show _ = Pair.effectsOf t.carry.turns from h.effects_eq]
  cases hd : t.due <;> simp [Task.carry, hd]

/-- What a pair has noted and is about to note is the outcome of its attempt. -/
theorem notes_eq (h : Sound settings t) :
    Pair.notes t.done ++ Pair.notes t.due = (Pair.outcome? t.turns).toList := by
  rw [← Pair.notes_append, h.effects_eq, h.run.waited.notes_eq]

/-- A pair that has noted a failure, or is about to, ends for want of the source. -/
theorem mem_notes_iff (h : Sound settings t) :
    false ∈ Pair.notes t.done ++ Pair.notes t.due ↔
      t.pair.phase = .ended .sourceUnavailable := by
  rw [h.notes_eq, h.run.waited.unavailable_iff, Option.mem_toList]

/-- A pair that is about to note an outcome has noted none. -/
theorem notes_done_eq_nil (h : Sound settings t) {effect : PairEffect} {rest : List PairEffect}
    (due : t.due = effect :: rest) {ok : Bool} (noted : effect.noted? = some ok) :
    Pair.notes t.done = [] := by
  have once := congrArg List.length h.notes_eq
  have atMost : (Pair.outcome? t.turns).toList.length ≤ 1 := Option.length_toList_le
  rw [due, Pair.notes_cons, noted] at once
  simp only [List.length_append, Option.toList_some, List.length_singleton] at once
  exact List.eq_nil_of_length_eq_zero (by omega)

/-- A pair for which nothing is left to do has ended for want of the source exactly if it noted a
failure. -/
theorem hasEnded_iff (h : Sound settings t) (idle : t.due = []) :
    t.hasEnded .sourceUnavailable = true ↔ false ∈ Pair.notes t.done := by
  have ended := h.mem_notes_iff
  rw [idle, Pair.notes_nil, List.append_nil] at ended
  simp [hasEnded, idle, ended]

end Sound

end Task

end Quoteboard.Relay
