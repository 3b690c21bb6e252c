import Quoteboard.Health.Pages
import Quoteboard.Proofs.Relay.Traffic

/-!
# Readiness of a relay

In whatever order the pairs of a relay go on, the books on attempts to reach the source, and with
them the pages that tell whether the relay is ready, follow the outcomes that the pairs noted; and
each pair notes the outcome of its own attempt, unless it gave up before.
-/

namespace Quoteboard.Relay.Traffic

open Quoteboard.Config (RelaySettings)
open Quoteboard.Health (Request Site)
open Quoteboard.Metrics

/-- The outcomes that a pair noted. -/
def outcomes (s : Traffic) (id : PairId) : List Bool :=
  (s.noted.filter (·.1 = id)).map (·.2)

/-- Whether some pair noted an outcome, and the latest is that of a failed attempt. -/
def lastFailed (s : Traffic) : Prop := ∃ id, s.noted.getLast? = some (id, false)

variable {s : Traffic} {id : PairId} {t t' : Task}

/-- The books of a relay follow what its pairs noted; every act keeps it so. -/
structure Booked (s : Traffic) : Prop where
  sound : ∀ t ∈ s.tasks, t.Sound s.settings
  /-- The outcomes noted under a number are those that the pair of this number noted. -/
  outcomes_eq : ∀ id, s.outcomes id = s.tasks[id]?.elim [] fun t ↦ Pair.notes t.done
  books_eq : s.registry.openBooks = .of (s.noted.map (·.2))
  /-- There are as many failures as pairs that noted one. -/
  count_eq : (s.noted.map (·.2)).count false = s.tasks.countP (false ∈ Pair.notes ·.done)

theorem booked_new (settings : RelaySettings) : Booked (.new settings) where
  sound := by simp [new]
  outcomes_eq := by simp [new, outcomes]
  books_eq := rfl
  count_eq := rfl

private theorem mem_modify {f : Task → Task} {l : List Task} (h : t' ∈ l.modify id f) :
    t' ∈ l ∨ ∃ t ∈ l, t' = f t := by
  obtain ⟨i, hi⟩ := List.mem_iff_getElem?.mp h
  rw [List.getElem?_modify] at hi
  obtain ⟨t, ht, rfl⟩ := Option.map_eq_some_iff.mp hi
  have member := List.mem_of_getElem? ht
  split
  · exact .inr ⟨t, member, rfl⟩
  · exact .inl member

/-- An outcome is noted under the number of its pair. -/
theorem outcomes_append (s : Traffic) (id other : PairId) (noted? : Option Bool) :
    outcomes { s with noted := s.noted ++ (noted?.map (id, ·)).toList } other
      = s.outcomes other ++ if id = other then noted?.toList else [] := by
  rcases noted? with _ | ok
  · simp [outcomes]
  · by_cases h : id = other <;> simp [outcomes, h]

namespace Booked

/-- A new pair has noted nothing. -/
theorem connect (h : Booked s) : Booked (s.act .connect) where
  sound := List.forall_mem_append.mpr ⟨h.sound, by simpa using Task.sound_new s.settings⟩
  outcomes_eq id := by
    refine (h.outcomes_eq id).trans ?_
    rcases Nat.lt_or_ge id s.tasks.length with inside | outside
    · rw [act, List.getElem?_append_left inside]
    · -- The pair is new, or there is none of this number: neither has noted anything.
      rw [act, List.getElem?_eq_none outside, List.getElem?_append_right outside]
      cases hn : [Task.new s.settings.sourceUrl][id - s.tasks.length]? with
      | none => rfl
      | some t =>
        obtain rfl := List.mem_singleton.mp (List.mem_of_getElem? hn)
        rfl
  books_eq := (Registry.openBooks_register s.registry _).trans h.books_eq
  count_eq := by
    simpa [act, Task.new] using h.count_eq

/-- A pair that takes an input notes nothing yet. -/
theorem take (h : Booked s) (id : PairId) (input : PairInput) (written : Except String Unit) :
    Booked (s.act (.take id input written)) where
  sound t' ht := by
    rcases mem_modify ht with hm | ⟨t, hm, rfl⟩
    · exact h.sound t' hm
    · exact (h.sound t hm).take input written
  outcomes_eq other := by
    refine (h.outcomes_eq other).trans ?_
    rw [act, List.getElem?_modify]
    cases s.tasks[other]? with
    | none => rfl
    | some t => by_cases he : id = other <;> simp [he]
  books_eq := h.books_eq
  count_eq := by
    refine h.count_eq.trans (Registry.countP_modify_of_eq fun t ↦ ?_).symm
    rw [Task.done_take]

/-- An effect that notes an outcome goes into the books, and as a pair notes only one, a failure is
that of one more pair. -/
theorem carry (h : Booked s) (id : PairId) : Booked (s.act (.carry id)) := by
  rw [act]
  split
  · exact h
  next effect hn =>
    obtain ⟨t, rest, ht, due⟩ := next?_eq_some_iff.mp hn
    have sound := h.sound t (List.mem_of_getElem? ht)
    have done : t.carry.done = t.done ++ [effect] := by simp [Task.carry, due]
    have noted : Pair.notes t.carry.done = Pair.notes t.done ++ effect.noted?.toList := by
      rw [done, Pair.notes_append, Pair.notes_cons, Pair.notes_nil, List.append_nil]
    have unnoted : effect.failsUnnoted = false := by
      apply sound.run.failsUnnoted_eq_false
      rw [← sound.effects_eq, due]
      simp
    exact {
      sound := fun t' ht' ↦ by
        rcases mem_modify ht' with hm | ⟨t, hm, rfl⟩
        · exact h.sound t' hm
        · exact (h.sound t hm).carry
      outcomes_eq := fun other ↦ by
        refine (outcomes_append s id other effect.noted?).trans ?_
        rw [h.outcomes_eq, List.getElem?_modify]
        by_cases he : id = other
        · subst he
          simp [ht, noted]
        · cases s.tasks[other]? <;> simp [he]
      books_eq := by
        rw [Hub.openBooks_note h.books_eq id unnoted, List.map_append]
        cases effect.noted? <;> rfl
      count_eq := by
        have counted := Registry.countP_modify_add (q := fun t : Task ↦ false ∈ Pair.notes t.done)
          (f := Task.carry) ht
        rw [noted, ← h.count_eq] at counted
        rw [List.map_append, List.count_append]
        cases told : effect.noted? with
        | none => simpa [told] using counted.symm
        | some ok =>
          rw [sound.notes_done_eq_nil due told, told] at counted
          cases ok <;> simpa using counted.symm }

/-- What is asked from outside does not concern the attempts. -/
theorem ask (h : Booked s) (call : Call) : Booked (s.act (.ask call)) := by
  rw [act]
  split
  · next stops =>
    have books_eq := (Registry.openBooks_call stops s.registry).trans h.books_eq
    exact ⟨h.sound, h.outcomes_eq, books_eq, h.count_eq⟩
  · exact h

end Booked

/-- Every act leaves the books in order. -/
theorem Booked.act (h : Booked s) (a : Act) : Booked (s.act a) := by
  cases a with
  | connect => exact h.connect
  | take id input written => exact h.take id input written
  | carry id => exact h.carry id
  | ask call => exact h.ask call

/-- Acts in any order leave the books in order. -/
theorem Booked.after (h : Booked s) (acts : List Act) : Booked (s.after acts) := by
  induction acts generalizing s with
  | nil => exact h
  | cons a acts ih => exact ih (h.act a)

/-- The acts of a pair that noted nothing leave no trace in the books on attempts. -/
theorem openBooks_filter_of_outcomes_eq_nil (settings : RelaySettings) (acts : List Act)
    (h : ((new settings).after acts).outcomes id = []) :
    ((new settings).after (acts.filter (·.subject? ≠ some id))).registry.openBooks
      = ((new settings).after acts).registry.openBooks := by
  have apart : Apart id (new settings) (new settings) := ⟨rfl, rfl, fun _ _ ↦ rfl, rfl⟩
  have all : ∀ n ∈ ((new settings).after acts).noted, n.1 ≠ id := by
    simpa [outcomes, List.filter_eq_nil_iff] using h
  have noted := (apart.after acts).noted_eq
  rw [List.filter_eq_self.mpr fun n hn ↦ decide_eq_true (all n hn)] at noted
  rw [((booked_new settings).after acts).books_eq, ((booked_new settings).after _).books_eq, noted]

/-! ### What the books and the pages tell -/

/-- The books of a relay, and the pages made from them, tell what became of the attempts to reach
the source. -/
structure Told (settings : RelaySettings) (acts : List Act) (s : Traffic) : Prop where
  /-- Each pair notes at most one outcome. -/
  once : ∀ id, (s.outcomes id).length ≤ 1
  /-- Only pairs note outcomes. -/
  outcomes_of_none : ∀ id, s.tasks[id]? = none → s.outcomes id = []
  /-- What a pair has noted, or is just about to note, is the outcome of its attempt, if this ended
  before the pair gave up; otherwise it is nothing. -/
  outcomes_eq : ∀ id t, s.tasks[id]? = some t →
    s.outcomes id ++ Pair.notes t.due = (Pair.outcome? t.turns).toList
  /-- The count of failures is that of the failures noted. -/
  failed_eq : s.registry.stats.failedOpens = s.noted.countP (·.2 = false)
  /-- So is the metric. -/
  measured_eq : total .sourceFailures s.registry.record = s.noted.countP (·.2 = false)
  /-- No pair ends for want of the source without being counted. -/
  ended_le : s.tasks.countP (·.hasEnded .sourceUnavailable) ≤ s.registry.stats.failedOpens
  /-- The count is that of the pairs that ended for want of the source, once they have ended. -/
  ended_eq : (∀ t ∈ s.tasks, t.pair.phase = .ended .sourceUnavailable → t.due = []) →
    s.registry.stats.failedOpens = s.tasks.countP (·.hasEnded .sourceUnavailable)
  lastFailed_iff : s.registry.stats.lastOpenFailed = true ↔ s.lastFailed
  /-- The relay says that it is not ready exactly if the latest outcome noted is a failure. -/
  unready_iff : ∀ (site : Site) (r : Request), site.stats = s.registry.stats →
    r.path = "/readyz" → r.method = "GET" ∨ r.method = "HEAD" →
    ((site.respond r).code = 503 ↔ s.lastFailed)
  /-- The relay says that it is not healthy exactly if moreover no pair is registered. -/
  unhealthy_iff : ∀ (site : Site) (r : Request), site.stats = s.registry.stats →
    r.path = "/health" → r.method = "GET" ∨ r.method = "HEAD" →
    ((site.respond r).code = 503 ↔ s.lastFailed ∧ ∀ id, s.registry.contains id = false)
  /-- A pair that gave up before its attempt had ended changed nothing of this: the books are the
  same as if it had done nothing. -/
  unmoved : ∀ id t, s.tasks[id]? = some t → Pair.outcome? t.turns = none →
    ((Traffic.new settings).after (acts.filter (·.subject? ≠ some id))).registry.openBooks
      = s.registry.openBooks

namespace Booked

/-- What a pair has noted and is about to note is the outcome of its attempt. -/
theorem noted_eq (h : Booked s) (ht : s.tasks[id]? = some t) :
    s.outcomes id ++ Pair.notes t.due = (Pair.outcome? t.turns).toList := by
  rw [h.outcomes_eq, ht]
  exact (h.sound t (List.mem_of_getElem? ht)).notes_eq

/-- A pair notes at most one outcome. -/
theorem length_outcomes_le (h : Booked s) (id : PairId) : (s.outcomes id).length ≤ 1 := by
  cases ht : s.tasks[id]? with
  | none => simp [h.outcomes_eq, ht]
  | some t =>
    have noted := congrArg List.length (h.noted_eq ht)
    rw [List.length_append] at noted
    have atMost : (Pair.outcome? t.turns).toList.length ≤ 1 := Option.length_toList_le
    omega

private theorem count_map_false (noted : List (PairId × Bool)) :
    (noted.map (·.2)).count false = noted.countP (·.2 = false) := by
  rw [List.count_eq_countP, List.countP_map]
  congr 1

/-- The failures counted are those noted. -/
theorem failedOpens_eq (h : Booked s) :
    s.registry.failedOpens = s.noted.countP (·.2 = false) :=
  (congrArg OpenBooks.failed h.books_eq).trans (count_map_false _)

/-- The failures counted are those of the pairs that noted one. -/
theorem failedOpens_eq_countP_tasks (h : Booked s) :
    s.registry.failedOpens = s.tasks.countP (false ∈ Pair.notes ·.done) :=
  (congrArg OpenBooks.failed h.books_eq).trans h.count_eq

/-- The latest attempt counts as failed exactly if the latest outcome noted is a failure. -/
theorem lastOpenFailed_iff (h : Booked s) : s.registry.lastOpenFailed = true ↔ s.lastFailed := by
  have told : s.registry.lastOpenFailed = decide ((s.noted.map (·.2)).getLast? = some false) :=
    congrArg OpenBooks.lastFailed h.books_eq
  rw [told, decide_eq_true_iff, List.getLast?_map, Option.map_eq_some_iff, lastFailed]
  simp

/-- A pair that ended for want of the source has been counted. -/
theorem countP_hasEnded_le (h : Booked s) :
    s.tasks.countP (·.hasEnded .sourceUnavailable) ≤ s.registry.failedOpens := by
  rw [h.failedOpens_eq_countP_tasks]
  apply List.countP_mono_left
  intro t ht ended
  have idle : t.due = [] := List.isEmpty_iff.mp (Bool.and_eq_true_iff.mp ended).2
  exact decide_eq_true (((h.sound t ht).hasEnded_iff idle).mp ended)

/-- Once nothing is left to do for the pairs that end for want of the source, they are those
counted. -/
theorem failedOpens_eq_hasEnded (h : Booked s)
    (idle : ∀ t ∈ s.tasks, t.pair.phase = .ended .sourceUnavailable → t.due = []) :
    s.registry.failedOpens = s.tasks.countP (·.hasEnded .sourceUnavailable) := by
  rw [h.failedOpens_eq_countP_tasks]
  apply List.countP_congr
  intro t ht
  rw [decide_eq_true_iff]
  have sound := h.sound t ht
  constructor
  · intro noted
    have ended := sound.mem_notes_iff.mp (List.mem_append_left _ noted)
    exact (sound.hasEnded_iff (idle t ht ended)).mpr noted
  · intro ended
    exact (sound.hasEnded_iff (List.isEmpty_iff.mp (Bool.and_eq_true_iff.mp ended).2)).mp ended

end Booked

private theorem code_respond {site : Site} {r : Request} (page : Health.Page)
    (path : Health.Page.ofPath? r.path = some page)
    (method : r.method = "GET" ∨ r.method = "HEAD") :
    (site.respond r).code = (site.render page).code := by
  rw [Site.respond, path]
  rcases method with get | head
  · simp [get]
  · simp [head, Health.Response.headOnly]

/-- However many pairs there are, and in whatever order they and their surroundings act, the books
and the pages tell what became of the attempts to reach the source. -/
theorem told_after (settings : RelaySettings) (acts : List Act) :
    Told settings acts ((new settings).after acts) := by
  have booked : Booked ((new settings).after acts) := (booked_new settings).after acts
  exact {
    once := booked.length_outcomes_le
    outcomes_of_none := fun id absent ↦ by rw [booked.outcomes_eq, absent]; rfl
    outcomes_eq := fun id t ht ↦ booked.noted_eq ht
    failed_eq := booked.failedOpens_eq
    measured_eq := (congrArg OpenBooks.measured booked.books_eq).trans (Booked.count_map_false _)
    ended_le := booked.countP_hasEnded_le
    ended_eq := booked.failedOpens_eq_hasEnded
    lastFailed_iff := booked.lastOpenFailed_iff
    unready_iff := fun site r stats path method ↦ by
      rw [code_respond .readiness (by rw [path]; rfl) method, Site.code_readiness, stats,
        ← booked.lastOpenFailed_iff]
      cases h : ((new settings).after acts).registry.lastOpenFailed <;>
        simp [Registry.stats, h, Health.codeUnavailable, Health.codeOk]
    unhealthy_iff := fun site r stats path method ↦ by
      rw [code_respond .report (by rw [path]; rfl) method]
      refine (Site.code_report site).trans ?_
      rw [stats, ← booked.lastOpenFailed_iff, ← Registry.active_eq_zero_iff]
      rfl
    unmoved := fun id t ht gaveUp ↦ by
      have noted := booked.noted_eq ht
      rw [gaveUp] at noted
      exact openBooks_filter_of_outcomes_eq_nil settings acts (List.append_eq_nil_iff.mp noted).1 }

-- One attempt fails and is counted. The pair beside it is told to stop before its own has ended.
example : ((new .default).after [.connect, .connect, .take 0 (.resolved .timedOut) (.ok ()),
    .take 1 .cancelled (.ok ()), .carry 1, .carry 0]).registry.openBooks = ⟨1, 1, true⟩ := by rfl

end Quoteboard.Relay.Traffic
