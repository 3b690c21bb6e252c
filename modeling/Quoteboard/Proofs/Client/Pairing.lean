import Quoteboard.Proofs.Client.Buffering
import Quoteboard.Proofs.Client.Delivery
import Quoteboard.Proofs.Client.EventGrammar

/-!
# Openings and closings that a consumer sees

As they are told, each closing follows the opening of its connection. What is received need not be
so: the opening may have found the queue full and be lost, and the closing find room. That is the
only way in which a consumer can hear of the closing of what it did not see opened.
-/

namespace Quoteboard.Client

open Quoteboard.Connection Quoteboard.Metrics Quoteboard.Transport

/-- Each closing comes after the opening of its attempt, with no other closing between. -/
def Paired (l : List (Option Generation × ClientEvent)) : Prop :=
  ∀ (front : List (Option Generation × ClientEvent)) (a : Option Generation)
    (back : List (Option Generation × ClientEvent)),
    l = front ++ (a, .closed) :: back →
      ∃ before since, front = before ++ (a, .opened) :: since ∧ ∀ e ∈ since, e.2 ≠ .closed

variable {d d' : Driver} {now : Moment} {input : Input} {effects : List Effect}
  {policy : RetryPolicy} {capacity : Nat} {turns : List Turn} {g : Generation}
  {o a : Option Generation} {l rest : List (Option Generation × ClientEvent)}

/-! ### Openings and closings as they are told -/

/-- A connection that is open after some events was open before them, or was opened among them, and
nothing was closed since. -/
theorem exists_opened_of_openAfter (h : openAfter o l = some (some g)) :
    (∃ before since, l = before ++ (some g, .opened) :: since ∧ ∀ e ∈ since, e.2 ≠ .closed) ∨
      (o = some g ∧ ∀ e ∈ l, e.2 ≠ .closed) := by
  -- One more event in front that closes nothing.
  have further {o o' : Option Generation} {l} {e : Option Generation × ClientEvent}
      (same : o' = o) (he : e.2 ≠ .closed)
      (ih : (∃ before since, l = before ++ (some g, .opened) :: since ∧
        ∀ e ∈ since, e.2 ≠ .closed) ∨ (o = some g ∧ ∀ e ∈ l, e.2 ≠ .closed)) :
      (∃ before since, e :: l = before ++ (some g, .opened) :: since ∧
        ∀ e ∈ since, e.2 ≠ .closed) ∨ (o' = some g ∧ ∀ e' ∈ e :: l, e'.2 ≠ .closed) := by
    rcases ih with ⟨before, since, rfl, hs⟩ | ⟨ho, hl⟩
    · exact .inl ⟨e :: before, since, rfl, hs⟩
    · exact .inr ⟨same.trans ho, List.forall_mem_cons.mpr ⟨he, hl⟩⟩
  fun_induction openAfter o l with
  | case1 => exact .inr ⟨Option.some.inj h, List.forall_mem_nil _⟩
  | case2 a rest ih =>
    rcases ih h with ⟨before, since, rfl, hs⟩ | ⟨rfl, hl⟩
    · exact .inl ⟨(a, .opened) :: before, since, rfl, hs⟩
    · exact .inl ⟨[], rest, rfl, hl⟩
  | case3 => cases h
  | case4 => cases h
  | case5 g' rest ih =>
    rcases ih h with ⟨before, since, rfl, hs⟩ | ⟨ho, -⟩
    · exact .inl ⟨(some g', .closed) :: before, since, rfl, hs⟩
    · cases ho
  | case6 => cases h
  | case7 o a e rest ih => exact further rfl (by simp) (ih h)
  | case8 o a s rest ih => exact further rfl (by simp) (ih h)

/-- As openings and closings are told, each closing follows the opening of its attempt. -/
theorem paired_of_openAfter (h : openAfter none l = some o) : Paired l := by
  rintro front a back rfl
  rw [openAfter_append] at h
  obtain ⟨held, hf, hc⟩ := Option.bind_eq_some_iff.mp h
  cases held with
  | none => cases hc
  | some g =>
    rw [openAfter] at hc
    split at hc
    · next same =>
      subst same
      rcases exists_opened_of_openAfter hf with opened | ⟨ho, -⟩
      · exact opened
      · cases ho
    · cases hc

/-- What comes first of events that are paired is paired. -/
theorem Paired.of_append (h : Paired (l ++ rest)) : Paired l :=
  fun front a back hl ↦ h front a (back ++ rest) (by rw [hl]; simp)

/-! ### Attempts open once -/

theorem told_concat {t : Turn} :
    told (turns ++ [t]) = told turns ++ (events t.effects).map (t.before.attempt?, ·) := by
  simp [told]

/-- No failure tells of an opening. -/
theorem Failure.opened_not_mem {m : Machine} {e : TransportError}
    (f : Failure m now e d' effects) : .opened ∉ events effects := by
  cases f with
  | retry => simp
  | exhausted => simp

/-- A turn tells of an opening exactly if it opens a connection. -/
theorem Move.filter_opened (move : Move now d input d' effects) :
    (events effects).filter (· = .opened) =
      (Turn.opening? ⟨d, now, input, d', effects⟩).toList.map fun _ ↦ .opened := by
  have none_of {l : List ClientEvent} (h : .opened ∉ l) : l.filter (· = .opened) = [] := by
    simpa [List.filter_eq_nil_iff] using fun e he ↦ ne_of_mem_of_not_mem he h
  have hc : (events d.closing).filter (· = .opened) = [] := by
    rw [events_closing]
    split <;> rfl
  cases move with
  | connect => simpa [Turn.opening?] using hc
  | retry => simpa [Turn.opening?] using hc
  | close => split <;> simpa [Turn.opening?] using hc
  | abandoned => split <;> simpa [Turn.opening?] using hc
  | opened => rfl
  | refused _ failure => exact none_of failure.opened_not_mem
  | @data m stream payload state =>
    rcases ofPayload_cases payload with ⟨_, h⟩ | ⟨_, h⟩ <;> simp [h, Turn.opening?]
  | closed => rfl
  | failed _ failure => exact none_of (by simpa using failure.opened_not_mem)
  | timer => rfl

/-- The openings that a run tells of are those of its connections. -/
theorem Run.filter_opened_told (run : Run (.new policy) turns d) :
    (told turns).filter (·.2 = .opened) = (openings turns).map fun a ↦ (some a.1, .opened) := by
  refine run.induction (P := fun turns _ ↦ (told turns).filter (·.2 = .opened) =
      (openings turns).map fun a ↦ (some a.1, .opened)) (Driver.coherent_new policy) rfl ?_
  intro turns d₁ now input d₂ effects _ hd ih move
  generalize ht : Turn.mk d₁ now input d₂ effects = t
  have found : t.opening?.toList.map (fun _ ↦ (d₁.attempt?, ClientEvent.opened)) =
      t.opening?.toList.map fun a ↦ (some a.1, .opened) := by
    refine List.map_congr_left fun a ha ↦ ?_
    obtain ⟨-, hp⟩ := Turn.opening?_eq_some_iff.mp (Option.mem_toList.mp ha)
    subst ht
    simp [Driver.attempt?, show d₁.pending = some a.1 from hp]
  have opened : ((events t.effects).map (t.before.attempt?, ·)).filter (·.2 = .opened) =
      t.opening?.toList.map fun a ↦ (some a.1, .opened) := by
    rw [← found, List.filter_map]
    subst ht
    simpa [Function.comp_def] using
      congrArg (List.map fun e ↦ (d₁.attempt?, e)) move.filter_opened
  rw [told_concat, openings_concat, List.filter_append, List.map_append, ih, opened]

/-- No attempt tells of an opening twice. -/
theorem Run.nodup_filter_opened_told (run : Run (.new policy) turns d) :
    ((told turns).filter (·.2 = .opened)).Nodup := by
  rw [run.filter_opened_told]
  refine List.pairwise_map.mpr (run.opened.pairwise_lt.imp fun lt same ↦ ?_)
  exact Nat.ne_of_lt lt (Option.some.inj (Prod.mk.inj same).1)

/-! ### Openings and closings as they are received -/

/-- If some events are left out of a sequence that is paired, what remains is paired unless an
opening is left out whose closing remains. -/
theorem Paired.filter {α : Type} {f : α → Option Generation × ClientEvent} {p : α → Bool}
    {l : List α} (h : Paired (l.map f))
    (kept : ∀ before u since c after a, l = before ++ u :: since ++ c :: after →
      f u = (a, .opened) → f c = (a, .closed) → p c = true → p u = true) :
    Paired ((l.filter p).map f) := by
  intro front a back hl
  obtain ⟨left, right, hf, rfl, hr⟩ := List.map_eq_append_iff.mp hl
  obtain ⟨c, right, rfl, hc, rfl⟩ := List.map_eq_cons_iff.mp hr
  obtain ⟨before, after, rfl, rfl, ha⟩ := List.filter_eq_append_iff.mp hf
  obtain ⟨skipped, after, rfl, hs, pc, rfl⟩ := List.filter_eq_cons_iff.mp ha
  have whole : (before ++ (skipped ++ c :: after)).map f =
      (before ++ skipped).map f ++ (a, .closed) :: after.map f := by simp [hc]
  obtain ⟨first, since, hb, hn⟩ := h _ _ _ whole
  obtain ⟨first, right, cut, rfl, hr⟩ := List.map_eq_append_iff.mp hb
  obtain ⟨u, since, rfl, hu, rfl⟩ := List.map_eq_cons_iff.mp hr
  have pu : p u = true := by
    refine kept first u since c after a ?_ hu hc pc
    rw [← List.append_assoc, cut]
  have none_of_skipped : skipped.filter p = [] := List.filter_eq_nil_iff.mpr hs
  have remaining : before.filter p = first.filter p ++ u :: since.filter p := by
    simpa [none_of_skipped, pu] using congrArg (List.filter p) cut
  refine ⟨(first.filter p).map f, (since.filter p).map f, by simp [remaining, hu], ?_⟩
  intro e he
  obtain ⟨m, hm, rfl⟩ := List.mem_map.mp he
  exact hn _ (List.mem_map_of_mem (List.mem_of_mem_filter hm))

/-- An event with the attempt that it is of. -/
def Telling.tagged (m : Telling) : Option Generation × ClientEvent := (m.attempt?, m.event)

namespace Exchange

variable {x : Exchange}

/-- The events that the consumer has received, each with the attempt that it is of. -/
def heardFrom (x : Exchange) : List (Option Generation × ClientEvent) :=
  x.obtained.map Telling.tagged

/-- The events told so far are the first of those that the turns tell. -/
theorem Reachable.exists_told_eq (h : Reachable policy capacity x) :
    ∃ rest, told x.turns = x.tellings.map Telling.tagged ++ rest := by
  have all := congrArg (List.map fun p ↦ (p.1.before.attempt?, p.2)) h.tellings_append_untold
  refine ⟨x.untold.map fun p ↦ (p.1.before.attempt?, p.2), Eq.symm ?_⟩
  rw [List.map_append, List.map_map] at all
  refine all.trans ?_
  simp [tellsOf, told, List.map_flatMap, Function.comp_def]

/-- An event that still finds the consumer comes after others that did. -/
theorem Reachable.pairwise_hasReceiver (h : Reachable policy capacity x) :
    x.tellings.Pairwise fun m m' ↦ m'.queue.hasReceiver = true → m.queue.hasReceiver = true := by
  induction h with
  | start => exact .nil
  | @step x _ reached step ih =>
    cases step with
    | told due =>
      refine List.pairwise_append.mpr ⟨ih, List.pairwise_singleton .., fun m hm m' hm' ↦ ?_⟩
      rw [List.mem_singleton.mp hm']
      exact (reached.queue_of_telling.2 m hm).2
    | idle => exact ih
    | woken => exact ih
    | published => exact ih
    | recorded => exact ih
    | done => exact ih
    | received => exact ih
    | left => exact ih

/-- No two events told are the openings of one attempt. -/
theorem Reachable.eq_of_opened (h : Reachable policy capacity x) {m m' : Telling}
    (hm : m ∈ x.tellings) (hm' : m' ∈ x.tellings) (opened : m.event = .opened)
    (same : m.tagged = m'.tagged) : m = m' := by
  obtain ⟨rest, all⟩ := h.exists_told_eq
  have nodup := h.run.nodup_filter_opened_told
  rw [all, List.filter_append, List.filter_map] at nodup
  have opened' : m'.event = .opened := (congrArg Prod.snd same).symm.trans opened
  refine List.inj_on_of_nodup_map nodup.of_append_left ?_ ?_ same
  · exact List.mem_filter.mpr ⟨hm, decide_eq_true opened⟩
  · exact List.mem_filter.mpr ⟨hm', decide_eq_true opened'⟩

/-- The events that have been received are those queued among the first of the events told. -/
theorem exists_filter_eq_obtained (x : Exchange) :
    ∃ first later, x.tellings = first ++ later ∧
      x.obtained = first.filter (·.delivery = .queued) := by
  have split : x.queued = x.obtained ++ x.queued.drop x.received.length :=
    (List.take_append_drop ..).symm
  obtain ⟨first, later, cut, hf, -⟩ := List.filter_eq_append_iff.mp split
  exact ⟨first, later, cut, hf.symm⟩

/-- The events received are paired if no opening is lost on a full queue whose closing is
received. -/
theorem Reachable.paired_heardFrom (h : Reachable policy capacity x)
    (kept : ∀ m ∈ x.tellings, m.event = .opened → m.delivery = .full →
      (m.attempt?, .closed) ∉ x.heardFrom) : Paired x.heardFrom := by
  obtain ⟨first, later, cut, obtained⟩ := x.exists_filter_eq_obtained
  obtain ⟨rest, told_eq⟩ := h.exists_told_eq
  have paired : Paired (first.map Telling.tagged) := by
    have all := paired_of_openAfter h.run.openAfter_told
    rw [told_eq, cut, List.map_append] at all
    exact all.of_append.of_append
  rw [heardFrom, obtained]
  refine paired.filter fun before u since c after a hc hu hclosed queued ↦ ?_
  obtain ⟨ha, he⟩ := Prod.mk.inj hu
  have mem : u ∈ x.tellings := by simp [cut, hc]
  -- The closing found the consumer there, and so did the opening before it.
  have receiver : u.queue.hasReceiver = true := by
    have order := h.pairwise_hasReceiver
    rw [cut, hc, List.append_assoc, List.pairwise_append] at order
    have there := (Channel.send_eq_queued_iff.mp (of_decide_eq_true queued)).1
    exact order.2.2 u (by simp) c (by simp) there
  have received : (u.attempt?, .closed) ∈ x.heardFrom := by
    rw [ha, ← hclosed, heardFrom, obtained]
    exact List.mem_map_of_mem (List.mem_filter.mpr ⟨by simp [hc], queued⟩)
  refine decide_eq_true ?_
  by_contra not_queued
  exact kept u mem he (Channel.send_eq_full_of_not_queued receiver not_queued) received

/-- If the events received are paired, no opening is lost on a full queue whose closing is
received. -/
theorem Reachable.not_mem_heardFrom (h : Reachable policy capacity x) (paired : Paired x.heardFrom)
    {m : Telling} (hm : m ∈ x.tellings) (opened : m.event = .opened) (lost : m.delivery = .full) :
    (m.attempt?, .closed) ∉ x.heardFrom := by
  intro received
  obtain ⟨front, back, hl⟩ := List.append_of_mem received
  obtain ⟨before, since, hf, -⟩ := paired front _ back hl
  have heard : (m.attempt?, .opened) ∈ x.heardFrom := by simp [hl, hf]
  obtain ⟨u, hu, tagged⟩ := List.mem_map.mp heard
  obtain ⟨told, queued⟩ := List.mem_filter.mp (List.mem_of_mem_take hu)
  have same : m = u := h.eq_of_opened hm told opened (tagged.trans (by rw [← opened]; rfl)).symm
  have impossible := lost.symm.trans (same ▸ of_decide_eq_true queued)
  cases impossible

/-- What a consumer hears of openings and closings, whatever the capacity, the inputs and its pace:
it never receives a closing without the opening of the same attempt, except when this opening was
lost on a full queue. -/
theorem paired_after (policy : RetryPolicy) (capacity : Nat) (schedule : List Happening) :
    ((new policy capacity).after schedule).heardFrom.map (·.2) =
        ((new policy capacity).after schedule).received ∧
      (Paired ((new policy capacity).after schedule).heardFrom ↔
        ∀ m ∈ ((new policy capacity).after schedule).tellings,
          m.event = .opened → m.delivery = .full →
            (m.attempt?, .closed) ∉ ((new policy capacity).after schedule).heardFrom) := by
  have reached := reachable_after policy capacity schedule
  refine ⟨?_, ?_, reached.paired_heardFrom⟩
  · rw [heardFrom, List.map_map]
    exact reached.kept_eq.1
  · exact fun paired m hm opened lost ↦ reached.not_mem_heardFrom paired hm opened lost

/-- A first attempt that is refused, and a second whose connection is closed again. The consumer reads
one event after each of them is over, from a queue with room for one. -/
def lateReading : List Happening :=
  [.wake 0 (.command .connect), .act, .act,
    .wake 1 (.resolved (.error (.connect "refused"))), .act, .act,
    .wake 2001 .retryTimer, .act, .act, .act,
    .wake 2002 (.resolved (.ok 7)), .act, .act, .receive,
    .wake 2003 (.command .close), .act, .act, .act, .act, .receive]

/-- The failure of the first attempt fills the queue, so that the opening of the second is lost; its
closing is received. -/
theorem not_paired_of_lateReading :
    ((new ⟨1, 2000⟩ 1).after lateReading).received =
        [.error (.transport (.connect "refused")), .closed] ∧
      ¬Paired ((new ⟨1, 2000⟩ 1).after lateReading).heardFrom := by
  have heard : ((new ⟨1, 2000⟩ 1).after lateReading).heardFrom =
      [(some 1, .error (.transport (.connect "refused")))] ++ [(some 2, .closed)] := rfl
  refine ⟨rfl, fun paired ↦ ?_⟩
  obtain ⟨before, since, hf, -⟩ := paired _ _ _ heard
  have opened : (some 2, ClientEvent.opened) ∈ before ++ (some 2, .opened) :: since := by simp
  rw [← hf] at opened
  simp at opened

end Exchange

end Quoteboard.Client
