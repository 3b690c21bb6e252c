import Quoteboard.Proofs.Relay.Removal
import Quoteboard.Proofs.Relay.Run
import Quoteboard.Relay.Hub

/-!
# What becomes of an attempt to reach the source

A pair waits for its link until the attempt to open it has ended, the pair is cancelled or its
viewer is gone. What comes first decides: if it is the end of the attempt, the pair notes the
outcome, once; otherwise it notes nothing. The registry's books on such attempts follow the
outcomes that were noted, and nothing else that a pair or a caller does changes them.
-/

namespace Quoteboard.Relay

open Quoteboard.Metrics Quoteboard.Transport

/-- Whether the link could be opened, if an input tells of that. -/
def PairInput.outcome? : PairInput → Option Bool
  | .resolved outcome => some (outcome = .accepted)
  | _ => none

/-- Whether an input ends the wait for the link: the attempt has ended, the pair is cancelled, or
its viewer is gone. -/
def PairInput.endsWait : PairInput → Bool
  | .resolved _ | .cancelled => true
  | .fromViewer (.message (.close _)) | .fromViewer (.failed _) | .fromViewer .ended => true
  | _ => false

/-- The outcome that an effect notes, if it notes one. -/
def PairEffect.noted? : PairEffect → Option Bool
  | .noteOpen ok => some ok
  | _ => none

/-- Whether an effect records a failure to reach the source by itself, without a note. -/
def PairEffect.failsUnnoted : PairEffect → Bool
  | .record recording => recording.amount .sourceFailures ≠ 0
  | _ => false

/-- An input that does not end the wait tells of no outcome. -/
theorem PairInput.outcome?_of_endsWait {input : PairInput} (h : input.endsWait = false) :
    input.outcome? = none := by
  cases input with
  | resolved outcome => cases h
  | cancelled => rfl
  | fromViewer arrival => rfl
  | fromSource arrival => rfl

/-- What only keeps a connection alive does not end the wait. -/
theorem PairInput.endsWait_of_isControl {arrival : Arrival} (h : arrival.isControl = true) :
    (PairInput.fromViewer arrival).endsWait = false := by
  rcases Arrival.of_isControl h with ⟨_, rfl⟩ | ⟨_, rfl⟩ <;> rfl

/-! ### What a pair notes -/

namespace Pair

/-- The outcome of the attempt to open the link, if the attempt ended before the pair gave up: what
the first turn that ended the wait tells of it. -/
def outcome? (turns : List Turn) : Option Bool :=
  (turns.find? (·.input.endsWait)).bind (·.input.outcome?)

/-- The outcomes that some effects note. -/
def notes (effects : List PairEffect) : List Bool := effects.filterMap (·.noted?)

@[simp] theorem notes_nil : notes [] = [] := rfl

@[simp] theorem notes_append (effects more : List PairEffect) :
    notes (effects ++ more) = notes effects ++ notes more :=
  List.filterMap_append

/-- The first effect may note an outcome, and then come the others. -/
theorem notes_cons (effect : PairEffect) (effects : List PairEffect) :
    notes (effect :: effects) = effect.noted?.toList ++ notes effects := by
  cases h : effect.noted? <;> simp [notes, h]

variable {target : String} {timeout : Duration} {p p' : Pair} {input : PairInput}
  {written : Except String Unit} {effects : List PairEffect} {turns : List Turn} {t : Turn}

/-- The attempt has this outcome if a turn tells of it and no turn before ended the wait. -/
theorem outcome?_eq_some_iff {ok : Bool} : outcome? turns = some ok ↔
    ∃ before t after, turns = before ++ t :: after ∧ t.input.outcome? = some ok ∧
      ∀ s ∈ before, s.input.endsWait = false := by
  rw [outcome?, Option.bind_eq_some_iff]
  constructor
  · rintro ⟨t, found, told⟩
    obtain ⟨-, before, after, rfl, first⟩ := List.find?_eq_some_iff_append.mp found
    exact ⟨before, t, after, rfl, told, fun s hs ↦ by simpa using first s hs⟩
  · rintro ⟨before, t, after, rfl, told, first⟩
    have ends : t.input.endsWait = true := by
      by_contra h
      rw [PairInput.outcome?_of_endsWait (Bool.eq_false_iff.mpr h)] at told
      cases told
    refine ⟨t, List.find?_eq_some_iff_append.mpr ⟨ends, before, after, rfl, ?_⟩, told⟩
    exact fun s hs ↦ by simp [first s hs]

private theorem find?_eq_none_of_forall (h : ∀ s ∈ turns, s.input.endsWait = false) :
    turns.find? (·.input.endsWait) = none :=
  List.find?_eq_none.mpr fun s hs ↦ by simp [h s hs]

/-- While nothing has ended the wait, the next turn decides. -/
theorem outcome?_concat_of_forall (h : ∀ s ∈ turns, s.input.endsWait = false) (t : Turn) :
    outcome? (turns ++ [t]) = t.input.outcome? := by
  rw [outcome?, List.find?_append, find?_eq_none_of_forall h, Option.none_or]
  cases ht : t.input.endsWait with
  | true => simp [ht]
  | false => simp [ht, PairInput.outcome?_of_endsWait ht]

/-- Once the wait has ended, no further turn decides. -/
theorem outcome?_concat_of_exists (h : ∃ s ∈ turns, s.input.endsWait = true) (t : Turn) :
    outcome? (turns ++ [t]) = outcome? turns := by
  obtain ⟨s, found⟩ := Option.isSome_iff_exists.mp (List.find?_isSome.mpr h)
  rw [outcome?, outcome?, List.find?_append, found, Option.some_or]

/-- A pair passes over an input that it does not wait for. -/
theorem step_of_awaits_eq_false (h : p.awaits input = false) (timeout : Duration)
    (written : Except String Unit) : p.step timeout input written = (p, []) := by
  obtain ⟨phase, link⟩ := p
  cases phase <;> cases input <;> first | rfl | cases h

/-- What a turn makes of a pair that waits for its link, and what it notes. -/
theorem Move.notes_of_opening (move : Move target p input written p' effects)
    (h : p.phase = .opening) :
    (p'.phase = .opening ↔ input.endsWait = false) ∧ notes effects = input.outcome?.toList ∧
      (p'.phase = .ended .sourceUnavailable ↔ input.outcome? = some false) := by
  cases move with
  | accepted => exact ⟨by simp [forwarding, PairInput.endsWait], rfl,
      by simp [forwarding, PairInput.outcome?]⟩
  | refused refused =>
    simp [gone, PairInput.endsWait, PairInput.outcome?, refused, notes, PairEffect.noted?]
  | earlyControl control =>
    simp [new, PairInput.endsWait_of_isControl control, PairInput.outcome?]
  | early | earlyClose | earlyEnd | earlyFailure | earlyCancel =>
    simp [new, gone, PairInput.endsWait, PairInput.outcome?, notes, PairEffect.noted?]
  | toSource | toSourceFails | viewerControl | viewerClose | viewerEnd | viewerFailure | toViewer
  | toViewerFails | sourceControl | sourceClose | sourceBreak | cancel => cases h

/-- A pair that does not wait for its link notes nothing. -/
theorem Move.notes_of_not_opening (move : Move target p input written p' effects)
    (h : p.phase ≠ .opening) :
    p'.phase ≠ .opening ∧ notes effects = [] ∧ p'.phase ≠ .ended .sourceUnavailable := by
  cases move <;> simp_all [new, forwarding, gone, notes, PairEffect.noted?]

/-- No turn records a failure to reach the source without noting the outcome. -/
theorem Move.failsUnnoted_eq_false (move : Move target p input written p' effects) :
    ∀ effect ∈ effects, effect.failsUnnoted = false := by
  cases move <;> simp [PairEffect.failsUnnoted, Recording.one, Recording.amount]

/-- What some turns of a pair have made of its wait for the link. -/
structure Waited (turns : List Turn) (p : Pair) : Prop where
  /-- The pair waits as long as nothing has ended the wait. -/
  opening_iff : p.phase = .opening ↔ ∀ t ∈ turns, t.input.endsWait = false
  /-- It notes the outcome of the attempt, if there is one, and notes it once. -/
  notes_eq : notes (effectsOf turns) = (outcome? turns).toList
  /-- It ends for want of the source exactly if the attempt failed. -/
  unavailable_iff : p.phase = .ended .sourceUnavailable ↔ outcome? turns = some false

private theorem Waited.concat (h : Waited turns p)
    (move : Move target p input written p' effects) :
    Waited (turns ++ [⟨p, input, written, p', effects⟩]) p' := by
  by_cases hp : p.phase = .opening
  · have before := h.opening_iff.mp hp
    obtain ⟨phase, noted, unavailable⟩ := move.notes_of_opening hp
    have untold : outcome? turns = none := by rw [outcome?, find?_eq_none_of_forall before]; rfl
    constructor
    · rw [phase, List.forall_mem_append]
      simpa using fun _ ↦ before
    · rw [effectsOf_append, notes_append, h.notes_eq, untold, outcome?_concat_of_forall before]
      simpa using noted
    · rw [outcome?_concat_of_forall before]
      exact unavailable
  · obtain ⟨phase, noted, unavailable⟩ := move.notes_of_not_opening hp
    have ended : ∃ s ∈ turns, s.input.endsWait = true := by
      simpa using mt h.opening_iff.mpr hp
    have pending : p.phase ≠ .ended .sourceUnavailable := move.phase_ne_ended _
    constructor
    · refine iff_of_false phase fun all ↦ ?_
      obtain ⟨s, hs, ends⟩ := ended
      rw [all s (List.mem_append_left _ hs)] at ends
      cases ends
    · rw [effectsOf_append, notes_append, h.notes_eq, outcome?_concat_of_exists ended]
      simp [noted]
    · rw [outcome?_concat_of_exists ended]
      exact iff_of_false unavailable (mt h.unavailable_iff.mpr pending)

/-- A run of a new pair notes the outcome of its attempt, if this ends before the pair gives up. -/
theorem Run.waited (run : Run timeout (.new target) turns p) : Waited turns p :=
  run.induction ⟨by simp [new], rfl, by simp [new, outcome?]⟩ fun _ ih move ↦ ih.concat move

/-- A run of a new pair records no failure to reach the source without noting it. -/
theorem Run.failsUnnoted_eq_false (run : Run timeout (.new target) turns p) :
    ∀ effect ∈ effectsOf turns, effect.failsUnnoted = false := by
  intro effect he
  obtain ⟨t, ht, he⟩ := List.mem_flatMap.mp he
  exact (run.move_of_mem ht).failsUnnoted_eq_false effect he

end Pair

/-! ### What the registry's books say -/

/-- What the books say about attempts to reach the source. -/
structure OpenBooks where
  /-- How many failed, in the counts. -/
  failed : Nat
  /-- How many failed, in the metrics. -/
  measured : Nat
  /-- Whether the latest failed. -/
  lastFailed : Bool
  deriving DecidableEq, Repr

/-- What the books have to say after some outcomes, the latest at the end. -/
def OpenBooks.of (outcomes : List Bool) : OpenBooks :=
  ⟨outcomes.count false, outcomes.count false, outcomes.getLast? = some false⟩

/-- Whether a call only removes pairs or tells them to stop. -/
def Call.onlyStops : Call → Bool
  | .register _ | .recordOpen _ => false
  | _ => true

namespace Registry

/-- The books on attempts to reach the source. -/
def openBooks (r : Registry) : OpenBooks :=
  ⟨r.failedOpens, total .sourceFailures r.record, r.lastOpenFailed⟩

variable {r : Registry} {outcomes : List Bool}

/-- To count something else does not concern the attempts. -/
theorem openBooks_note (r : Registry) {counter : Counter} (h : counter ≠ .sourceFailures) :
    (r.note counter).openBooks = r.openBooks := by
  rw [openBooks, total_note, if_neg h.symm]
  rfl

/-- To register a pair does not concern the attempts. -/
theorem openBooks_register (r : Registry) (root : RootId) :
    (r.register root).1.openBooks = r.openBooks := by
  rw [register, openBooks_note _ (by simp)]
  rfl

/-- To tear a pair down does not concern the attempts. -/
theorem openBooks_teardown (r : Registry) (id : PairId) (reason : TeardownReason) :
    (r.teardown id reason).1.openBooks = r.openBooks := by
  rw [teardown]
  split
  · rw [openBooks_note _ (by simp)]
    rfl
  · rfl

/-- To tear some pairs down does not concern the attempts. -/
theorem openBooks_teardownEach (r : Registry) (reason : TeardownReason) (ids : List PairId) :
    (r.teardownEach reason ids).1.openBooks = r.openBooks := by
  induction ids generalizing r with
  | nil => rfl
  | cons id ids ih => exact (ih _).trans (openBooks_teardown r id reason)

/-- To drop a handle does not concern the attempts. -/
theorem openBooks_dropHandle (r : Registry) (id : PairId) :
    (r.dropHandle id).1.openBooks = r.openBooks := by
  rw [dropHandle]
  split
  · exact openBooks_teardown _ id .dropped
  · rfl

/-- A call that only stops pairs does not concern the attempts. -/
theorem openBooks_call {c : Call} (h : c.onlyStops = true) (r : Registry) :
    (r.call c).1.openBooks = r.openBooks := by
  cases c with
  | register root => cases h
  | recordOpen ok => cases h
  | teardown id reason => exact openBooks_teardown r id reason
  | handleTeardown id reason =>
    by_cases held : r.isHeld id = true
    · simp only [call, handleTeardown, if_pos held]
      exact openBooks_teardown r id reason
    · simp only [call, handleTeardown, if_neg held]
  | dropHandle id => exact openBooks_dropHandle r id
  | teardownAll reason => exact openBooks_teardownEach r reason _
  | cancelRoot root => rfl

/-- The books follow an outcome that is noted. -/
theorem openBooks_recordOpen (h : r.openBooks = .of outcomes) (ok : Bool) :
    (r.recordOpen ok).openBooks = .of (outcomes ++ [ok]) := by
  obtain ⟨failed, measured, -⟩ := OpenBooks.mk.inj h
  cases ok <;>
    simp [openBooks, OpenBooks.of, recordOpen, failed, measured, total, Recording.one,
      Recording.amount]

end Registry

/-- The books follow the outcome that an effect notes; other effects do not concern them. -/
theorem Hub.openBooks_note {r : Registry} {outcomes : List Bool} (h : r.openBooks = .of outcomes)
    (id : PairId) {effect : PairEffect} (noted : effect.failsUnnoted = false) :
    (Hub.note id r effect).openBooks = .of (outcomes ++ effect.noted?.toList) := by
  cases effect with
  | noteOpen ok => exact Registry.openBooks_recordOpen h ok
  | record recording =>
    have nothing : recording.amount .sourceFailures = 0 := by
      simpa [PairEffect.failsUnnoted] using noted
    simpa [Hub.note, PairEffect.noted?, Registry.openBooks, total, nothing] using h
  | leave reason =>
    rw [Hub.note, Registry.openBooks_dropHandle, Registry.openBooks_teardown, h]
    simp [PairEffect.noted?]
  | toSource | toViewer | closeSource | closeViewer =>
    simpa [Hub.note, PairEffect.noted?] using h

end Quoteboard.Relay
