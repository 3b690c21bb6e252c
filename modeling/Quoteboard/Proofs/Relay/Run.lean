import Mathlib.Data.List.TakeWhile
import Quoteboard.Relay.Pair

/-!
# Runs of a pair

A run is a list of turns: in each the pair takes an input that it waits for. Which of these inputs
comes next is left open, and so is whether a write that it gives rise to succeeds; a statement
about runs holds for every order in which messages, cancellations and failures can come.

What a pair holds goes with its phase. From this follows, rule by rule, all that a turn can do.
-/

namespace Quoteboard.Relay

open Quoteboard.Market.Feed (Payload)
open Quoteboard.Metrics Quoteboard.Transport

/-- Whether what was read is a message that only keeps a connection alive. -/
def Arrival.isControl : Arrival → Bool
  | .message (.ping _) | .message (.pong _) => true
  | _ => false

/-- Whether a connection broke without a close frame. -/
def Arrival.isBreak : Arrival → Bool
  | .failed _ | .ended => true
  | _ => false

/-- The frame of data that was read, if it is one. -/
def Arrival.data? : Arrival → Option Payload
  | .message (.data payload) => some payload
  | _ => none

@[simp] theorem Arrival.data?_data (payload : Payload) :
    (Arrival.message (.data payload)).data? = some payload := rfl

@[simp] theorem Arrival.data?_close (frame : Option CloseFrame) :
    (Arrival.message (.close frame)).data? = none := rfl

@[simp] theorem Arrival.data?_failed (cause : String) : (Arrival.failed cause).data? = none := rfl

@[simp] theorem Arrival.data?_ended : Arrival.ended.data? = none := rfl

/-- What only keeps a connection alive is a ping or a pong. -/
theorem Arrival.of_isControl {a : Arrival} (h : a.isControl = true) :
    (∃ content, a = .message (.ping content)) ∨ ∃ content, a = .message (.pong content) := by
  unfold isControl at h
  split at h
  · exact .inl ⟨_, rfl⟩
  · exact .inr ⟨_, rfl⟩
  · cases h

/-- A connection that breaks fails or is at its end. -/
theorem Arrival.of_isBreak {a : Arrival} (h : a.isBreak = true) :
    (∃ cause, a = .failed cause) ∨ a = .ended := by
  unfold isBreak at h
  split at h
  · exact .inl ⟨_, rfl⟩
  · exact .inr rfl
  · cases h

/-- A message that only keeps a connection alive brings no data. -/
theorem Arrival.data?_of_isControl {a : Arrival} (h : a.isControl = true) : a.data? = none := by
  rcases of_isControl h with ⟨_, rfl⟩ | ⟨_, rfl⟩ <;> rfl

/-- A connection that breaks does not keep itself alive. -/
theorem Arrival.isControl_of_isBreak {a : Arrival} (h : a.isBreak = true) :
    a.isControl = false := by
  rcases of_isBreak h with ⟨_, rfl⟩ | rfl <;> rfl

/-- A connection that breaks brings no data. -/
theorem Arrival.data?_of_isBreak {a : Arrival} (h : a.isBreak = true) : a.data? = none := by
  rcases of_isBreak h with ⟨_, rfl⟩ | rfl <;> rfl

namespace Pair

/-- Whether a pair waits for an input. The source is heard only once the link is open, and a pair
that has ended waits for nothing. -/
def awaits (p : Pair) (input : PairInput) : Bool :=
  match p.phase, input with
  | .ended _, _ => false
  | _, .cancelled | _, .fromViewer _ => true
  | .opening, .resolved _ => true
  | .opening, .fromSource _ => false
  | .forwarding, .resolved _ => false
  | .forwarding, .fromSource _ => true

/-- One turn of a pair: what it was, the input that woke it, how a write would fare, what the pair
became, and what it did. -/
structure Turn where
  before : Pair
  input : PairInput
  written : Except String Unit
  after : Pair
  effects : List PairEffect

/-- The turn that an input makes a pair take. -/
def turn (p : Pair) (timeout : Duration) (input : PairInput) (written : Except String Unit) :
    Turn :=
  ⟨p, input, written, (p.step timeout input written).1, (p.step timeout input written).2⟩

/-- The turns by which a pair becomes another. -/
inductive Run (timeout : Duration) : Pair → List Turn → Pair → Prop where
  | nil (p : Pair) : Run timeout p [] p
  | cons {p p' : Pair} {turns : List Turn} (input : PairInput) (written : Except String Unit)
      (awaited : p.awaits input = true)
      (rest : Run timeout (p.step timeout input written).1 turns p') :
      Run timeout p (p.turn timeout input written :: turns) p'

/-- The turns that inputs make a pair take, and what it becomes, unless it does not wait for one
of them. -/
def run? (p : Pair) (timeout : Duration) :
    List (PairInput × Except String Unit) → Option (List Turn × Pair)
  | [] => some ([], p)
  | (input, written) :: rest =>
    if p.awaits input then
      ((p.step timeout input written).1.run? timeout rest).map fun r ↦
        (p.turn timeout input written :: r.1, r.2)
    else none

/-- A viewer that is too early at first, one frame each way, and a ping. -/
def sampleInputs : List (PairInput × Except String Unit) :=
  [(.fromViewer (.message (.data (.text "early"))), .ok ()), (.resolved .accepted, .ok ()),
    (.fromViewer (.message (.data (.text "a"))), .ok ()),
    (.fromSource (.message (.data (.text "b"))), .ok ()),
    (.fromViewer (.message (.ping .empty)), .ok ())]

/-- A pair whose link to this target is open. -/
def forwarding (target : String) : Pair := ⟨.forwarding, ⟨target, .opened, true⟩⟩

/-- A pair that has ended, and holds no connection. -/
def gone (target : String) (reason : TeardownReason) : Pair :=
  ⟨.ended reason, ⟨target, .closed, false⟩⟩

/-- A pair holds what goes with its phase. -/
inductive Coherent (target : String) : Pair → Prop where
  | new : Coherent target (.new target)
  | forwarding : Coherent target (.forwarding target)
  | gone (reason : TeardownReason) : Coherent target (.gone target reason)

/-- What a coherent pair makes of an input that it waits for, rule by rule. -/
inductive Move (target : String) :
    Pair → PairInput → Except String Unit → Pair → List PairEffect → Prop where
  /-- The link opens. -/
  | accepted {written} :
      Move target (.new target) (.resolved .accepted) written (.forwarding target) [.noteOpen true]
  /-- The link cannot be opened. -/
  | refused {written} {outcome : OpenOutcome} (h : outcome ≠ .accepted) :
      Move target (.new target) (.resolved outcome) written (.gone target .sourceUnavailable)
        [.noteOpen false, .closeViewer unavailableFrame, .leave .sourceUnavailable]
  /-- The viewer sends something too early. -/
  | early {written} {payload : Payload} :
      Move target (.new target) (.fromViewer (.message (.data payload))) written (.new target)
        [.record (.one (.framesDropped .toSource))]
  /-- The viewer keeps its connection alive. -/
  | earlyControl {written} {arrival : Arrival} (h : arrival.isControl = true) :
      Move target (.new target) (.fromViewer arrival) written (.new target) []
  /-- The viewer closes before the link is open. -/
  | earlyClose {written} {frame : Option CloseFrame} :
      Move target (.new target) (.fromViewer (.message (.close frame))) written
        (.gone target .viewerClosed) [.leave .viewerClosed]
  /-- The viewer is gone before the link is open. -/
  | earlyEnd {written} :
      Move target (.new target) (.fromViewer .ended) written
        (.gone target .viewerClosed) [.leave .viewerClosed]
  /-- The connection to the viewer fails before the link is open. -/
  | earlyFailure {written} {cause : String} :
      Move target (.new target) (.fromViewer (.failed cause)) written
        (.gone target .viewerError) [.leave .viewerError]
  /-- The relay shuts down before the link is open. -/
  | earlyCancel {written} :
      Move target (.new target) .cancelled written (.gone target .shutdown)
        [.closeViewer shutdownFrame, .leave .shutdown]
  /-- A frame of the viewer goes to the source. -/
  | toSource {payload : Payload} :
      Move target (.forwarding target) (.fromViewer (.message (.data payload))) (.ok ())
        (.forwarding target)
        [.toSource payload true, .record (.one (.framesForwarded .toSource))]
  /-- A frame of the viewer cannot be written to the source. -/
  | toSourceFails {payload : Payload} {cause : String} :
      Move target (.forwarding target) (.fromViewer (.message (.data payload))) (.error cause)
        (.gone target .sourceError)
        [.toSource payload false, .closeViewer failedFrame, .leave .sourceError]
  /-- The viewer keeps its connection alive. -/
  | viewerControl {written} {arrival : Arrival} (h : arrival.isControl = true) :
      Move target (.forwarding target) (.fromViewer arrival) written (.forwarding target) []
  /-- The viewer closes. -/
  | viewerClose {written} {frame : Option CloseFrame} :
      Move target (.forwarding target) (.fromViewer (.message (.close frame))) written
        (.gone target .viewerClosed) [.closeSource frame, .leave .viewerClosed]
  /-- The viewer is gone. -/
  | viewerEnd {written} :
      Move target (.forwarding target) (.fromViewer .ended) written
        (.gone target .viewerClosed) [.closeSource none, .leave .viewerClosed]
  /-- The connection to the viewer fails. -/
  | viewerFailure {written} {cause : String} :
      Move target (.forwarding target) (.fromViewer (.failed cause)) written
        (.gone target .viewerError) [.closeSource none, .leave .viewerError]
  /-- A frame of the source goes to the viewer. -/
  | toViewer {payload : Payload} :
      Move target (.forwarding target) (.fromSource (.message (.data payload))) (.ok ())
        (.forwarding target)
        [.toViewer payload true, .record (.one (.framesForwarded .toViewer))]
  /-- A frame of the source cannot be written to the viewer. -/
  | toViewerFails {payload : Payload} {cause : String} :
      Move target (.forwarding target) (.fromSource (.message (.data payload))) (.error cause)
        (.gone target .viewerError)
        [.toViewer payload false, .closeSource none, .leave .viewerError]
  /-- The source keeps its connection alive. -/
  | sourceControl {written} {arrival : Arrival} (h : arrival.isControl = true) :
      Move target (.forwarding target) (.fromSource arrival) written (.forwarding target) []
  /-- The source closes. -/
  | sourceClose {written} {frame : Option CloseFrame} :
      Move target (.forwarding target) (.fromSource (.message (.close frame))) written
        (.gone target .sourceClosed)
        [.closeViewer (frame.getD normalFrame), .leave .sourceClosed]
  /-- The connection to the source breaks. -/
  | sourceBreak {written} {arrival : Arrival} (h : arrival.isBreak = true) :
      Move target (.forwarding target) (.fromSource arrival) written (.gone target .sourceError)
        [.closeViewer failedFrame, .leave .sourceError]
  /-- The relay shuts down. -/
  | cancel {written} :
      Move target (.forwarding target) .cancelled written (.gone target .shutdown)
        [.closeSource (some shutdownFrame), .closeViewer shutdownFrame, .leave .shutdown]

variable {target : String} {timeout : Duration} {p p' p'' : Pair} {input : PairInput}
  {written : Except String Unit} {effects : List PairEffect} {turns more : List Turn}

private theorem move_new (input : PairInput) (awaited : (new target).awaits input = true) :
    Move target (.new target) input written ((new target).step timeout input written).1
      ((new target).step timeout input written).2 := by
  cases input with
  | cancelled => exact .earlyCancel
  | resolved outcome =>
    cases outcome with
    | accepted => exact .accepted
    | refused cause => exact .refused (by simp)
    | timedOut => exact .refused (by simp)
  | fromViewer arrival =>
    match arrival with
    | .message (.data _) => exact .early
    | .message (.ping _) => exact .earlyControl rfl
    | .message (.pong _) => exact .earlyControl rfl
    | .message (.close _) => exact .earlyClose
    | .failed _ => exact .earlyFailure
    | .ended => exact .earlyEnd
  | fromSource arrival => cases awaited

private theorem move_forwarding (input : PairInput)
    (awaited : (forwarding target).awaits input = true) :
    Move target (.forwarding target) input written
      ((forwarding target).step timeout input written).1
      ((forwarding target).step timeout input written).2 := by
  cases input with
  | cancelled => exact .cancel
  | resolved outcome => cases awaited
  | fromViewer arrival =>
    match arrival with
    | .message (.data _) =>
      cases written with
      | ok => exact .toSource
      | error cause => exact .toSourceFails
    | .message (.ping _) => exact .viewerControl rfl
    | .message (.pong _) => exact .viewerControl rfl
    | .message (.close _) => exact .viewerClose
    | .failed _ => exact .viewerFailure
    | .ended => exact .viewerEnd
  | fromSource arrival =>
    match arrival with
    | .message (.data _) =>
      cases written with
      | ok => exact .toViewer
      | error cause => exact .toViewerFails
    | .message (.ping _) => exact .sourceControl rfl
    | .message (.pong _) => exact .sourceControl rfl
    | .message (.close _) => exact .sourceClose
    | .failed _ => exact .sourceBreak rfl
    | .ended => exact .sourceBreak rfl

/-- A coherent pair takes every input that it waits for by one of the rules. -/
theorem Coherent.move (h : p.Coherent target) (awaited : p.awaits input = true) :
    Move target p input written (p.step timeout input written).1
      (p.step timeout input written).2 := by
  cases h with
  | new => exact move_new input awaited
  | forwarding => exact move_forwarding input awaited
  | gone => cases awaited

/-- Every rule leads to a coherent pair. -/
theorem Move.coherent (move : Move target p input written p' effects) : p'.Coherent target := by
  cases move with
  | accepted | toSource | viewerControl | toViewer | sourceControl => exact .forwarding
  | early | earlyControl => exact .new
  | refused | earlyClose | earlyEnd | earlyFailure | earlyCancel | toSourceFails | viewerClose
  | viewerEnd | viewerFailure | toViewerFails | sourceClose | sourceBreak | cancel =>
    exact .gone _

/-- No rule is about a pair that has ended. -/
theorem Move.phase_ne_ended (move : Move target p input written p' effects)
    (reason : TeardownReason) : p.phase ≠ .ended reason := by
  cases move <;> simp [new, forwarding]

namespace Run

/-- What inputs make of a pair is a run of it. -/
theorem of_run? {inputs : List (PairInput × Except String Unit)}
    (h : p.run? timeout inputs = some (turns, p')) : Run timeout p turns p' := by
  induction inputs generalizing p turns with
  | nil =>
    cases h
    exact .nil _
  | cons wake rest ih =>
    rw [Pair.run?] at h
    split at h
    · next awaited =>
      obtain ⟨⟨later, last⟩, hr, he⟩ := Option.map_eq_some_iff.mp h
      cases he
      exact .cons _ _ awaited (ih hr)
    · cases h

/-- Runs that follow one another make one run. -/
theorem append (run : Run timeout p turns p') (rest : Run timeout p' more p'') :
    Run timeout p (turns ++ more) p'' := by
  induction run with
  | nil => exact rest
  | cons input written awaited _ ih => exact .cons input written awaited (ih rest)

/-- Induction along a run of a new pair: what holds at first and after each further turn holds
after the run. -/
theorem induction {P : List Turn → Pair → Prop} (nil : P [] (.new target))
    (snoc : ∀ {turns p₁ input written p₂ effects}, Run timeout (.new target) turns p₁ →
      P turns p₁ → Move target p₁ input written p₂ effects →
      P (turns ++ [⟨p₁, input, written, p₂, effects⟩]) p₂)
    (run : Run timeout (.new target) turns p) : P turns p := by
  suffices h : ∀ {before p₁}, Run timeout (.new target) before p₁ → p₁.Coherent target →
      P before p₁ → Run timeout p₁ turns p → P (before ++ turns) p from
    h (.nil _) .new nil run
  intro before p₁ sofar hc hp rest
  clear run
  induction rest generalizing before with
  | nil => simpa using hp
  | @cons p₁ p' turns input written awaited rest ih =>
    have move : Move target p₁ input written (p₁.step timeout input written).1
        (p₁.step timeout input written).2 := hc.move awaited
    have next := ih (sofar.append (.cons input written awaited (.nil _))) move.coherent
      (snoc sofar hp move)
    simpa using next

/-- A pair stays coherent along a run. -/
theorem coherent (run : Run timeout (.new target) turns p) : p.Coherent target :=
  run.induction (P := fun _ p ↦ p.Coherent target) .new fun _ _ move ↦ move.coherent

/-- Each turn of a run follows one of the rules. -/
theorem move_of_mem (run : Run timeout (.new target) turns p) {t : Turn} (ht : t ∈ turns) :
    Move target t.before t.input t.written t.after t.effects := by
  refine run.induction (P := fun turns _ ↦ ∀ t ∈ turns,
    Move target t.before t.input t.written t.after t.effects) (by simp) ?_ t ht
  intro turns p₁ input written p₂ effects _ ih move t ht
  rcases List.mem_append.mp ht with ht | ht
  · exact ih t ht
  · rw [List.mem_singleton.mp ht]
    exact move

end Run

/-- What was done in some turns. -/
def effectsOf (turns : List Turn) : List PairEffect := turns.flatMap (·.effects)

/-- The turns before the link opened. -/
def beforeOpen (turns : List Turn) : List Turn :=
  turns.takeWhile fun t ↦ t.input ≠ .resolved .accepted

/-- The turns from the one on in which the link opened. -/
def sinceOpen (turns : List Turn) : List Turn :=
  turns.dropWhile fun t ↦ t.input ≠ .resolved .accepted

@[simp] theorem effectsOf_nil : effectsOf [] = [] := rfl

@[simp] theorem effectsOf_append : effectsOf (turns ++ more) = effectsOf turns ++ effectsOf more :=
  List.flatMap_append

@[simp] theorem effectsOf_singleton (t : Turn) : effectsOf [t] = t.effects := by
  simp [effectsOf]

/-- While the link has not opened, every turn is one before that. -/
theorem beforeOpen_of_sinceOpen_eq_nil (h : sinceOpen turns = []) : beforeOpen turns = turns := by
  have hw := List.takeWhile_append_dropWhile
    (p := fun t : Turn ↦ decide (t.input ≠ .resolved .accepted)) (l := turns)
  rw [← sinceOpen, h, List.append_nil] at hw
  exact hw

private theorem exists_accepted (h : sinceOpen turns ≠ []) :
    ∃ t ∈ turns, t.input = .resolved .accepted := by
  simpa [sinceOpen, List.dropWhile_eq_nil_iff] using h

/-- Once the link has opened, further turns come after that. -/
theorem sinceOpen_append_of_ne_nil (h : sinceOpen turns ≠ []) :
    sinceOpen (turns ++ more) = sinceOpen turns ++ more := by
  rw [sinceOpen, List.dropWhile_append, if_neg (by simpa [sinceOpen] using h)]
  rfl

/-- Once the link has opened, further turns do not come before that. -/
theorem beforeOpen_append_of_ne_nil (h : sinceOpen turns ≠ []) :
    beforeOpen (turns ++ more) = beforeOpen turns := by
  obtain ⟨t, ht, hi⟩ := exists_accepted h
  rw [beforeOpen, List.takeWhile_append, if_neg]
  · rfl
  · intro hl
    have hw := (List.takeWhile_prefix _).eq_of_length hl
    have := List.takeWhile_eq_self_iff.mp hw t ht
    simp [hi] at this

/-- A turn other than the opening one does not open the link. -/
theorem sinceOpen_concat_of_eq_nil (h : sinceOpen turns = []) {t : Turn}
    (ht : t.input ≠ .resolved .accepted) : sinceOpen (turns ++ [t]) = [] := by
  rw [sinceOpen, List.dropWhile_append, if_pos (by simpa [sinceOpen] using h)]
  simp [ht]

/-- The turn in which the link opens is the first of those since then. -/
theorem sinceOpen_concat_of_accepted (h : sinceOpen turns = []) {t : Turn}
    (ht : t.input = .resolved .accepted) : sinceOpen (turns ++ [t]) = [t] := by
  rw [sinceOpen, List.dropWhile_append, if_pos (by simpa [sinceOpen] using h)]
  simp [ht]

/-- A pair that waits for its link forwards once the link has opened, and not before that. -/
theorem Move.phase_of_opening (move : Move target p input written p' effects)
    (h : p.phase = .opening) : p'.phase = .forwarding ↔ input = .resolved .accepted := by
  cases move <;> simp_all [new, forwarding, gone]

/-- A pair that forwards awaits no link, and never will. -/
theorem Move.phase_of_forwarding (move : Move target p input written p' effects)
    (h : p.phase = .forwarding) : p'.phase ≠ .opening ∧ input ≠ .resolved .accepted := by
  cases move <;> simp_all [new, forwarding, gone]

private theorem Run.phase_of_sinceOpen (run : Run timeout (.new target) turns p) :
    (p.phase = .opening → sinceOpen turns = []) ∧
      (p.phase = .forwarding → sinceOpen turns ≠ []) := by
  refine run.induction (P := fun turns p ↦ (p.phase = .opening → sinceOpen turns = []) ∧
    (p.phase = .forwarding → sinceOpen turns ≠ [])) ⟨fun _ ↦ rfl, by simp [new]⟩ ?_
  intro turns q input written q' effects _ ih move
  cases hq : q.phase with
  | opening =>
    have shut := ih.1 hq
    by_cases hi : input = .resolved .accepted
    · have open' := (move.phase_of_opening hq).mpr hi
      rw [sinceOpen_concat_of_accepted shut hi, open']
      simp
    · have still := mt (move.phase_of_opening hq).mp hi
      rw [sinceOpen_concat_of_eq_nil shut hi]
      exact ⟨fun _ ↦ rfl, fun h ↦ absurd h still⟩
  | forwarding =>
    rw [sinceOpen_append_of_ne_nil (ih.2 hq)]
    exact ⟨fun h ↦ absurd h (move.phase_of_forwarding hq).1, fun _ ↦ by simp⟩
  | ended reason => exact absurd hq (move.phase_ne_ended reason)

/-- While a pair waits for its link, the link has not opened. -/
theorem Run.sinceOpen_of_opening (run : Run timeout (.new target) turns p)
    (h : p.phase = .opening) : sinceOpen turns = [] :=
  run.phase_of_sinceOpen.1 h

/-- When a pair forwards, the link has opened. -/
theorem Run.sinceOpen_of_forwarding (run : Run timeout (.new target) turns p)
    (h : p.phase = .forwarding) : sinceOpen turns ≠ [] :=
  run.phase_of_sinceOpen.2 h

end Pair

end Quoteboard.Relay
