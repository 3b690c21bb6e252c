import Quoteboard.Proofs.Relay.Run

/-!
# What goes through a pair

The frames of data that reach one side of a pair are those that were read from the other side
since the link opened: all of them, in their order, unaltered and once. Only the last one may be
missing, if writing it failed, and then the pair ends with that. What the viewer sent before the
link opened is dropped and counted, and messages that only keep a connection alive go nowhere.
-/

namespace Quoteboard.Relay.Pair

open Quoteboard.Market.Feed (Payload)
open Quoteboard.Metrics Quoteboard.Transport

/-- The frame of data that a turn reads for one direction. -/
def Turn.frame? (direction : Direction) (t : Turn) : Option Payload :=
  match direction, t.input with
  | .toSource, .fromViewer arrival | .toViewer, .fromSource arrival => arrival.data?
  | _, _ => none

/-- Whether a turn reads a frame of data that cannot be written. -/
def Turn.fails (direction : Direction) (t : Turn) : Bool :=
  (t.frame? direction).isSome && !t.written.isOk

/-- Whether a turn reads a message that only keeps a connection alive. -/
def Turn.isControl (t : Turn) : Bool :=
  match t.input with
  | .fromViewer arrival | .fromSource arrival => arrival.isControl
  | _ => false

/-- The frames of data read for one direction since the link opened. -/
def read (direction : Direction) (turns : List Turn) : List Payload :=
  (sinceOpen turns).filterMap (·.frame? direction)

/-- The frames of data that the viewer sent before the link opened. -/
def readEarly (turns : List Turn) : List Payload :=
  (beforeOpen turns).filterMap (·.frame? .toSource)

/-- The frame of data that an effect has written in one direction. -/
def sentBy? (direction : Direction) : PairEffect → Option Payload
  | .toSource payload true => if direction = .toSource then some payload else none
  | .toViewer payload true => if direction = .toViewer then some payload else none
  | _ => none

/-- The frames of data written in one direction. -/
def sent (direction : Direction) (turns : List Turn) : List Payload :=
  (effectsOf turns).filterMap (sentBy? direction)

/-- What an effect records. -/
def recordingOf? : PairEffect → Option Recording
  | .record recording => some recording
  | _ => none

/-- What was recorded in some turns. -/
def recordingsOf (turns : List Turn) : List Recording :=
  (effectsOf turns).filterMap recordingOf?

/-- Why a pair ends when a frame cannot be written in one direction. -/
def failure : Direction → TeardownReason
  | .toSource => .sourceError
  | .toViewer => .viewerError

/-- What went through a pair is what was to go through it. -/
structure Forwards (turns : List Turn) (p : Pair) : Prop where
  /-- What was written is what was read, but for a last frame that could not be written. -/
  sent_eq : ∀ d, sent d turns
    = if (sinceOpen turns).any (·.fails d) then (read d turns).dropLast else read d turns
  /-- A frame that cannot be written is the last that the pair reads. -/
  ends_of_fails : ∀ d, ∀ t ∈ sinceOpen turns, t.fails d = true →
    turns.getLast? = some t ∧ p.phase = .ended (failure d)
  /-- What the viewer sends early is dropped, and nothing else is done with it. -/
  early_dropped : ∀ t ∈ beforeOpen turns, (t.frame? .toSource).isSome = true →
    t.effects = [.record (.one (.framesDropped .toSource))]
  /-- A message that only keeps a connection alive has no effect. -/
  control_ignored : ∀ t ∈ turns, t.isControl = true → t.effects = [] ∧ t.after = t.before
  /-- The frames that count as dropped on their way to the source are the early ones. -/
  dropped_toSource : total (.framesDropped .toSource) (recordingsOf turns)
    = (readEarly turns).length
  /-- No frame of the source counts as dropped. -/
  dropped_toViewer : total (.framesDropped .toViewer) (recordingsOf turns) = 0
  /-- The frames that count as forwarded are those that were written. -/
  forwarded_eq : ∀ d, total (.framesForwarded d) (recordingsOf turns) = (sent d turns).length
  /-- Whenever the pair forwards, its link is open, so that no frame finds it closed. -/
  link_open : ∀ q ∈ p :: turns.map (·.before), q.phase = .forwarding → q.link.isOpen = true

variable {target : String} {timeout : Duration} {p p' : Pair} {input : PairInput}
  {written : Except String Unit} {effects : List PairEffect} {turns more : List Turn}
  {d : Direction}

@[simp] theorem sent_append : sent d (turns ++ more) = sent d turns ++ sent d more := by
  simp [sent]

@[simp] theorem recordingsOf_append :
    recordingsOf (turns ++ more) = recordingsOf turns ++ recordingsOf more := by
  simp [recordingsOf]

/-- A turn in which the link is open writes the frame that it reads, unless the write fails; any
other turn writes nothing. -/
theorem Move.sent_eq (move : Move target p input written p' effects) :
    sent d [⟨p, input, written, p', effects⟩]
      = if p.phase = .forwarding ∧ Turn.fails d ⟨p, input, written, p', effects⟩ = false then
          (Turn.frame? d ⟨p, input, written, p', effects⟩).toList
        else [] := by
  cases move <;> cases d <;>
    simp_all [sent, sentBy?, Turn.fails, Turn.frame?, new, forwarding, Except.isOk, Except.toBool,
      Arrival.data?_of_isControl, Arrival.data?_of_isBreak]

/-- A write that fails ends the pair. -/
theorem Move.phase_of_fails (move : Move target p input written p' effects)
    (open' : p.phase = .forwarding) (h : Turn.fails d ⟨p, input, written, p', effects⟩ = true) :
    p'.phase = .ended (failure d) := by
  cases move <;> cases d <;>
    simp_all [Turn.fails, Turn.frame?, new, forwarding, gone, failure, Except.isOk, Except.toBool,
      Arrival.data?_of_isControl, Arrival.data?_of_isBreak]

/-- A turn counts as many frames forwarded as it writes. -/
theorem Move.forwarded_eq (move : Move target p input written p' effects) :
    total (.framesForwarded d) (recordingsOf [⟨p, input, written, p', effects⟩])
      = (sent d [⟨p, input, written, p', effects⟩]).length := by
  cases move <;> cases d <;> rfl

/-- A turn counts a frame as dropped if the viewer sends it too early, and only then. -/
theorem Move.dropped_eq (move : Move target p input written p' effects) :
    total (.framesDropped d) (recordingsOf [⟨p, input, written, p', effects⟩])
      = if d = .toSource ∧ p.phase = .opening then
          (Turn.frame? .toSource ⟨p, input, written, p', effects⟩).toList.length
        else 0 := by
  cases move <;> cases d <;>
    simp_all [recordingsOf, recordingOf?, total, Recording.one, Recording.amount, Turn.frame?,
      new, forwarding, Arrival.data?_of_isControl, List.filterMap_cons]

/-- A frame that the viewer sends too early is dropped, and nothing else is done with it. -/
theorem Move.effects_of_early (move : Move target p input written p' effects)
    (opening : p.phase = .opening)
    (h : (Turn.frame? .toSource ⟨p, input, written, p', effects⟩).isSome = true) :
    effects = [.record (.one (.framesDropped .toSource))] := by
  cases move <;> simp_all [Turn.frame?, new, forwarding, Arrival.data?_of_isControl]

/-- A message that only keeps a connection alive has no effect. -/
theorem Move.of_isControl (move : Move target p input written p' effects)
    (h : Turn.isControl ⟨p, input, written, p', effects⟩ = true) : effects = [] ∧ p' = p := by
  cases move with
  | earlyControl | viewerControl | sourceControl => exact ⟨rfl, rfl⟩
  | sourceBreak hb => exact absurd (h.symm.trans (Arrival.isControl_of_isBreak hb)) (by simp)
  | _ => cases h

/-- A pair forwards only while its link is open. -/
theorem Coherent.isOpen_of_forwarding (h : p.Coherent target) (hp : p.phase = .forwarding) :
    p.link.isOpen = true := by
  cases h with
  | new => cases hp
  | forwarding => rfl
  | gone => cases hp

/-- What was written is what was read, but for a last frame that could not be written. -/
def Carries (d : Direction) (turns : List Turn) (p : Pair) : Prop :=
  sent d turns
      = (if (sinceOpen turns).any (·.fails d) then (read d turns).dropLast else read d turns) ∧
    ∀ t ∈ sinceOpen turns, t.fails d = true →
      turns.getLast? = some t ∧ p.phase = .ended (failure d)

/-- Until the link opens, nothing is read for forwarding and nothing is written. -/
theorem Carries.concat_of_opening {t : Turn} (shut : sinceOpen turns = [])
    (same : sent d turns = read d turns) (silent : sent d [t] = []) :
    Carries d (turns ++ [t]) p := by
  have none_read : read d turns = [] := by rw [read, shut]; rfl
  by_cases hi : t.input = .resolved .accepted
  · have no_frame : t.frame? d = none := by cases d <;> simp [Turn.frame?, hi]
    have since := sinceOpen_concat_of_accepted shut hi
    rw [Carries, sent_append, same, silent, none_read, read, since]
    simp [Turn.fails, no_frame]
  · have since := sinceOpen_concat_of_eq_nil shut hi
    rw [Carries, sent_append, same, silent, none_read, read, since]
    simp

/-- Once the link has opened, what is read is written, until a write fails, which ends the pair. -/
theorem Carries.concat_of_forwarding {t : Turn} (opened : sinceOpen turns ≠ [])
    (fine : ∀ t ∈ sinceOpen turns, t.fails d = false) (same : sent d turns = read d turns)
    (next : sent d [t] = if t.fails d = false then (t.frame? d).toList else [])
    (ends : t.fails d = true → p.phase = .ended (failure d)) :
    Carries d (turns ++ [t]) p := by
  have since : sinceOpen (turns ++ [t]) = sinceOpen turns ++ [t] :=
    sinceOpen_append_of_ne_nil opened
  have reads : read d (turns ++ [t]) = read d turns ++ (t.frame? d).toList := by
    rw [read, since, List.filterMap_append, ← read]
    cases h : t.frame? d <;> simp [h]
  have any_eq : (sinceOpen turns ++ [t]).any (·.fails d) = t.fails d := by
    have quiet : (sinceOpen turns).any (·.fails d) = false := by simpa using fine
    rw [List.any_append, quiet]
    simp
  constructor
  · rw [since, any_eq, sent_append, same, next, reads]
    by_cases hf : t.fails d = true
    · obtain ⟨payload, hp⟩ : ∃ payload, t.frame? d = some payload := by
        rw [Turn.fails, Bool.and_eq_true] at hf
        exact Option.isSome_iff_exists.mp hf.1
      rw [if_neg (by simp [hf]), if_pos hf, hp]
      simp
    · rw [if_pos (by simpa using hf), if_neg hf]
  · intro t' ht' hf
    rw [since] at ht'
    rcases List.mem_append.mp ht' with ht' | ht'
    · rw [fine t' ht'] at hf
      cases hf
    · obtain rfl := List.mem_singleton.mp ht'
      exact ⟨by simp, ends hf⟩

/-- In every run each direction carries what is read, up to a write that fails. -/
theorem Run.carries (run : Run timeout (.new target) turns p) (d : Direction) :
    Carries d turns p := by
  refine run.induction (P := Carries d) ⟨rfl, by simp [sinceOpen]⟩ ?_
  intro turns q input written q' effects sofar ih move
  -- Nothing has failed so far, or else there would be no further turn.
  have fine : ∀ t ∈ sinceOpen turns, t.fails d = false := by
    intro t ht
    rw [← Bool.not_eq_true]
    exact fun hf ↦ move.phase_ne_ended _ (ih.2 t ht hf).2
  have same : sent d turns = read d turns := by
    rw [ih.1, if_neg]
    simpa using fine
  have next := move.sent_eq (d := d)
  cases hq : q.phase with
  | opening =>
    rw [hq, if_neg (by simp)] at next
    exact .concat_of_opening (sofar.sinceOpen_of_opening hq) same next
  | forwarding =>
    rw [hq] at next
    exact .concat_of_forwarding (sofar.sinceOpen_of_forwarding hq) fine same (by simpa using next)
      (move.phase_of_fails hq)
  | ended reason => exact absurd hq (move.phase_ne_ended reason)

/-- The frames that count as forwarded are those that were written. -/
theorem Run.forwarded_eq (run : Run timeout (.new target) turns p) (d : Direction) :
    total (.framesForwarded d) (recordingsOf turns) = (sent d turns).length := by
  refine run.induction (P := fun turns _ ↦
    total (.framesForwarded d) (recordingsOf turns) = (sent d turns).length) rfl ?_
  intro turns q input written q' effects _ ih move
  rw [recordingsOf_append, total_append, ih, move.forwarded_eq, sent_append, List.length_append]

/-- Before the link opens, a pair is in its first phase. -/
theorem Run.phase_of_mem_beforeOpen (run : Run timeout (.new target) turns p) :
    ∀ t ∈ beforeOpen turns, t.before.phase = .opening := by
  refine run.induction (P := fun turns _ ↦ ∀ t ∈ beforeOpen turns, t.before.phase = .opening)
    (by simp [beforeOpen]) ?_
  intro turns q input written q' effects sofar ih move t ht
  cases hq : q.phase with
  | opening =>
    have shut := sofar.sinceOpen_of_opening hq
    rcases List.mem_append.mp ((List.takeWhile_prefix _).subset ht) with ht | ht
    · rw [beforeOpen_of_sinceOpen_eq_nil shut] at ih
      exact ih t ht
    · rw [List.mem_singleton.mp ht]
      exact hq
  | forwarding =>
    rw [beforeOpen_append_of_ne_nil (sofar.sinceOpen_of_forwarding hq)] at ht
    exact ih t ht
  | ended reason => exact absurd hq (move.phase_ne_ended reason)

/-- What the viewer sends before the link opens comes early. -/
theorem readEarly_concat {t : Turn} (shut : sinceOpen turns = []) :
    readEarly (turns ++ [t]) = readEarly turns ++ (t.frame? .toSource).toList := by
  have all_early := beforeOpen_of_sinceOpen_eq_nil shut
  by_cases hi : t.input = .resolved .accepted
  · have no_frame : t.frame? .toSource = none := by simp [Turn.frame?, hi]
    have early : beforeOpen (turns ++ [t]) = turns := by
      have cut := List.takeWhile_append_dropWhile
        (p := fun t : Turn ↦ decide (t.input ≠ .resolved .accepted)) (l := turns ++ [t])
      rw [← beforeOpen, ← sinceOpen, sinceOpen_concat_of_accepted shut hi] at cut
      exact List.append_cancel_right cut
    rw [readEarly, early, readEarly, all_early, no_frame]
    simp
  · have early := beforeOpen_of_sinceOpen_eq_nil (sinceOpen_concat_of_eq_nil shut hi)
    rw [readEarly, early, readEarly, all_early, List.filterMap_append]
    cases h : t.frame? .toSource <;> simp [h]

/-- The frames that count as dropped are those that the viewer sent before the link opened. -/
theorem Run.dropped_eq (run : Run timeout (.new target) turns p) (d : Direction) :
    total (.framesDropped d) (recordingsOf turns)
      = if d = .toSource then (readEarly turns).length else 0 := by
  refine run.induction (P := fun turns _ ↦ total (.framesDropped d) (recordingsOf turns)
    = if d = .toSource then (readEarly turns).length else 0) (by cases d <;> rfl) ?_
  intro turns q input written q' effects sofar ih move
  rw [recordingsOf_append, total_append, ih, move.dropped_eq]
  cases hq : q.phase with
  | opening =>
    rw [readEarly_concat (sofar.sinceOpen_of_opening hq), List.length_append]
    cases d <;> simp
  | forwarding =>
    rw [readEarly, readEarly, beforeOpen_append_of_ne_nil (sofar.sinceOpen_of_forwarding hq)]
    simp
  | ended reason => exact absurd hq (move.phase_ne_ended reason)

/-- The pair is coherent before each turn of a run. -/
theorem Run.coherent_of_mem (run : Run timeout (.new target) turns p) :
    ∀ t ∈ turns, t.before.Coherent target := by
  refine run.induction (P := fun turns _ ↦ ∀ t ∈ turns, t.before.Coherent target) (by simp) ?_
  intro turns q input written q' effects sofar ih _ t ht
  rcases List.mem_append.mp ht with ht | ht
  · exact ih t ht
  · obtain rfl := List.mem_singleton.mp ht
    exact sofar.coherent

/-- Through every run of a pair goes what is to go through it. -/
theorem forwards_of_run (run : Run timeout (.new target) turns p) : Forwards turns p where
  sent_eq d := (run.carries d).1
  ends_of_fails d := (run.carries d).2
  early_dropped t ht hf :=
    (run.move_of_mem ((List.takeWhile_prefix _).subset ht)).effects_of_early
      (run.phase_of_mem_beforeOpen t ht) hf
  control_ignored t ht hc := (run.move_of_mem ht).of_isControl hc
  dropped_toSource := run.dropped_eq .toSource
  dropped_toViewer := run.dropped_eq .toViewer
  forwarded_eq := run.forwarded_eq
  link_open q hq open' := by
    rcases List.mem_cons.mp hq with rfl | hq
    · exact run.coherent.isOpen_of_forwarding open'
    · obtain ⟨t, ht, rfl⟩ := List.mem_map.mp hq
      exact (run.coherent_of_mem t ht).isOpen_of_forwarding open'

/-- The sample run, and a frame of the viewer at its end that cannot be written. -/
theorem forwards_of_sample_run :
    ∃ turns p, (new "ws://source").run? ⟨0⟩
        (sampleInputs ++ [(.fromViewer (.message (.data (.text "c"))), .error "broken pipe")])
          = some (turns, p) ∧
      Run ⟨0⟩ (.new "ws://source") turns p ∧ p.phase = .ended .sourceError ∧
      readEarly turns = [.text "early"] ∧ read .toSource turns = [.text "a", .text "c"] ∧
      sent .toSource turns = [.text "a"] ∧ sent .toViewer turns = [.text "b"] ∧
      Forwards turns p := by
  have run := Run.of_run? (rfl : (new "ws://source").run? ⟨0⟩
    (sampleInputs ++ [(.fromViewer (.message (.data (.text "c"))), .error "broken pipe")])
      = some (_, _))
  exact ⟨_, _, rfl, run, rfl, rfl, rfl, rfl, rfl, forwards_of_run run⟩

end Quoteboard.Relay.Pair
