import Quoteboard.Proofs.Relay.Forwarding

/-!
# How a pair ends

However a pair ends, both sides are closed with it. The viewer is told why, once and as the last
thing that it is sent, unless it was the viewer that left. A connection to the source that is left
is closed once, in the words of the viewer if the viewer closed, and one that is not left, or never
was, is not.
-/

namespace Quoteboard.Relay

open Quoteboard.Metrics Quoteboard.Transport

/-- Whether nothing more is read from a connection after this. -/
def Arrival.endsConnection : Arrival → Bool
  | .message (.close _) | .failed _ | .ended => true
  | _ => false

/-- A message that only keeps a connection alive does not end it. -/
theorem Arrival.endsConnection_of_isControl {a : Arrival} (h : a.isControl = true) :
    a.endsConnection = false := by
  rcases of_isControl h with ⟨_, rfl⟩ | ⟨_, rfl⟩ <;> rfl

/-- A connection that breaks ends. -/
theorem Arrival.endsConnection_of_isBreak {a : Arrival} (h : a.isBreak = true) :
    a.endsConnection = true := by
  rcases of_isBreak h with ⟨_, rfl⟩ | rfl <;> rfl

namespace Pair

/-- Whether an effect tries to send a close frame to the viewer. -/
def isFarewell : PairEffect → Bool
  | .closeViewer _ => true
  | _ => false

/-- Whether an effect tries to send something to the viewer. -/
def goesToViewer : PairEffect → Bool
  | .toViewer _ _ | .closeViewer _ => true
  | _ => false

/-- The close frames that were to be sent to the viewer. -/
def viewerCloses (turns : List Turn) : List CloseFrame :=
  (effectsOf turns).filterMap fun
    | .closeViewer frame => some frame
    | _ => none

/-- The close frames with which the connection to the source was closed. -/
def sourceCloses (turns : List Turn) : List (Option CloseFrame) :=
  (effectsOf turns).filterMap fun
    | .closeSource frame => some frame
    | _ => none

/-- What was done after the first close frame was to be sent to the viewer. -/
def afterFarewell (turns : List Turn) : List PairEffect :=
  ((effectsOf turns).dropWhile (!isFarewell ·)).tail

/-- Whether a turn takes the connection to the source away: the source closes, the connection
breaks, or a write to it fails. -/
def Turn.losesSource (t : Turn) : Bool :=
  match t.input with
  | .fromSource arrival => arrival.endsConnection
  | _ => t.fails .toSource

/-- Whether a connection to the source was opened and is left. -/
def sourceIsLeft (turns : List Turn) : Bool :=
  !(sinceOpen turns).isEmpty && !(sinceOpen turns).any (·.losesSource)

/-- The close frames for a viewer whose pair ends with a reason, given the input that ends it. -/
def viewerFarewell (reason : TeardownReason) (last : PairInput) : Option (List CloseFrame) :=
  match reason, last with
  | .sourceUnavailable, _ => some [⟨1011, "upstream unavailable"⟩]
  | .sourceError, _ => some [⟨1011, "upstream connection failed"⟩]
  | .shutdown, _ => some [⟨1001, "relay shutting down"⟩]
  | .sourceClosed, .fromSource (.message (.close frame)) => some [frame.getD ⟨1000, ""⟩]
  | .viewerClosed, _ | .viewerError, _ => some []
  | _, _ => none

/-- The close frame for the source, if it is left, given the input that ends the pair. -/
def sourceFarewell (last : PairInput) : Option CloseFrame :=
  match last with
  | .fromViewer (.message (.close frame)) => frame
  | .cancelled => some ⟨1001, "relay shutting down"⟩
  | _ => none

/-- Both sides of a pair that has ended with a reason are closed. -/
structure Closes (turns : List Turn) (p : Pair) (reason : TeardownReason) : Prop where
  /-- The link is closed, and holds no connection. -/
  link_closed : p.link.state = .closed ∧ p.link.hasSocket = false
  /-- The viewer is told what belongs to the reason. -/
  viewer_told : ∃ t, turns.getLast? = some t ∧
    viewerFarewell reason t.input = some (viewerCloses turns)
  /-- Nothing is sent to the viewer after that. -/
  silent_after : ∀ e ∈ afterFarewell turns, goesToViewer e = false
  /-- The source is closed if it is left, and only then. -/
  source_closed : ∃ t, turns.getLast? = some t ∧
    sourceCloses turns = if sourceIsLeft turns then [sourceFarewell t.input] else []

variable {target : String} {timeout : Duration} {p p' : Pair} {input : PairInput}
  {written : Except String Unit} {effects : List PairEffect} {turns more : List Turn}
  {reason : TeardownReason}

@[simp] theorem viewerCloses_append :
    viewerCloses (turns ++ more) = viewerCloses turns ++ viewerCloses more := by
  simp [viewerCloses]

@[simp] theorem sourceCloses_append :
    sourceCloses (turns ++ more) = sourceCloses turns ++ sourceCloses more := by
  simp [sourceCloses]

/-- A turn that does not end the pair closes nothing. -/
theorem Move.closes_nothing (move : Move target p input written p' effects)
    (h : ∀ reason, p'.phase ≠ .ended reason) :
    viewerCloses [⟨p, input, written, p', effects⟩] = [] ∧
      sourceCloses [⟨p, input, written, p', effects⟩] = [] := by
  cases move with
  | accepted | early | earlyControl | toSource | viewerControl | toViewer | sourceControl =>
    exact ⟨rfl, rfl⟩
  | _ => exact absurd rfl (h _)

/-- A turn that does not end the pair leaves it the source. -/
theorem Move.keeps_source (move : Move target p input written p' effects)
    (h : ∀ reason, p'.phase ≠ .ended reason) (open' : p.phase = .forwarding) :
    Turn.losesSource ⟨p, input, written, p', effects⟩ = false := by
  cases move with
  | accepted | early | earlyControl => cases open'
  | toSource | toViewer => rfl
  | viewerControl hc =>
    simp [Turn.losesSource, Turn.fails, Turn.frame?, Arrival.data?_of_isControl hc]
  | sourceControl hc => exact Arrival.endsConnection_of_isControl hc
  | _ => exact absurd rfl (h _)

/-- A turn that ends the pair tells the viewer what belongs to the reason. -/
theorem Move.viewer_told (move : Move target p input written p' effects)
    (h : p'.phase = .ended reason) :
    viewerFarewell reason input = some (viewerCloses [⟨p, input, written, p', effects⟩]) := by
  cases move with
  | accepted | early | earlyControl | toSource | viewerControl | toViewer | sourceControl => cases h
  | _ => cases h; rfl

/-- A turn that ends the pair closes the source if it is left. -/
theorem Move.source_closed (move : Move target p input written p' effects)
    (h : p'.phase = .ended reason) :
    sourceCloses [⟨p, input, written, p', effects⟩]
      = if p.phase = .forwarding ∧ Turn.losesSource ⟨p, input, written, p', effects⟩ = false then
          [sourceFarewell input]
        else [] := by
  cases move with
  | accepted | early | earlyControl | toSource | viewerControl | toViewer | sourceControl => cases h
  | sourceBreak hb =>
    have lost := Arrival.endsConnection_of_isBreak hb
    simp [sourceCloses, Turn.losesSource, lost]
  | _ => cases h; rfl

/-- A turn that ends the pair sends nothing to the viewer after a close frame. -/
theorem Move.silent_after (move : Move target p input written p' effects)
    (h : p'.phase = .ended reason) :
    ∀ e ∈ afterFarewell [⟨p, input, written, p', effects⟩], goesToViewer e = false := by
  cases move with
  | accepted | early | earlyControl | toSource | viewerControl | toViewer | sourceControl => cases h
  | refused | earlyCancel | toSourceFails | sourceClose | sourceBreak =>
    intro e he
    obtain rfl := List.mem_singleton.mp he
    rfl
  | _ => simp [afterFarewell, isFarewell, goesToViewer]

/-- Until it ends, a pair has closed nothing, and the source is left once the link has opened. -/
theorem Run.closes_nothing (run : Run timeout (.new target) turns p)
    (h : ∀ reason, p.phase ≠ .ended reason) :
    viewerCloses turns = [] ∧ sourceCloses turns = [] ∧
      (sinceOpen turns).any (·.losesSource) = false := by
  refine run.induction (P := fun turns p ↦ (∀ reason, p.phase ≠ .ended reason) →
    viewerCloses turns = [] ∧ sourceCloses turns = [] ∧
      (sinceOpen turns).any (·.losesSource) = false) (fun _ ↦ ⟨rfl, rfl, rfl⟩) ?_ h
  intro turns q input written q' effects sofar ih move hq'
  obtain ⟨viewer, source, left⟩ := ih fun reason ↦ move.phase_ne_ended reason
  obtain ⟨viewer', source'⟩ := move.closes_nothing hq'
  refine ⟨by rw [viewerCloses_append, viewer, viewer']; rfl,
    by rw [sourceCloses_append, source, source']; rfl, ?_⟩
  cases hq : q.phase with
  | opening =>
    have shut := sofar.sinceOpen_of_opening hq
    by_cases hi : input = .resolved .accepted
    · rw [sinceOpen_concat_of_accepted shut hi]
      subst hi
      rfl
    · rw [sinceOpen_concat_of_eq_nil shut hi]
      rfl
  | forwarding =>
    rw [sinceOpen_append_of_ne_nil (sofar.sinceOpen_of_forwarding hq), List.any_append, left]
    simp [move.keeps_source hq' hq]
  | ended reason => exact absurd hq (move.phase_ne_ended reason)

/-- A run of a pair that has ended has a last turn, which ends it. -/
theorem Run.exists_last (run : Run timeout (.new target) turns p)
    (h : p.phase = .ended reason) :
    ∃ before q input written effects, turns = before ++ [⟨q, input, written, p, effects⟩] ∧
      Run timeout (.new target) before q ∧ Move target q input written p effects := by
  refine run.induction (P := fun turns p ↦ p.phase = .ended reason →
    ∃ before q input written effects, turns = before ++ [⟨q, input, written, p, effects⟩] ∧
      Run timeout (.new target) before q ∧ Move target q input written p effects)
    (fun h ↦ by cases h) ?_ h
  intro turns q input written q' effects sofar _ move _
  exact ⟨turns, q, input, written, effects, rfl, sofar, move⟩

/-- What is done after the viewer was told is done in the turn in which it is told. -/
theorem afterFarewell_append (h : viewerCloses turns = []) :
    afterFarewell (turns ++ more) = afterFarewell more := by
  have quiet : ∀ e ∈ effectsOf turns, isFarewell e = false := by
    intro e he
    have := List.filterMap_eq_nil_iff.mp h e he
    cases e <;> simp_all [isFarewell]
  rw [afterFarewell, effectsOf_append, List.dropWhile_append_of_pos (by simpa using quiet)]
  rfl

/-- The source is left at the end if the link was open before the last turn, and that turn does
not take it away. -/
theorem sourceIsLeft_concat {t : Turn} (run : Run timeout (.new target) turns p)
    (running : ∀ reason, p.phase ≠ .ended reason)
    (hi : p.phase = .opening → t.input ≠ .resolved .accepted) :
    sourceIsLeft (turns ++ [t]) = (p.phase = .forwarding && !t.losesSource) := by
  cases hp : p.phase with
  | opening =>
    rw [sourceIsLeft, sinceOpen_concat_of_eq_nil (run.sinceOpen_of_opening hp) (hi hp)]
    simp
  | forwarding =>
    obtain ⟨-, -, left⟩ := run.closes_nothing running
    rw [sourceIsLeft, sinceOpen_append_of_ne_nil (run.sinceOpen_of_forwarding hp),
      List.any_append, left]
    simp
  | ended reason => exact absurd hp (running reason)

/-- However a pair ends, both its sides are closed. -/
theorem closes_of_run (run : Run timeout (.new target) turns p)
    (ended : p.phase = .ended reason) : Closes turns p reason := by
  obtain ⟨before, q, input, written, effects, rfl, sofar, move⟩ := run.exists_last ended
  have running : ∀ reason, q.phase ≠ .ended reason := fun _ ↦ move.phase_ne_ended _
  obtain ⟨viewer, source, -⟩ := sofar.closes_nothing running
  have not_opened (hq : q.phase = .opening) : input ≠ .resolved .accepted := by
    intro hi
    have := (move.phase_of_opening hq).mpr hi
    rw [ended] at this
    cases this
  refine ⟨?_, ⟨_, List.getLast?_concat, ?_⟩, ?_, ⟨_, List.getLast?_concat, ?_⟩⟩
  · cases run.coherent with
    | new => cases ended
    | forwarding => cases ended
    | gone => exact ⟨rfl, rfl⟩
  · rw [viewerCloses_append, viewer]
    exact move.viewer_told ended
  · rw [afterFarewell_append viewer]
    exact move.silent_after ended
  · rw [sourceCloses_append, source, sourceIsLeft_concat sofar running not_opened,
      List.nil_append, move.source_closed ended]
    simp

/-- The sample run, and a close frame of the viewer at its end. -/
theorem closes_of_sample_run :
    ∃ turns p, (new "ws://source").run? ⟨0⟩
        (sampleInputs ++ [(.fromViewer (.message (.close (some ⟨4001, "bye"⟩))), .ok ())])
          = some (turns, p) ∧
      Run ⟨0⟩ (.new "ws://source") turns p ∧ p.phase = .ended .viewerClosed ∧
      viewerCloses turns = [] ∧ sourceCloses turns = [some ⟨4001, "bye"⟩] ∧
      Closes turns p .viewerClosed := by
  have run := Run.of_run? (rfl : (new "ws://source").run? ⟨0⟩
    (sampleInputs ++ [(.fromViewer (.message (.close (some ⟨4001, "bye"⟩))), .ok ())])
      = some (_, _))
  exact ⟨_, _, rfl, run, rfl, rfl, rfl, closes_of_run run rfl⟩

end Pair

end Quoteboard.Relay
