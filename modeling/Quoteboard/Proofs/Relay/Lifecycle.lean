import Quoteboard.Proofs.Relay.Run

/-!
# The life of a link

Calls to a link may come in any order, and may be given up before they end; the connection may
answer them as it likes. Whatever happens, a link goes from connecting through open to closed and
never back, it holds a connection exactly while it is open, and what it tells of is what was read
from that connection, in order and up to its end.
-/

namespace Quoteboard.Relay

open Quoteboard.Market.Feed (Payload)
open Quoteboard.Transport

/-- The event that something read from a connection makes, if it makes one. -/
def Arrival.event? : Arrival → Option LinkEvent
  | .message (.data payload) => some (.data payload)
  | .message (.ping _) | .message (.pong _) => none
  | .message (.close frame) => some (.closed frame)
  | .failed cause => some (.failed (.read cause))
  | .ended => some (.failed .dropped)

/-- The frame of data that an event brings, if it brings one. -/
def LinkEvent.data? : LinkEvent → Option Payload
  | .data payload => some payload
  | .closed _ | .failed _ => none

/-- Whether nothing comes after an event. -/
def LinkEvent.endsLink : LinkEvent → Bool
  | .data _ => false
  | .closed _ | .failed _ => true

/-- How far a state is from the beginning. -/
def LinkState.stage : LinkState → Nat
  | .connecting => 0
  | .opened => 1
  | .closed => 2

/-- Nothing is farther than closed. -/
theorem LinkState.eq_closed_of_le {state : LinkState} (h : LinkState.closed.stage ≤ state.stage) :
    state = .closed := by
  cases state <;> simp_all [stage]

/-- Why an attempt that ends like this has failed, if it has. -/
def OpenOutcome.failure? (timeout : Duration) : OpenOutcome → Option TransportError
  | .accepted => none
  | .refused cause => some (.connect cause)
  | .timedOut => some (.timeout timeout)

/-- What is done to a link, and how it goes. -/
inductive LinkCall where
  /-- Open it; no outcome if the call is given up before there is one. -/
  | opens (timeout : Duration) (outcome : Option OpenOutcome)
  /-- Send a message; nothing is known of the writing if the call is given up. -/
  | sends (message : Message) (written : Option (Except String Unit))
  /-- Wait for an event; the call is given up when the connection has brought so many things without
  one. -/
  | receives (patience : Nat)
  /-- Close it. It does not matter how the closing handshake goes. -/
  | closes (frame : Option CloseFrame)

/-- What comes of a call. -/
inductive LinkAnswer where
  | result (result : Except LinkError Unit)
  | event (event : LinkEvent)
  /-- The link was closed; tells whether there was a connection to shake hands with. -/
  | closed (handshake : Bool)
  /-- The call was given up. -/
  | givenUp
  deriving DecidableEq

/-- The event that was told, if one was. -/
def LinkAnswer.event? : LinkAnswer → Option LinkEvent
  | .event told => some told
  | .result _ | .closed _ | .givenUp => none

/-- A link, and what its connection has yet to bring. -/
structure Line where
  link : SourceLink
  incoming : List Arrival
  deriving DecidableEq

/-- One call: what there was before, what came of it, and what there is after it. -/
structure LinkTurn where
  before : Line
  call : LinkCall
  answer : LinkAnswer
  after : Line

namespace Line

/-- A link that has not been opened; its connection will bring all this. -/
def new (target : String) (incoming : List Arrival) : Line := ⟨.new target, incoming⟩

/-- What becomes of a link by a call, and what comes of the call. A call that cannot be made fails
at once and cannot be given up. -/
def perform (c : Line) : LinkCall → Line × LinkAnswer
  | .opens timeout (some outcome) =>
    ({ c with link := (c.link.openWith timeout outcome).1 },
      .result (c.link.openWith timeout outcome).2)
  | .opens _ none =>
    (c, if c.link.state = .connecting then .givenUp
      else .result (.error (.invalidState c.link.state)))
  | .sends _ (some written) =>
    ({ c with link := (c.link.send written).1 }, .result (c.link.send written).2)
  | .sends _ none =>
    (c, if c.link.isOpen && c.link.hasSocket then .givenUp
      else .result (.error (.invalidState c.link.state)))
  | .receives patience =>
    let (link, event, unread) := c.link.listen (c.incoming.take patience)
    (⟨link, unread ++ c.incoming.drop patience⟩, event.elim .givenUp .event)
  | .closes _ => ({ c with link := c.link.close.1 }, .closed c.link.close.2)

/-- The turns that calls make a link take, one after another. -/
def turns (c : Line) : List LinkCall → List LinkTurn
  | [] => []
  | call :: calls =>
    ⟨c, call, (c.perform call).2, (c.perform call).1⟩ :: (c.perform call).1.turns calls

/-- What calls make of a link, one after another. -/
def after (c : Line) (calls : List LinkCall) : Line :=
  calls.foldl (fun c call ↦ (c.perform call).1) c

end Line

namespace LinkTurn

/-- Whether the link was opened. -/
def opensLink (t : LinkTurn) : Bool :=
  match t.call with
  | .opens .. => t.answer = .result (.ok ())
  | _ => false

/-- Whether a closing handshake took place. -/
def shakesHands (t : LinkTurn) : Bool := t.answer = .closed true

end LinkTurn

/-- How a link fares along calls, if its connection would bring all this. -/
structure Lifecycle (target : String) (incoming : List Arrival) (calls : List LinkCall) :
    Prop where
  /-- A connection is held exactly while the link is open. -/
  hasSocket_iff : ((Line.new target incoming).after calls).link.hasSocket = true ↔
    ((Line.new target incoming).after calls).link.state = .opened
  /-- No call takes the link back, and neither does anything between two calls. -/
  stage_le : ∀ t ∈ (Line.new target incoming).turns calls,
    t.before.link.state.stage ≤ t.after.link.state.stage
  pairwise_stage_le : ((Line.new target incoming).turns calls).Pairwise fun t u ↦
    t.after.link.state.stage ≤ u.before.link.state.stage
  /-- A link that is closed stays so. -/
  closed_of_closed : ∀ t ∈ (Line.new target incoming).turns calls,
    t.before.link.state = .closed → t.after.link.state = .closed
  countP_opensLink : ((Line.new target incoming).turns calls).countP (·.opensLink) ≤ 1
  /-- A link that is not fresh cannot be opened. -/
  opens_late : ∀ t ∈ (Line.new target incoming).turns calls, ∀ timeout outcome,
    t.call = .opens timeout outcome → t.before.link.state ≠ .connecting →
      t.answer = .result (.error (.invalidState t.before.link.state)) ∧ t.after = t.before
  /-- A link that is not open cannot be sent on. -/
  sends_unopened : ∀ t ∈ (Line.new target incoming).turns calls, ∀ message written,
    t.call = .sends message written → t.before.link.state ≠ .opened →
      t.answer = .result (.error (.invalidState t.before.link.state)) ∧ t.after = t.before
  opens_accepted : ∀ t ∈ (Line.new target incoming).turns calls, ∀ timeout,
    t.call = .opens timeout (some .accepted) → t.before.link.state = .connecting →
      t.answer = .result (.ok ()) ∧ t.after.link.state = .opened
  opens_failed : ∀ t ∈ (Line.new target incoming).turns calls, ∀ timeout outcome cause,
    t.call = .opens timeout (some outcome) → outcome.failure? timeout = some cause →
      t.before.link.state = .connecting →
        t.answer = .result (.error (.openFailed target cause)) ∧
          t.after.link = ⟨target, .closed, false⟩
  opens_givenUp : ∀ t ∈ (Line.new target incoming).turns calls, ∀ timeout,
    t.call = .opens timeout none → t.after = t.before
  sends_failed : ∀ t ∈ (Line.new target incoming).turns calls, ∀ message cause,
    t.call = .sends message (some (.error cause)) → t.before.link.state = .opened →
      t.answer = .result (.error (.sendFailed (.write cause))) ∧
        t.after.link = ⟨target, .closed, false⟩
  /-- A link that is closed shakes hands if it was open. -/
  closes : ∀ t ∈ (Line.new target incoming).turns calls, ∀ frame,
    t.call = .closes frame → t.answer = .closed (t.before.link.state = .opened) ∧
      t.after.link = ⟨target, .closed, false⟩
  /-- Only an open link tells of events, and the event of an end closes it. -/
  event_opened : ∀ t ∈ (Line.new target incoming).turns calls, ∀ event,
    t.answer = .event event → t.before.link.state = .opened ∧
      (event.endsLink = true → t.after.link = ⟨target, .closed, false⟩)
  /-- Nothing is told of after an end. -/
  event_last : ((Line.new target incoming).turns calls).Pairwise fun t u ↦
    ∀ event, t.answer = .event event → event.endsLink = true → u.answer.event? = none
  /-- An open link that is waited on tells of the first event that the connection brings. -/
  receives_first : ∀ t ∈ (Line.new target incoming).turns calls, ∀ patience,
    t.call = .receives patience → t.before.link.state = .opened →
      t.answer.event? = (t.before.incoming.take patience).findSome? Arrival.event?
  /-- The data told of is the data that was read, in order. -/
  data_eq : ∃ read, incoming = read ++ ((Line.new target incoming).after calls).incoming ∧
    ((Line.new target incoming).turns calls).filterMap (·.answer.event?.bind LinkEvent.data?) =
      read.filterMap Arrival.data?
  countP_shakesHands : ((Line.new target incoming).turns calls).countP (·.shakesHands) ≤ 1

namespace Line

/-- A link in a state; it holds a connection exactly if it is open. -/
def inState (target : String) (state : LinkState) (incoming : List Arrival) : Line :=
  ⟨⟨target, state, state = .opened⟩, incoming⟩

/-- What a call makes of a link, rule by rule. -/
inductive Move (target : String) : Line → LinkCall → LinkAnswer → Line → Prop where
  /-- The link opens. -/
  | accepted {incoming timeout} :
      Move target (inState target .connecting incoming) (.opens timeout (some .accepted))
        (.result (.ok ())) (inState target .opened incoming)
  /-- The link cannot be opened. -/
  | refused {incoming timeout outcome cause}
      (failed : OpenOutcome.failure? timeout outcome = some cause) :
      Move target (inState target .connecting incoming) (.opens timeout (some outcome))
        (.result (.error (.openFailed target cause))) (inState target .closed incoming)
  /-- The call to open the link is given up. -/
  | openingGivenUp {incoming timeout} :
      Move target (inState target .connecting incoming) (.opens timeout none) .givenUp
        (inState target .connecting incoming)
  /-- The link has been opened before, or closed. -/
  | reopened {state incoming timeout outcome} (late : state ≠ .connecting) :
      Move target (inState target state incoming) (.opens timeout outcome)
        (.result (.error (.invalidState state))) (inState target state incoming)
  /-- A message is written. -/
  | written {incoming message} :
      Move target (inState target .opened incoming) (.sends message (some (.ok ())))
        (.result (.ok ())) (inState target .opened incoming)
  /-- A message cannot be written. -/
  | unwritten {incoming message cause} :
      Move target (inState target .opened incoming) (.sends message (some (.error cause)))
        (.result (.error (.sendFailed (.write cause)))) (inState target .closed incoming)
  /-- The call to send a message is given up. -/
  | sendingGivenUp {incoming message} :
      Move target (inState target .opened incoming) (.sends message none) .givenUp
        (inState target .opened incoming)
  /-- There is no connection to send a message on. -/
  | unsent {state incoming message written} (unopened : state ≠ .opened) :
      Move target (inState target state incoming) (.sends message written)
        (.result (.error (.invalidState state))) (inState target state incoming)
  /-- The connection brings nothing to tell of, until the call is given up. -/
  | silence {patience incoming} (silent : ∀ a ∈ incoming.take patience, Arrival.event? a = none) :
      Move target (inState target .opened incoming) (.receives patience) .givenUp
        (inState target .opened (incoming.drop patience))
  /-- The connection brings data. -/
  | data {patience read arrival rest event} (early : read.length < patience)
      (silent : ∀ a ∈ read, Arrival.event? a = none)
      (told : Arrival.event? arrival = some event) (more : event.endsLink = false) :
      Move target (inState target .opened (read ++ arrival :: rest)) (.receives patience)
        (.event event) (inState target .opened rest)
  /-- The connection comes to its end. -/
  | ending {patience read arrival rest event} (early : read.length < patience)
      (silent : ∀ a ∈ read, Arrival.event? a = none)
      (told : Arrival.event? arrival = some event) (last : event.endsLink = true) :
      Move target (inState target .opened (read ++ arrival :: rest)) (.receives patience)
        (.event event) (inState target .closed rest)
  /-- There is no connection to wait for. -/
  | deaf {state incoming patience} (unopened : state ≠ .opened) :
      Move target (inState target state incoming) (.receives patience) .givenUp
        (inState target state incoming)
  /-- The link is closed. -/
  | closed {state incoming frame} :
      Move target (inState target state incoming) (.closes frame) (.closed (state = .opened))
        (inState target .closed incoming)

end Line

variable {target : String} {state : LinkState} {incoming : List Arrival} {call : LinkCall}
  {answer : LinkAnswer} {calls : List LinkCall} {c c' : Line} {t u : LinkTurn}

/-! ### One call -/

/-- What an open link makes of something read. -/
theorem receive_opened (target : String) (arrival : Arrival) :
    (⟨target, .opened, true⟩ : SourceLink).receive arrival =
      (match arrival.event? with
      | none => ⟨target, .opened, true⟩
      | some event =>
        if event.endsLink then ⟨target, .closed, false⟩ else ⟨target, .opened, true⟩,
        arrival.event?) := by
  match arrival with
  | .message (.data _) | .message (.ping _) | .message (.pong _) => rfl
  | .message (.close _) | .failed _ | .ended => rfl

/-- An open link reads on until something makes an event. -/
theorem listen_opened (target : String) (arrivals : List Arrival) :
    ((∀ a ∈ arrivals, a.event? = none) ∧
      (⟨target, .opened, true⟩ : SourceLink).listen arrivals =
        (⟨target, .opened, true⟩, none, [])) ∨
    ∃ read arrival rest event, arrivals = read ++ arrival :: rest ∧
      (∀ a ∈ read, a.event? = none) ∧ arrival.event? = some event ∧
      (⟨target, .opened, true⟩ : SourceLink).listen arrivals =
        (if event.endsLink then ⟨target, .closed, false⟩ else ⟨target, .opened, true⟩,
          some event, rest) := by
  induction arrivals with
  | nil => exact .inl ⟨by simp, rfl⟩
  | cons arrival rest ih =>
    have here : (SourceLink.isOpen ⟨target, .opened, true⟩ && true) = true := rfl
    rw [SourceLink.listen, if_pos here, receive_opened]
    cases told : arrival.event? with
    | some event => exact .inr ⟨[], arrival, rest, event, rfl, by simp, told, rfl⟩
    | none =>
      rcases ih with ⟨silent, heard⟩ | ⟨read, last, rest, event, rfl, silent, tells, heard⟩
      · exact .inl ⟨by simpa [told] using silent, heard⟩
      · exact .inr ⟨arrival :: read, last, rest, event, rfl, by simpa [told] using silent, tells,
          heard⟩

/-- A link that is not open reads nothing. -/
theorem listen_of_ne {l : SourceLink} (h : l.state ≠ .opened) (arrivals : List Arrival) :
    l.listen arrivals = (l, none, arrivals) := by
  cases arrivals with
  | nil => rfl
  | cons arrival rest => simp [SourceLink.listen, SourceLink.isOpen, h]

namespace Line

@[simp] theorem state_inState : (inState target state incoming).link.state = state := rfl

@[simp] theorem incoming_inState : (inState target state incoming).incoming = incoming := rfl

private theorem move_opens (target : String) (state : LinkState) (incoming : List Arrival)
    (timeout : Duration) (outcome : Option OpenOutcome) :
    Move target (inState target state incoming) (.opens timeout outcome)
      ((inState target state incoming).perform (.opens timeout outcome)).2
      ((inState target state incoming).perform (.opens timeout outcome)).1 := by
  by_cases fresh : state = .connecting
  · subst fresh
    match outcome with
    | none => exact .openingGivenUp
    | some .accepted => exact .accepted
    | some (.refused _) => exact .refused rfl
    | some .timedOut => exact .refused rfl
  · have refused : (inState target state incoming).perform (.opens timeout outcome) =
        (inState target state incoming, .result (.error (.invalidState state))) := by
      cases outcome with
      | none => simp [perform, fresh]
      | some outcome =>
        have late : (inState target state incoming).link.state ≠ .connecting := fresh
        rw [perform, SourceLink.openWith_of_ne late]
        rfl
    rw [refused]
    exact .reopened fresh

private theorem move_sends (target : String) (state : LinkState) (incoming : List Arrival)
    (message : Message) (written : Option (Except String Unit)) :
    Move target (inState target state incoming) (.sends message written)
      ((inState target state incoming).perform (.sends message written)).2
      ((inState target state incoming).perform (.sends message written)).1 := by
  by_cases opened : state = .opened
  · subst opened
    match written with
    | none => exact .sendingGivenUp
    | some (.ok ()) => exact .written
    | some (.error _) => exact .unwritten
  · have refused : (inState target state incoming).perform (.sends message written) =
        (inState target state incoming, .result (.error (.invalidState state))) := by
      cases written with
      | none => simp [perform, SourceLink.isOpen, opened]
      | some written =>
        simp only [perform, SourceLink.send, SourceLink.isOpen, state_inState, opened]
        rfl
    rw [refused]
    exact .unsent opened

private theorem move_receives (target : String) (state : LinkState) (incoming : List Arrival)
    (patience : Nat) : Move target (inState target state incoming) (.receives patience)
      ((inState target state incoming).perform (.receives patience)).2
      ((inState target state incoming).perform (.receives patience)).1 := by
  by_cases opened : state = .opened
  · subst opened
    have link : (inState target .opened incoming).link = ⟨target, .opened, true⟩ := rfl
    rcases listen_opened target (incoming.take patience) with
      ⟨silent, heard⟩ | ⟨read, arrival, rest, event, split, silent, told, heard⟩
    · rw [perform, link, incoming_inState, heard]
      exact .silence silent
    · rw [perform, link, incoming_inState, heard]
      have early : read.length < patience := by
        have size := congrArg List.length split
        rw [List.length_take, List.length_append, List.length_cons] at size
        omega
      have parts := List.take_append_drop patience incoming
      rw [split, List.append_assoc, List.cons_append] at parts
      conv => arg 2; rw [← parts]
      cases last : event.endsLink with
      | false => exact .data early silent told last
      | true => exact .ending early silent told last
  · have deaf : (inState target state incoming).perform (.receives patience) =
        (inState target state incoming, .givenUp) := by
      rw [perform, listen_of_ne opened]
      simp [inState]
    rw [deaf]
    exact .deaf opened

/-- Every call goes by one of the rules. -/
theorem move_perform (target : String) (state : LinkState) (incoming : List Arrival)
    (call : LinkCall) : Move target (inState target state incoming) call
      ((inState target state incoming).perform call).2
      ((inState target state incoming).perform call).1 := by
  cases call with
  | opens timeout outcome => exact move_opens target state incoming timeout outcome
  | sends message written => exact move_sends target state incoming message written
  | receives patience => exact move_receives target state incoming patience
  | closes frame => exact .closed

/-! ### What a call can do -/

namespace Move

/-- A call leaves a link in a state. -/
theorem exists_inState (move : Move target c call answer c') :
    ∃ state incoming, c' = inState target state incoming := by
  cases move <;> exact ⟨_, _, rfl⟩

/-- No call takes a link back. -/
theorem stage_le (move : Move target c call answer c') :
    c.link.state.stage ≤ c'.link.state.stage := by
  cases move with
  | @closed state =>
    rw [state_inState, state_inState]
    cases state <;> decide
  | _ => simp [LinkState.stage]

/-- What a call tells of is what it has read. -/
theorem exists_read (move : Move target c call answer c') :
    ∃ read, c.incoming = read ++ c'.incoming ∧
      answer.event?.toList = read.filterMap Arrival.event? := by
  cases move with
  | silence silent =>
    refine ⟨_, (List.take_append_drop _ _).symm, ?_⟩
    exact (List.filterMap_eq_nil_iff.mpr silent).symm
  | @data _ read arrival rest event _ silent told _
  | @ending _ read arrival rest event _ silent told _ =>
    refine ⟨read ++ [arrival], by simp, ?_⟩
    rw [List.filterMap_append, List.filterMap_eq_nil_iff.mpr silent, List.nil_append]
    simp [LinkAnswer.event?, told]
  | _ => exact ⟨[], rfl, rfl⟩

end Move

/-! ### One call after another -/

variable {target : String}

theorem after_cons (c : Line) (call : LinkCall) (calls : List LinkCall) :
    c.after (call :: calls) = (c.perform call).1.after calls := rfl

/-- Every turn goes by one of the rules. -/
theorem move_of_mem (h : t ∈ (inState target state incoming).turns calls) :
    Move target t.before t.call t.answer t.after := by
  induction calls generalizing state incoming with
  | nil => cases h
  | cons call calls ih =>
    have move := move_perform target state incoming call
    obtain ⟨state', incoming', e⟩ := move.exists_inState
    rw [turns, List.mem_cons] at h
    rcases h with rfl | h
    · exact move
    · rw [e] at h
      exact ih h

/-- No turn is at an earlier state than the first. -/
theorem stage_le_of_mem (h : t ∈ (inState target state incoming).turns calls) :
    state.stage ≤ t.before.link.state.stage := by
  induction calls generalizing state incoming with
  | nil => cases h
  | cons call calls ih =>
    have move := move_perform target state incoming call
    have forward := move.stage_le
    obtain ⟨state', incoming', e⟩ := move.exists_inState
    rw [turns, List.mem_cons] at h
    rw [e] at h forward
    rcases h with rfl | h
    · exact Nat.le_refl _
    · exact Nat.le_trans forward (ih h)

/-- From turn to turn a link never goes back. -/
theorem pairwise_stage_le (target : String) (state : LinkState) (incoming : List Arrival)
    (calls : List LinkCall) : ((inState target state incoming).turns calls).Pairwise fun t u ↦
      t.after.link.state.stage ≤ u.before.link.state.stage := by
  induction calls generalizing state incoming with
  | nil => exact .nil
  | cons call calls ih =>
    obtain ⟨state', incoming', e⟩ := (move_perform target state incoming call).exists_inState
    rw [turns, e]
    exact List.pairwise_cons.mpr ⟨fun u hu ↦ stage_le_of_mem hu, ih state' incoming'⟩

/-- Calls leave a link in a state. -/
theorem exists_after (target : String) (state : LinkState) (incoming : List Arrival)
    (calls : List LinkCall) : ∃ state' incoming',
      (inState target state incoming).after calls = inState target state' incoming' := by
  induction calls generalizing state incoming with
  | nil => exact ⟨state, incoming, rfl⟩
  | cons call calls ih =>
    obtain ⟨state', incoming', e⟩ := (move_perform target state incoming call).exists_inState
    rw [after_cons, e]
    exact ih state' incoming'

/-- What calls tell of is what they have read, in order. -/
theorem exists_read (target : String) (state : LinkState) (incoming : List Arrival)
    (calls : List LinkCall) :
    ∃ read, incoming = read ++ ((inState target state incoming).after calls).incoming ∧
      ((inState target state incoming).turns calls).filterMap (·.answer.event?) =
        read.filterMap Arrival.event? := by
  induction calls generalizing state incoming with
  | nil => exact ⟨[], rfl, rfl⟩
  | cons call calls ih =>
    have move := move_perform target state incoming call
    obtain ⟨first, here, told⟩ := move.exists_read
    obtain ⟨state', incoming', e⟩ := move.exists_inState
    obtain ⟨rest, there, tells⟩ := ih state' incoming'
    rw [e] at here
    refine ⟨first ++ rest, ?_, ?_⟩
    · rw [after_cons, e, List.append_assoc, ← there]
      exact here
    · rw [turns, e, List.filterMap_append, ← tells, ← told, List.filterMap_cons]
      cases (inState target state incoming).perform call |>.2.event? <;> rfl

end Line

/-! ### All calls -/

/-- Data is what the data among things read makes an event of. -/
theorem Arrival.data?_eq (a : Arrival) : a.data? = a.event?.bind LinkEvent.data? := by
  match a with
  | .message (.data _) | .message (.ping _) | .message (.pong _) => rfl
  | .message (.close _) | .failed _ | .ended => rfl

/-- Of a list of which no two members have a property, at most one has it. -/
theorem countP_le_one {α : Type} {p : α → Bool} {l : List α}
    (h : l.Pairwise fun a b ↦ p a = true → p b = false) : l.countP p ≤ 1 := by
  induction l with
  | nil => simp
  | cons a l ih =>
    obtain ⟨alone, rest⟩ := List.pairwise_cons.mp h
    rw [List.countP_cons]
    split
    · next has =>
      have none_left : l.countP p = 0 := by
        rw [List.countP_eq_zero]
        intro b hb
        simp [alone b hb has]
      omega
    · exact ih rest

namespace Line.Move

/-- A link is opened from the beginning. -/
theorem of_opensLink (move : Move target t.before t.call t.answer t.after)
    (opens : t.opensLink = true) :
    t.before.link.state = .connecting ∧ t.after.link.state = .opened := by
  obtain ⟨before, call, answer, after⟩ := t
  cases move <;> simp_all [LinkTurn.opensLink]

/-- A handshake closes a link that was open. -/
theorem of_shakesHands (move : Move target t.before t.call t.answer t.after)
    (shakes : t.shakesHands = true) :
    t.before.link.state = .opened ∧ t.after.link.state = .closed := by
  obtain ⟨before, call, answer, after⟩ := t
  cases move <;> simp_all [LinkTurn.shakesHands]

/-- An event is told of by an open link, and closes it if it is the end. -/
theorem of_event {event : LinkEvent} (move : Move target c call (.event event) c') :
    c.link.state = .opened ∧ (event.endsLink = true → c'.link = ⟨target, .closed, false⟩) := by
  cases move with
  | data _ _ _ more => exact ⟨rfl, fun last ↦ nomatch more.symm.trans last⟩
  | ending => exact ⟨rfl, fun _ ↦ rfl⟩

/-- The first event among things read is the one before which there is none. -/
private theorem findSome?_take {patience : Nat} {read rest : List Arrival} {arrival : Arrival}
    {event : LinkEvent} (early : read.length < patience)
    (silent : ∀ a ∈ read, a.event? = none) (told : arrival.event? = some event) :
    ((read ++ arrival :: rest).take patience).findSome? Arrival.event? = some event := by
  obtain ⟨more, rfl⟩ := Nat.exists_eq_add_of_lt early
  have reached : read.length + more + 1 = read.length + (more + 1) := by omega
  rw [reached, List.take_length_add_append, List.take_succ_cons, List.findSome?_append,
    List.findSome?_eq_none_iff.mpr silent, List.findSome?_cons, told]
  rfl

/-- An open link that is waited on tells of the first event that it reads. -/
theorem event_of_receives (move : Move target c call answer c') {patience : Nat}
    (called : call = .receives patience) (opened : c.link.state = .opened) :
    answer.event? = (c.incoming.take patience).findSome? Arrival.event? := by
  subst called
  cases move with
  | silence silent => exact (List.findSome?_eq_none_iff.mpr silent).symm
  | data early silent told _ | ending early silent told _ =>
    exact (findSome?_take early silent told).symm
  | deaf unopened => exact absurd opened unopened

/-- A link that is not fresh cannot be opened. -/
theorem of_opens_late (move : Move target c call answer c') {timeout : Duration}
    {outcome : Option OpenOutcome} (called : call = .opens timeout outcome)
    (late : c.link.state ≠ .connecting) :
    answer = .result (.error (.invalidState c.link.state)) ∧ c' = c := by
  subst called
  cases move with
  | reopened => exact ⟨rfl, rfl⟩
  | _ => exact absurd rfl late

/-- A fresh link is opened if the attempt is accepted. -/
theorem of_opens_accepted (move : Move target c call answer c') {timeout : Duration}
    (called : call = .opens timeout (some .accepted)) (fresh : c.link.state = .connecting) :
    answer = .result (.ok ()) ∧ c'.link.state = .opened := by
  subst called
  cases move with
  | accepted => exact ⟨rfl, rfl⟩
  | refused failed => cases failed
  | reopened late => exact absurd fresh late

/-- A fresh link is closed if the attempt to open it fails. -/
theorem of_opens_failed (move : Move target c call answer c') {timeout : Duration}
    {outcome : OpenOutcome} {cause : TransportError}
    (called : call = .opens timeout (some outcome)) (failed : outcome.failure? timeout = some cause)
    (fresh : c.link.state = .connecting) :
    answer = .result (.error (.openFailed target cause)) ∧
      c'.link = ⟨target, .closed, false⟩ := by
  subst called
  cases move with
  | accepted => cases failed
  | refused failed' =>
    obtain rfl := Option.some.inj (failed'.symm.trans failed)
    exact ⟨rfl, rfl⟩
  | reopened late => exact absurd fresh late

/-- Giving up an attempt to open a link changes nothing. -/
theorem of_opens_givenUp (move : Move target c call answer c') {timeout : Duration}
    (called : call = .opens timeout none) : c' = c := by
  subst called
  cases move <;> rfl

/-- A link that is not open cannot be sent on. -/
theorem of_sends_unopened (move : Move target c call answer c') {message : Message}
    {written : Option (Except String Unit)} (called : call = .sends message written)
    (unopened : c.link.state ≠ .opened) :
    answer = .result (.error (.invalidState c.link.state)) ∧ c' = c := by
  subst called
  cases move with
  | unsent => exact ⟨rfl, rfl⟩
  | _ => exact absurd rfl unopened

/-- An open link is closed if a message cannot be written. -/
theorem of_sends_failed (move : Move target c call answer c') {message : Message} {cause : String}
    (called : call = .sends message (some (.error cause))) (opened : c.link.state = .opened) :
    answer = .result (.error (.sendFailed (.write cause))) ∧
      c'.link = ⟨target, .closed, false⟩ := by
  subst called
  cases move with
  | unwritten => exact ⟨rfl, rfl⟩
  | unsent unopened => exact absurd opened unopened

/-- A link that is closed shakes hands if it was open, and holds no connection afterwards. -/
theorem of_closes (move : Move target c call answer c') {frame : Option CloseFrame}
    (called : call = .closes frame) :
    answer = .closed (c.link.state = .opened) ∧ c'.link = ⟨target, .closed, false⟩ := by
  subst called
  cases move
  exact ⟨rfl, rfl⟩

end Line.Move

namespace Line

/-- Every turn of a new link goes by one of the rules. -/
theorem move_of_turn (h : t ∈ (Line.new target incoming).turns calls) :
    Move target t.before t.call t.answer t.after := move_of_mem h

/-- What two turns of a new link can be, one before the other: the later begins no earlier than the
first ends. -/
theorem pairwise_turns {r : LinkTurn → LinkTurn → Prop}
    (related : ∀ t u : LinkTurn, Move target t.before t.call t.answer t.after →
      Move target u.before u.call u.answer u.after →
        t.after.link.state.stage ≤ u.before.link.state.stage → r t u) :
    ((Line.new target incoming).turns calls).Pairwise r := by
  have forward : ((Line.new target incoming).turns calls).Pairwise fun t u ↦
      t.after.link.state.stage ≤ u.before.link.state.stage :=
    pairwise_stage_le target .connecting incoming calls
  exact forward.imp_of_mem fun ht hu ↦ related _ _ (move_of_turn ht) (move_of_turn hu)

/-- A link is opened once. -/
theorem countP_opensLink_le_one (target : String) (incoming : List Arrival)
    (calls : List LinkCall) :
    ((Line.new target incoming).turns calls).countP (·.opensLink) ≤ 1 := by
  refine countP_le_one (pairwise_turns fun t u first later forward opens ↦ ?_)
  obtain ⟨-, opened⟩ := first.of_opensLink opens
  refine Bool.eq_false_iff.mpr fun again ↦ ?_
  obtain ⟨fresh, -⟩ := later.of_opensLink again
  rw [opened, fresh] at forward
  exact absurd forward (by decide)

/-- There is one closing handshake. -/
theorem countP_shakesHands_le_one (target : String) (incoming : List Arrival)
    (calls : List LinkCall) :
    ((Line.new target incoming).turns calls).countP (·.shakesHands) ≤ 1 := by
  refine countP_le_one (pairwise_turns fun t u first later forward shakes ↦ ?_)
  obtain ⟨-, closed⟩ := first.of_shakesHands shakes
  refine Bool.eq_false_iff.mpr fun again ↦ ?_
  obtain ⟨opened, -⟩ := later.of_shakesHands again
  rw [closed, opened] at forward
  exact absurd forward (by decide)

/-- After the event of an end a link tells of none. -/
theorem event?_eq_none_of_endsLink {event : LinkEvent}
    (first : Move target t.before t.call t.answer t.after)
    (later : Move target u.before u.call u.answer u.after)
    (forward : t.after.link.state.stage ≤ u.before.link.state.stage)
    (told : t.answer = .event event) (last : event.endsLink = true) : u.answer.event? = none := by
  rw [told] at first
  rw [first.of_event.2 last] at forward
  have closed := LinkState.eq_closed_of_le forward
  cases answered : u.answer with
  | event another =>
    rw [answered] at later
    exact nomatch closed.symm.trans later.of_event.1
  | _ => rfl

end Line

/-- However a link is used, and whatever its connection brings, it lives its life once. -/
theorem lifecycle (target : String) (incoming : List Arrival) (calls : List LinkCall) :
    Lifecycle target incoming calls where
  hasSocket_iff := by
    obtain ⟨state, rest, e⟩ := Line.exists_after target .connecting incoming calls
    rw [show Line.new target incoming = Line.inState target .connecting incoming from rfl, e]
    simp [Line.inState]
  stage_le t ht := (Line.move_of_turn ht).stage_le
  pairwise_stage_le := Line.pairwise_turns fun _ _ _ _ forward ↦ forward
  closed_of_closed t ht closed := by
    have forward := (Line.move_of_turn ht).stage_le
    rw [closed] at forward
    exact LinkState.eq_closed_of_le forward
  countP_opensLink := Line.countP_opensLink_le_one target incoming calls
  opens_late t ht _ _ := (Line.move_of_turn ht).of_opens_late
  sends_unopened t ht _ _ := (Line.move_of_turn ht).of_sends_unopened
  opens_accepted t ht _ := (Line.move_of_turn ht).of_opens_accepted
  opens_failed t ht _ _ _ := (Line.move_of_turn ht).of_opens_failed
  opens_givenUp t ht _ := (Line.move_of_turn ht).of_opens_givenUp
  sends_failed t ht _ _ := (Line.move_of_turn ht).of_sends_failed
  closes t ht _ := (Line.move_of_turn ht).of_closes
  event_opened t ht event told := by
    have move := Line.move_of_turn ht
    rw [told] at move
    exact move.of_event
  event_last := Line.pairwise_turns fun _ _ first later forward _ ↦
    Line.event?_eq_none_of_endsLink first later forward
  receives_first t ht _ := (Line.move_of_turn ht).event_of_receives
  data_eq := by
    obtain ⟨read, split, told⟩ := Line.exists_read target .connecting incoming calls
    have data := congrArg (List.filterMap LinkEvent.data?) told
    rw [List.filterMap_filterMap, List.filterMap_filterMap] at data
    simp only [← Arrival.data?_eq] at data
    exact ⟨read, split, data⟩
  countP_shakesHands := Line.countP_shakesHands_le_one target incoming calls

end Quoteboard.Relay
