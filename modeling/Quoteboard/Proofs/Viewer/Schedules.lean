import Mathlib.Data.List.Induction
import Quoteboard.Proofs.Viewer.Rendering
import Quoteboard.Viewer.Run

/-!
# What a viewer sees before it ends

A viewer looks for an event first and for a status next, and the others may act at any time, also
between the two. It handles every event that was sent before the way for them was closed, in order.
Of the statuses it hands on the ones that it looks at: a status that is published after its last
look, and before it finds the events closed, is never handed on.
-/

namespace Quoteboard.Viewer

open Quoteboard.Client Quoteboard.Connection

/-! ### Schedules -/

/-- What is done to a running viewer, or by it. -/
inductive Act where
  | send (event : ClientEvent)
  | publish (status : Status)
  | closeEvents
  | closeStatus
  /-- The viewer looks for an event, or for a status if it has just found no event. -/
  | advance
  deriving DecidableEq

/-- A running viewer between two looks. -/
structure Polling where
  run : Run
  /-- Whether it has found no event, and looks for a status next. -/
  isPast : Bool

/-- A turn that was taken, and what was given out. -/
structure Taken where
  turn : Turn
  outputs : List Output

namespace Polling

/-- A viewer about to run. -/
def new (viewer : Consumer) (initial : Status) : Polling := ⟨.new viewer initial, false⟩

/-- Take a turn. -/
def take (p : Polling) (turn : Turn) : Polling × List Taken :=
  (⟨(p.run.take turn).1, false⟩, [⟨turn, (p.run.take turn).2⟩])

/-- Look for an event or, if none was found, for a status. -/
def advance (p : Polling) : Polling × List Taken :=
  if p.isPast then
    if p.run.isUnseen then p.take (.status p.run.status) else ({ p with isPast := false }, [])
  else
    match p.run.turn with
    | .status _ | .wait => ({ p with isPast := !p.run.hasEnded }, [])
    | turn => p.take turn

/-- What an act comes to. -/
def act (p : Polling) : Act → Polling × List Taken
  | .send event => ({ p with run := (p.run.send event).1 }, [])
  | .publish status => ({ p with run := (p.run.publish status).1 }, [])
  | .closeEvents => ({ p with run := p.run.closeEvents }, [])
  | .closeStatus => ({ p with run := p.run.closeStatus }, [])
  | .advance => p.advance

/-- What acts come to, one after another, and the turns that are taken. -/
def acts (p : Polling) : List Act → Polling × List Taken
  | [] => (p, [])
  | a :: as =>
    let (next, taken) := p.act a
    let (last, more) := next.acts as
    (last, taken ++ more)

/-- Whether the viewer looks at the status when it goes on. -/
def looks (p : Polling) : Bool := p.isPast || (!p.run.hasBegun && !p.run.hasEnded)

/-- Whether the viewer looks at the status during acts. -/
def looksDuring (p : Polling) : List Act → Bool
  | [] => false
  | a :: as => (a = .advance && p.looks) || (p.act a).1.looksDuring as

end Polling

/-! ### What others have done -/

/-- The event that is sent, if one is. -/
def sent? : Act → Option ClientEvent
  | .send event => some event
  | _ => none

/-- The status that is published, if one is. -/
def published? : Act → Option Status
  | .publish status => some status
  | _ => none

/-- What is done before the way for events is closed. -/
def beforeClose (as : List Act) : List Act := as.takeWhile (· ≠ .closeEvents)

/-- The events that are sent before the way for them is closed. -/
def sent (as : List Act) : List ClientEvent := (beforeClose as).filterMap sent?

/-- The status that is published last, before the way for them is closed. -/
def latest (initial : Status) (as : List Act) : Status :=
  ((as.takeWhile (· ≠ .closeStatus)).filterMap published?).getLast?.getD initial

/-- The events that are handled, in order. -/
def handled (taken : List Taken) : List ClientEvent :=
  taken.filterMap fun t ↦
    match t.turn with
    | .event event => some event
    | _ => none

/-- The statuses that are handed on, in order. -/
def handed (taken : List Taken) : List Status :=
  (taken.flatMap (·.outputs)).filterMap fun
    | .status status => some status
    | _ => none

/-- The events that were sent are handled, and the status handed on last is the one published last,
both before the way for events was closed. -/
structure Delivers (initial : Status) (as : List Act) (taken : List Taken) : Prop where
  handled_eq : handled taken = sent as
  status_eq : (handed taken).getLast? = some (latest initial (beforeClose as))

/-! ### One act -/

section

variable {initial : Status} {as : List Act} {a : Act}

private theorem filterMap_before_concat {β : Type} {close : Act} {f : Act → Option β}
    (none_of_close : f close = none) (as : List Act) (a : Act) :
    ((as ++ [a]).takeWhile (· ≠ close)).filterMap f =
      if close ∈ as then (as.takeWhile (· ≠ close)).filterMap f
      else (as.takeWhile (· ≠ close)).filterMap f ++ (f a).toList := by
  induction as with
  | nil =>
    by_cases closes : a = close
    · simp [closes, none_of_close]
    · cases h : f a <;> simp [closes, h]
  | cons b as ih =>
    by_cases closes : b = close
    · simp [closes]
    · have differs : close ≠ b := Ne.symm closes
      have inside : close ∈ b :: as ↔ close ∈ as := by simp [differs]
      rw [List.cons_append, List.takeWhile_cons_of_pos (by simpa using closes),
        List.takeWhile_cons_of_pos (by simpa using closes)]
      simp only [List.filterMap_cons, inside, ih]
      split <;> split <;> simp

/-- What is sent counts until the way for events is closed. -/
theorem sent_concat (as : List Act) (a : Act) :
    sent (as ++ [a]) = if .closeEvents ∈ as then sent as else sent as ++ (sent? a).toList :=
  filterMap_before_concat rfl as a

/-- What is published counts until the way for statuses is closed. -/
theorem latest_concat (initial : Status) (as : List Act) (a : Act) :
    latest initial (as ++ [a]) = if .closeStatus ∈ as then latest initial as
      else (published? a).getD (latest initial as) := by
  rw [latest, filterMap_before_concat rfl, latest]
  split
  · rfl
  · cases published? a <;> simp

end

namespace Polling

variable {p : Polling}

/-- What becomes of a viewer that goes on. -/
inductive Advances (p : Polling) : Polling × List Taken → Prop
  | begin (going : p.run.hasEnded = false) (first : p.run.hasBegun = false)
      (here : p.isPast = false) : Advances p (p.take .begin)
  | event {event : ClientEvent} {rest : List ClientEvent} (going : p.run.hasEnded = false)
      (begun : p.run.hasBegun = true) (here : p.isPast = false)
      (waits : p.run.events = event :: rest) : Advances p (p.take (.event event))
  | finish (going : p.run.hasEnded = false) (begun : p.run.hasBegun = true)
      (here : p.isPast = false) (none_left : p.run.events = [])
      (closed : p.run.eventsOpen = false) :
      Advances p (p.take .endOfEvents)
  | pass (going : p.run.hasEnded = false) (begun : p.run.hasBegun = true) (here : p.isPast = false)
      (none_left : p.run.events = []) (is_open : p.run.eventsOpen = true) :
      Advances p ({ p with isPast := true }, [])
  | look (past : p.isPast = true) (unseen : p.run.isUnseen = true) :
      Advances p (p.take (.status p.run.status))
  | lookAgain (past : p.isPast = true) (seen : p.run.isUnseen = false) :
      Advances p ({ p with isPast := false }, [])
  | idle (ended : p.run.hasEnded = true) (here : p.isPast = false) :
      Advances p ({ p with isPast := false }, [])

/-- A viewer that is not cancelled goes on in one of these ways. -/
theorem advance_cases (going : p.run.isCancelled = false) : Advances p p.advance := by
  unfold advance
  cases past : p.isPast with
  | true =>
    rw [if_pos rfl]
    cases unseen : p.run.isUnseen with
    | true => exact .look past unseen
    | false => exact .lookAgain past unseen
  | false =>
    rw [if_neg Bool.false_ne_true]
    cases ended : p.run.hasEnded with
    | true =>
      have turn : p.run.turn = .wait := by simp [Run.turn, ended]
      rw [turn]
      exact .idle ended past
    | false =>
      cases begun : p.run.hasBegun with
      | false =>
        have turn : p.run.turn = .begin := by simp [Run.turn, ended, begun]
        rw [turn]
        exact .begin ended begun past
      | true =>
        cases waits : p.run.events with
        | cons event rest =>
          have turn : p.run.turn = .event event := by simp [Run.turn, ended, begun, going, waits]
          rw [turn]
          exact .event ended begun past waits
        | nil =>
          cases is_open : p.run.eventsOpen with
          | false =>
            have turn : p.run.turn = .endOfEvents := by
              simp [Run.turn, ended, begun, going, waits, is_open]
            rw [turn]
            exact .finish ended begun past waits is_open
          | true =>
            have turn : p.run.turn = .status p.run.status ∨ p.run.turn = .wait := by
              cases h : p.run.isUnseen <;>
                simp [Run.turn, ended, begun, going, waits, is_open, h]
            rcases turn with turn | turn <;> rw [turn] <;>
              exact .pass ended begun past waits is_open

@[simp] theorem act_send (p : Polling) (event : ClientEvent) :
    p.act (.send event) = ({ p with run := (p.run.send event).1 }, []) := rfl

@[simp] theorem act_publish (p : Polling) (status : Status) :
    p.act (.publish status) = ({ p with run := (p.run.publish status).1 }, []) := rfl

@[simp] theorem act_closeEvents (p : Polling) :
    p.act .closeEvents = ({ p with run := p.run.closeEvents }, []) := rfl

@[simp] theorem act_closeStatus (p : Polling) :
    p.act .closeStatus = ({ p with run := p.run.closeStatus }, []) := rfl

/-- Acts one after another. -/
theorem acts_append (p : Polling) (as bs : List Act) : p.acts (as ++ bs) =
    (((p.acts as).1.acts bs).1, (p.acts as).2 ++ ((p.acts as).1.acts bs).2) := by
  induction as generalizing p with
  | nil => rfl
  | cons a as ih => simp only [List.cons_append, acts, ih, List.append_assoc]

theorem acts_concat (p : Polling) (as : List Act) (a : Act) : p.acts (as ++ [a]) =
    (((p.acts as).1.act a).1, (p.acts as).2 ++ ((p.acts as).1.act a).2) := by
  rw [acts_append]
  simp only [acts, List.append_nil]

/-- Looks are during one part or the other. -/
theorem looksDuring_concat (p : Polling) (as : List Act) (a : Act) :
    p.looksDuring (as ++ [a]) =
      (p.looksDuring as || (a = .advance && (p.acts as).1.looks)) := by
  induction as generalizing p with
  | nil => simp [looksDuring, acts]
  | cons b as ih => simp only [List.cons_append, looksDuring, ih, acts, Bool.or_assoc]

end Polling

@[simp] theorem handled_nil : handled [] = [] := rfl

@[simp] theorem handled_append (ts ts' : List Taken) :
    handled (ts ++ ts') = handled ts ++ handled ts' := List.filterMap_append ..

@[simp] theorem handed_append (ts ts' : List Taken) :
    handed (ts ++ ts') = handed ts ++ handed ts' := by
  rw [handed, List.flatMap_append, List.filterMap_append]
  rfl

/-! ### Running undisturbed -/

/-- A viewer that is about to look at a status looks at the latest, which it has not seen. -/
theorem of_turn_eq_status {r : Run} {status : Status} (turn : r.turn = .status status) :
    r.hasEnded = false ∧ r.isUnseen = true ∧ status = r.status := by
  unfold Run.turn at turn
  split at turn
  · cases turn
  · next going =>
    split at turn
    · cases turn
    · split at turn
      · cases turn
      · split at turn
        · cases turn
        · split at turn
          · cases turn
          · split at turn
            · next unseen =>
              cases turn
              exact ⟨Bool.eq_false_iff.mpr going, unseen, rfl⟩
            · cases turn

/-- A turn is taken by going on once or, if it is a look at the status, twice. -/
theorem exists_acts_of_turn {r : Run} (ready : r.turn ≠ .wait) :
    ∃ n, (⟨r, false⟩ : Polling).acts (List.replicate n .advance) =
      (⟨r, false⟩ : Polling).take r.turn := by
  cases turn : r.turn with
  | wait => exact absurd turn ready
  | status status =>
    obtain ⟨going, unseen, rfl⟩ := of_turn_eq_status turn
    refine ⟨2, ?_⟩
    simp [Polling.acts, Polling.act, Polling.advance, turn, going, unseen, Polling.take]
  | begin | cancel | event | endOfEvents =>
    refine ⟨1, ?_⟩
    simp [Polling.acts, Polling.act, Polling.advance, turn, Polling.take]

/-- A viewer that runs until nothing is ready goes on while nothing else is done. -/
theorem exists_acts_of_runFor {fuel : Nat} {r last : Run} {os : List Output}
    (settles : Run.runFor fuel r = some (last, os)) :
    ∃ n, ((⟨r, false⟩ : Polling).acts (List.replicate n .advance)).1 = ⟨last, false⟩ ∧
      ((⟨r, false⟩ : Polling).acts (List.replicate n .advance)).2.flatMap (·.outputs) = os := by
  induction fuel generalizing r os with
  | zero =>
    cases settles
    exact ⟨0, rfl, rfl⟩
  | succ fuel ih =>
    rw [Run.runFor] at settles
    split at settles
    · cases settles
      exact ⟨0, rfl, rfl⟩
    · next ready =>
      split at settles
      · obtain ⟨⟨last', more⟩, rest, e⟩ := Option.bind_eq_some_iff.mp settles
        cases e
        obtain ⟨m, first⟩ := exists_acts_of_turn ready
        obtain ⟨n, others, outputs⟩ := ih rest
        refine ⟨m + n, ?_, ?_⟩
        · rw [List.replicate_add, Polling.acts_append, first]
          exact others
        · have here : ((⟨r, false⟩ : Polling).take r.turn).2.flatMap (·.outputs) =
              (r.take r.turn).2 := List.append_nil _
          rw [List.replicate_add, Polling.acts_append, first, List.flatMap_append, here]
          exact congrArg ((r.take r.turn).2 ++ ·) outputs
      · cases settles

/-! ### Every event is handled -/

/-- How a viewer stands to what was sent to it. -/
structure Attends (viewer : Consumer) (as : List Act) (p : Polling) (taken : List Taken) :
    Prop where
  viewer_eq : p.run.viewer = viewer.after (handled taken)
  waiting : handled taken ++ p.run.events = sent as
  eventsOpen_iff : p.run.eventsOpen = true ↔ .closeEvents ∉ as
  /-- It ends when no event is left and none can come. -/
  of_ended : p.run.hasEnded = true → p.run.events = [] ∧ .closeEvents ∈ as
  not_cancelled : p.run.isCancelled = false

namespace Attends

variable {viewer : Consumer} {as : List Act} {p q : Polling} {taken ts : List Taken} {a : Act}

/-- An act that leaves the events alone. -/
theorem keep (h : Attends viewer as p taken) (same_viewer : q.run.viewer = p.run.viewer)
    (same_events : q.run.events = p.run.events) (same_open : q.run.eventsOpen = p.run.eventsOpen)
    (same_ended : q.run.hasEnded = p.run.hasEnded)
    (same_cancelled : q.run.isCancelled = p.run.isCancelled) (nothing : handled ts = [])
    (none_sent : sent? a = none) (leaves_open : a ≠ .closeEvents) :
    Attends viewer (as ++ [a]) q (taken ++ ts) := by
  have same_sent : sent (as ++ [a]) = sent as := by simp [sent_concat, none_sent]
  have same_close : Act.closeEvents ∈ as ++ [a] ↔ .closeEvents ∈ as := by
    simp [Ne.symm leaves_open]
  constructor
  · rw [same_viewer, handled_append, nothing, List.append_nil, h.viewer_eq]
  · rw [same_events, handled_append, nothing, List.append_nil, h.waiting, same_sent]
  · rw [same_open, h.eventsOpen_iff, same_close]
  · rw [same_ended, same_events, same_close]
    exact h.of_ended
  · rw [same_cancelled, h.not_cancelled]

/-- A viewer that goes on handles the event that has waited longest, if one has. -/
theorem advance (h : Attends viewer as p taken) :
    Attends viewer (as ++ [.advance]) p.advance.1 (taken ++ p.advance.2) := by
  have advances := p.advance_cases h.not_cancelled
  generalize p.advance = next at advances
  have same_sent : sent (as ++ [.advance]) = sent as := by simp [sent_concat, sent?]
  have same_close : Act.closeEvents ∈ as ++ [.advance] ↔ .closeEvents ∈ as := by simp
  cases advances with
  | begin | pass | look | lookAgain | idle =>
    exact h.keep rfl rfl rfl rfl rfl rfl rfl (by decide)
  | @event event rest going begun here waits =>
    constructor
    · have took : (p.take (.event event)).1.run.viewer = (p.run.viewer.answer event).viewer := rfl
      have one : handled (p.take (.event event)).2 = [event] := rfl
      rw [handled_append, took, one, after_concat, h.viewer_eq]
    · have waited := h.waiting
      rw [waits] at waited
      rw [handled_append, same_sent, ← waited, List.append_assoc]
      simp [Polling.take, Run.take, waits, handled]
    · rw [same_close]
      exact h.eventsOpen_iff
    · intro ended
      exact absurd (going.symm.trans ended) Bool.false_ne_true
    · exact h.not_cancelled
  | finish going begun here none_left closed =>
    have closes : Act.closeEvents ∈ as := by
      by_contra still_open
      rw [h.eventsOpen_iff.mpr still_open] at closed
      cases closed
    constructor
    · have nothing : handled (p.take .endOfEvents).2 = [] := rfl
      rw [handled_append, nothing, List.append_nil]
      exact h.viewer_eq
    · have nothing : handled (p.take .endOfEvents).2 = [] := rfl
      rw [handled_append, nothing, List.append_nil, same_sent]
      exact h.waiting
    · rw [same_close]
      exact h.eventsOpen_iff
    · exact fun _ ↦ ⟨none_left, same_close.mpr closes⟩
    · exact h.not_cancelled

/-- An event that is sent waits, unless the way for events is closed. -/
theorem send (h : Attends viewer as p taken) (event : ClientEvent) :
    Attends viewer (as ++ [.send event]) (p.act (.send event)).1
      (taken ++ (p.act (.send event)).2) := by
  have same_close : Act.closeEvents ∈ as ++ [.send event] ↔ .closeEvents ∈ as := by simp
  by_cases closed : Act.closeEvents ∈ as
  · have shut : p.run.eventsOpen = false := by
      by_contra is_open
      exact h.eventsOpen_iff.mp (Bool.of_not_eq_false is_open) closed
    have refused : (p.act (.send event)).1 = p := by simp [Run.send, shut]
    have same_sent : sent (as ++ [.send event]) = sent as := by simp [sent_concat, closed]
    rw [refused]
    constructor
    · simpa using h.viewer_eq
    · rw [same_sent]
      simpa using h.waiting
    · rw [same_close, h.eventsOpen_iff]
    · rw [same_close]
      exact h.of_ended
    · exact h.not_cancelled
  · have is_open : p.run.eventsOpen = true := h.eventsOpen_iff.mpr closed
    have going : p.run.hasEnded = false := by
      by_contra ended
      exact closed (h.of_ended (Bool.of_not_eq_false ended)).2
    have waits : (p.act (.send event)).1 =
        { p with run := { p.run with events := p.run.events ++ [event] } } := by
      simp [Run.send, is_open, going]
    have more : sent (as ++ [.send event]) = sent as ++ [event] := by
      simp [sent_concat, closed, sent?]
    rw [waits]
    constructor
    · simpa using h.viewer_eq
    · rw [more, ← h.waiting]
      simp
    · rw [same_close]
      exact h.eventsOpen_iff
    · intro ended
      exact absurd (going.symm.trans ended) Bool.false_ne_true
    · exact h.not_cancelled

/-- Whatever is done, a viewer handles what is sent to it. -/
theorem act (h : Attends viewer as p taken) (a : Act) :
    Attends viewer (as ++ [a]) (p.act a).1 (taken ++ (p.act a).2) := by
  cases a with
  | send event => exact h.send event
  | publish status =>
    have same : (p.run.publish status).1.viewer = p.run.viewer ∧
        (p.run.publish status).1.events = p.run.events ∧
        (p.run.publish status).1.eventsOpen = p.run.eventsOpen ∧
        (p.run.publish status).1.hasEnded = p.run.hasEnded ∧
        (p.run.publish status).1.isCancelled = p.run.isCancelled := by
      unfold Run.publish
      split <;> exact ⟨rfl, rfl, rfl, rfl, rfl⟩
    obtain ⟨same_viewer, same_events, same_open, same_ended, same_cancelled⟩ := same
    exact h.keep same_viewer same_events same_open same_ended same_cancelled rfl rfl (by nofun)
  | closeEvents =>
    have same_sent : sent (as ++ [.closeEvents]) = sent as := by simp [sent_concat, sent?]
    constructor
    · simpa [Run.closeEvents] using h.viewer_eq
    · rw [same_sent]
      simpa [Run.closeEvents] using h.waiting
    · simp [Run.closeEvents]
    · exact fun ended ↦ ⟨(h.of_ended ended).1, by simp⟩
    · exact h.not_cancelled
  | closeStatus => exact h.keep rfl rfl rfl rfl rfl rfl rfl (by decide)
  | advance => exact h.advance

end Attends

/-- What a viewer handles is what is sent to it, in order. -/
theorem attends_acts (viewer : Consumer) (initial : Status) (as : List Act) :
    Attends viewer as ((Polling.new viewer initial).acts as).1
      ((Polling.new viewer initial).acts as).2 := by
  induction as using List.reverseRecOn with
  | nil => exact ⟨rfl, rfl, by simp [Polling.acts, Polling.new, Run.new], nofun, rfl⟩
  | append_singleton as a ih =>
    rw [Polling.acts_concat]
    exact ih.act a

/-! ### What is handed on -/

/-- Nothing is handed on in answer to an event. -/
theorem handed_event (p : Polling) (event : ClientEvent) :
    handed (p.take (.event event)).2 = [] := by
  cases event with
  | message s =>
    simp only [handed, Polling.take, Run.take, Consumer.handleEvent, Consumer.newInstruments]
    split <;> simp
  | error e => cases e <;> rfl
  | opened | closed => rfl

/-- How a viewer stands to the statuses that were published. -/
structure Follows (initial : Status) (as : List Act) (p : Polling) (taken : List Taken) :
    Prop where
  not_cancelled : p.run.isCancelled = false
  begun_of_ended : p.run.hasEnded = true → p.run.hasBegun = true
  begun_of_past : p.isPast = true → p.run.hasBegun = true
  statusOpen_iff : p.run.statusOpen = true ↔ .closeStatus ∉ as
  status_eq : p.run.hasEnded = false → p.run.status = latest initial as
  going_of_past : p.isPast = true → p.run.hasEnded = false
  /-- A status that the viewer has looked at is the one handed on last. -/
  handed_of_seen : p.run.hasBegun = true → p.run.isUnseen = false →
    (handed taken).getLast? = some p.run.status

namespace Follows

variable {initial : Status} {as : List Act} {p : Polling} {taken : List Taken}

/-- A viewer that looks hands on the status published last, if it has not done so before. -/
theorem handed_of_looks (h : Follows initial as p taken) (looks : p.looks = true) :
    (handed (taken ++ p.advance.2)).getLast? = some (latest initial as) := by
  have advances := p.advance_cases h.not_cancelled
  generalize p.advance = next at advances
  rw [handed_append]
  cases advances with
  | begin going first here =>
    rw [← h.status_eq going]
    exact List.getLast?_concat
  | look past unseen =>
    rw [← h.status_eq (h.going_of_past past)]
    exact List.getLast?_concat
  | lookAgain past seen =>
    have nothing : handed [] = [] := rfl
    rw [nothing, List.append_nil, ← h.status_eq (h.going_of_past past)]
    exact h.handed_of_seen (h.begun_of_past past) seen
  | event going begun here | finish going begun here | pass going begun here =>
    simp [Polling.looks, begun, here] at looks
  | idle ended here => simp [Polling.looks, ended, here] at looks

/-- A viewer that goes on without a look hands on nothing. -/
theorem handed_of_not_looks (h : Follows initial as p taken) (looks : p.looks = false) :
    handed p.advance.2 = [] ∧ p.advance.1.run.hasBegun = p.run.hasBegun := by
  have advances := p.advance_cases h.not_cancelled
  generalize p.advance = next at advances
  cases advances with
  | begin going first => simp [Polling.looks, first, going] at looks
  | look past | lookAgain past => simp [Polling.looks, past] at looks
  | event => exact ⟨handed_event p _, rfl⟩
  | finish | pass | idle => exact ⟨rfl, rfl⟩

/-- An act that leaves the statuses alone, and after which the viewer looks at them no earlier. -/
theorem keep {q : Polling} {ts : List Taken} {a : Act} (h : Follows initial as p taken)
    (same : q.run.isCancelled = p.run.isCancelled ∧ q.run.hasBegun = p.run.hasBegun ∧
      q.run.statusOpen = p.run.statusOpen ∧ q.run.status = p.run.status ∧
      q.run.isUnseen = p.run.isUnseen)
    (past : q.isPast = true → p.run.hasBegun = true ∧ q.run.hasEnded = false)
    (ended : q.run.hasEnded = true → p.run.hasBegun = true)
    (going : q.run.hasEnded = false → p.run.hasEnded = false)
    (nothing : handed ts = []) (none_published : published? a = none)
    (leaves_open : a ≠ .closeStatus) : Follows initial (as ++ [a]) q (taken ++ ts) := by
  obtain ⟨same_cancelled, same_begun, same_open, same_status, same_unseen⟩ := same
  have same_latest : latest initial (as ++ [a]) = latest initial as := by
    simp [latest_concat, none_published]
  have same_close : Act.closeStatus ∈ as ++ [a] ↔ .closeStatus ∈ as := by
    simp [Ne.symm leaves_open]
  constructor
  · rw [same_cancelled, h.not_cancelled]
  · rw [same_begun]
    exact ended
  · rw [same_begun]
    exact fun h ↦ (past h).1
  · rw [same_open, same_close, h.statusOpen_iff]
  · rw [same_status, same_latest]
    exact fun q_going ↦ h.status_eq (going q_going)
  · exact fun h ↦ (past h).2
  · rw [same_begun, same_unseen, same_status, handed_append, nothing, List.append_nil]
    exact h.handed_of_seen

/-- A viewer that goes on hands on what it looks at. -/
theorem advance (h : Follows initial as p taken) :
    Follows initial (as ++ [.advance]) p.advance.1 (taken ++ p.advance.2) := by
  have advances := p.advance_cases h.not_cancelled
  generalize p.advance = next at advances
  have same_latest : latest initial (as ++ [.advance]) = latest initial as := by
    simp [latest_concat, published?]
  have same_close : Act.closeStatus ∈ as ++ [.advance] ↔ .closeStatus ∈ as := by simp
  cases advances with
  | begin going first here =>
    exact ⟨h.not_cancelled, fun _ ↦ rfl, fun _ ↦ rfl, by rw [same_close]; exact h.statusOpen_iff,
      by rw [same_latest]; exact h.status_eq, nofun,
      fun _ _ ↦ by rw [handed_append]; exact List.getLast?_concat⟩
  | look past unseen =>
    exact ⟨h.not_cancelled, h.begun_of_ended, nofun, by rw [same_close]; exact h.statusOpen_iff,
      by rw [same_latest]; exact h.status_eq, nofun,
      fun _ _ ↦ by rw [handed_append]; exact List.getLast?_concat⟩
  | event going begun here =>
    exact h.keep ⟨rfl, rfl, rfl, rfl, rfl⟩ nofun (fun _ ↦ begun) (fun _ ↦ going)
      (handed_event p _) rfl (by decide)
  | finish going begun here =>
    exact h.keep ⟨rfl, rfl, rfl, rfl, rfl⟩ nofun (fun _ ↦ begun) (fun _ ↦ going) rfl rfl (by decide)
  | pass going begun here =>
    exact h.keep ⟨rfl, rfl, rfl, rfl, rfl⟩ (fun _ ↦ ⟨begun, going⟩) (fun _ ↦ begun)
      (fun _ ↦ going) rfl rfl (by decide)
  | lookAgain past seen =>
    exact h.keep ⟨rfl, rfl, rfl, rfl, rfl⟩ nofun (fun _ ↦ h.begun_of_past past)
      (fun _ ↦ h.going_of_past past) rfl rfl (by decide)
  | idle ended here =>
    exact h.keep ⟨rfl, rfl, rfl, rfl, rfl⟩ nofun h.begun_of_ended id rfl rfl (by decide)

/-- A status that is published is the latest, unless the way for statuses is closed. -/
theorem publish (h : Follows initial as p taken) (status : Status) :
    Follows initial (as ++ [.publish status]) (p.act (.publish status)).1
      (taken ++ (p.act (.publish status)).2) := by
  have same_close : Act.closeStatus ∈ as ++ [.publish status] ↔ .closeStatus ∈ as := by simp
  rw [Polling.act_publish, List.append_nil, Run.publish]
  by_cases taken_up : (p.run.statusOpen && !p.run.hasEnded) = true
  · rw [if_pos taken_up]
    rw [Bool.and_eq_true, h.statusOpen_iff] at taken_up
    have newest : latest initial (as ++ [.publish status]) = status := by
      simp [latest_concat, taken_up.1, published?]
    exact ⟨h.not_cancelled, h.begun_of_ended, h.begun_of_past,
      by rw [same_close]; exact h.statusOpen_iff, fun _ ↦ newest.symm, h.going_of_past, nofun⟩
  · rw [if_neg taken_up]
    refine ⟨h.not_cancelled, h.begun_of_ended, h.begun_of_past,
      by rw [same_close]; exact h.statusOpen_iff, fun going ↦ ?_, h.going_of_past,
      h.handed_of_seen⟩
    have closed : Act.closeStatus ∈ as := by
      by_contra is_open
      exact taken_up (by rw [h.statusOpen_iff.mpr is_open, going]; rfl)
    rw [latest_concat, if_pos closed]
    exact h.status_eq going

/-- Whatever is done, a viewer hands on what it looks at. -/
theorem act (h : Follows initial as p taken) (a : Act) :
    Follows initial (as ++ [a]) (p.act a).1 (taken ++ (p.act a).2) := by
  have past (is_past : p.isPast = true) : p.run.hasBegun = true ∧ p.run.hasEnded = false :=
    ⟨h.begun_of_past is_past, h.going_of_past is_past⟩
  cases a with
  | send event =>
    have same : (p.run.send event).1 = p.run ∨
        (p.run.send event).1 = { p.run with events := p.run.events ++ [event] } := by
      unfold Run.send
      split
      · exact .inr rfl
      · exact .inl rfl
    rw [Polling.act_send]
    rcases same with e | e
    all_goals
      rw [e]
      exact h.keep ⟨rfl, rfl, rfl, rfl, rfl⟩ past h.begun_of_ended id rfl rfl (by nofun)
  | publish status => exact h.publish status
  | closeEvents =>
    exact h.keep ⟨rfl, rfl, rfl, rfl, rfl⟩ past h.begun_of_ended id rfl rfl (by decide)
  | closeStatus =>
    have same_latest : latest initial (as ++ [.closeStatus]) = latest initial as := by
      simp [latest_concat, published?]
    rw [Polling.act_closeStatus, List.append_nil]
    exact ⟨h.not_cancelled, h.begun_of_ended, h.begun_of_past, by simp [Run.closeStatus],
      by rw [same_latest]; exact h.status_eq, h.going_of_past, h.handed_of_seen⟩
  | advance => exact h.advance

/-- Nothing is handed on but by a look, and the first look is where the viewer begins. -/
theorem act_of_not_looks (h : Follows initial as p taken) {a : Act}
    (looks : ¬ (a = .advance ∧ p.looks = true)) :
    handed (p.act a).2 = [] ∧ (p.act a).1.run.hasBegun = p.run.hasBegun := by
  cases a with
  | send event =>
    rw [Polling.act_send, Run.send]
    split <;> exact ⟨rfl, rfl⟩
  | publish status =>
    rw [Polling.act_publish, Run.publish]
    split <;> exact ⟨rfl, rfl⟩
  | closeEvents | closeStatus => exact ⟨rfl, rfl⟩
  | advance => exact h.handed_of_not_looks (Bool.eq_false_iff.mpr fun looked ↦ looks ⟨rfl, looked⟩)

end Follows

/-- What a viewer hands on is what it looks at. -/
theorem follows_acts (viewer : Consumer) (initial : Status) (as : List Act) :
    Follows initial as ((Polling.new viewer initial).acts as).1
      ((Polling.new viewer initial).acts as).2 := by
  induction as using List.reverseRecOn with
  | nil => exact ⟨rfl, nofun, nofun, by simp [Polling.acts, Polling.new, Run.new], fun _ ↦ rfl,
      nofun, nofun⟩
  | append_singleton as a ih =>
    rw [Polling.acts_concat]
    exact ih.act a

/-! ### The last look -/

/-- Whether a viewer looks at the status after some acts, and no more during those that follow. -/
structure IsLastLook (start : Polling) (before behind : List Act) : Prop where
  looks : (start.acts before).1.looks = true
  none_follows : (start.acts (before ++ [.advance])).1.looksDuring behind = false

/-- A viewer that has begun has handed on what was published last when it looked last. -/
theorem exists_lastLook (viewer : Consumer) (initial : Status) (as : List Act)
    (begun : ((Polling.new viewer initial).acts as).1.run.hasBegun = true) :
    ∃ before behind, as = before ++ .advance :: behind ∧
      IsLastLook (.new viewer initial) before behind ∧
      (handed ((Polling.new viewer initial).acts as).2).getLast?
        = some (latest initial before) := by
  induction as using List.reverseRecOn with
  | nil => cases begun
  | append_singleton as a ih =>
    have follows := follows_acts viewer initial as
    rw [Polling.acts_concat] at begun ⊢
    by_cases looks : a = .advance ∧ ((Polling.new viewer initial).acts as).1.looks = true
    · obtain ⟨rfl, looks⟩ := looks
      exact ⟨as, [], rfl, ⟨looks, rfl⟩, follows.handed_of_looks looks⟩
    · obtain ⟨nothing, same⟩ := follows.act_of_not_looks looks
      obtain ⟨before, behind, split, ⟨looked, none_follows⟩, last⟩ := ih (same ▸ begun)
      refine ⟨before, behind ++ [a], by simp [split], ⟨looked, ?_⟩, ?_⟩
      · have here : (((Polling.new viewer initial).acts (before ++ [.advance])).1.acts behind).1 =
            ((Polling.new viewer initial).acts as).1 := by
          have whole := congrArg (·.1)
            (Polling.acts_append (.new viewer initial) (before ++ [.advance]) behind)
          rw [← List.append_cons, ← split] at whole
          exact whole.symm
        rw [Polling.looksDuring_concat, none_follows, here, Bool.false_or]
        simpa using looks
      · rw [handed_append, nothing, List.append_nil]
        exact last

/-! ### The end -/

/-- A viewer that ends because no event can come has handled every event that was sent before the
way for them was closed, in order. The status handed on last is the one published last when it
looked last; so everything is delivered exactly if that is also the one published last before the
way for events was closed. -/
theorem delivers_iff_of_ended (viewer : Consumer) (initial : Status) (as : List Act)
    (ended : ((Polling.new viewer initial).acts as).1.run.hasEnded = true) :
    .closeEvents ∈ as ∧
      handled ((Polling.new viewer initial).acts as).2 = sent as ∧
      ((Polling.new viewer initial).acts as).1.run.viewer = viewer.after (sent as) ∧
      ∃ before behind, as = before ++ .advance :: behind ∧
        IsLastLook (.new viewer initial) before behind ∧
        (handed ((Polling.new viewer initial).acts as).2).getLast? =
          some (latest initial before) ∧
        (Delivers initial as ((Polling.new viewer initial).acts as).2 ↔
          latest initial before = latest initial (beforeClose as)) := by
  have attends := attends_acts viewer initial as
  have follows := follows_acts viewer initial as
  obtain ⟨none_left, closed⟩ := attends.of_ended ended
  have all_handled : handled ((Polling.new viewer initial).acts as).2 = sent as := by
    rw [← attends.waiting, none_left, List.append_nil]
  obtain ⟨before, behind, split, last_look, last⟩ :=
    exists_lastLook viewer initial as (follows.begun_of_ended ended)
  refine ⟨closed, all_handled, all_handled ▸ attends.viewer_eq, before, behind, split, last_look,
    last, fun delivers ↦ ?_, fun same ↦ ⟨all_handled, same ▸ last⟩⟩
  exact Option.some.inj (last.symm.trans delivers.status_eq)

/-! ### Two runs -/

/-- The status that a viewer begins with here. -/
def connectedStatus : Status := ⟨.connected, 0, 3, false, none⟩

/-- The status that is published here. -/
def disconnectedStatus : Status := ⟨.disconnected, 0, 3, false, none⟩

/-- A viewer about to run here. -/
def sampleStart : Polling := .new (.new 10 .production) connectedStatus

/-- A status is published and an event sent before the viewer begins; then the way for events is
closed. -/
def earlyStatus : List Act :=
  [.publish disconnectedStatus, .send .closed, .closeEvents, .advance, .advance, .advance]

/-- A viewer begins and finds neither an event nor another status; then a status is published, and
the way for events closed, before it looks again. -/
def lateStatus : List Act :=
  [.advance, .advance, .advance, .publish disconnectedStatus, .closeEvents, .advance]

/-- What was published before the viewer begins is delivered. -/
theorem delivers_earlyStatus : (sampleStart.acts earlyStatus).1.run.hasEnded = true ∧
    handled (sampleStart.acts earlyStatus).2 = [.closed] ∧
    handed (sampleStart.acts earlyStatus).2 = [disconnectedStatus] := by
  have ended : (sampleStart.acts earlyStatus).1.run.hasEnded = true := rfl
  obtain ⟨-, all_handled, -⟩ :=
    delivers_iff_of_ended (.new 10 .production) connectedStatus earlyStatus ended
  exact ⟨ended, all_handled, rfl⟩

/-- What is published after the last look is not handed on, though the way for events was still
open. -/
theorem not_delivers_lateStatus : (sampleStart.acts lateStatus).1.run.hasEnded = true ∧
    ¬ Delivers connectedStatus lateStatus (sampleStart.acts lateStatus).2 := by
  refine ⟨rfl, fun delivers ↦ ?_⟩
  have last := delivers.status_eq
  have stale : (handed (sampleStart.acts lateStatus).2).getLast? = some connectedStatus := rfl
  have newest : latest connectedStatus (beforeClose lateStatus) = disconnectedStatus := by decide
  rw [stale, newest] at last
  cases last

end Quoteboard.Viewer
