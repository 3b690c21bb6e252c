import Quoteboard.Proofs.Board.Retention
import Quoteboard.Viewer.Consumer

/-!
# Every message is drawn once

A viewer answers each message with one update, which draws all messages so far, and any other event
with none. What it keeps depends on the messages alone, so it outlasts every disconnect, and what it
records adds up to what it was told.
-/

namespace Quoteboard.Viewer

open Quoteboard.Board Quoteboard.Client Quoteboard.Market Quoteboard.Metrics
open Quoteboard.Chart (Labels Update)

/-! ### What events bring, and what is given out -/

/-- The message that an event brings, if it does. -/
def message? : ClientEvent → Option Snapshot
  | .message snapshot => some snapshot
  | _ => none

/-- The messages among events, in order. -/
def messages (events : List ClientEvent) : List Snapshot := events.filterMap message?

/-- Whether an event tells of a discarded payload. -/
def isProtocolError : ClientEvent → Bool
  | .error (.protocol _) => true
  | _ => false

/-- The updates that are drawn, in order. -/
def renders (outputs : List Output) : List Update :=
  outputs.filterMap fun
    | .render update => some update
    | _ => none

/-- What is recorded, in order. -/
def recordings (outputs : List Output) : List Recording :=
  outputs.filterMap fun
    | .record recording => some recording
    | _ => none

/-- What becomes of one event: the viewer after it, what is given out, and the version drawn. -/
structure Answer where
  viewer : Consumer
  outputs : List Output
  version : Option Nat

/-- The viewer that has been told these messages. -/
def told (window : Nat) (labels : Labels) (ss : List Snapshot) : Consumer :=
  ⟨(Aggregator.new window).ingestAll ss, labels⟩

/-- The update that draws these messages. -/
def drawn (window : Nat) (labels : Labels) (ss : List Snapshot) : Update :=
  Update.ofView ((Aggregator.new window).ingestAll ss).view labels

namespace Consumer

/-- What becomes of an event. -/
def answer (v : Consumer) (event : ClientEvent) : Answer :=
  let (viewer, outputs, version) := v.handleEvent event
  ⟨viewer, outputs, version⟩

/-- The answers to events that are handled one after another. -/
def answers (v : Consumer) : List ClientEvent → List Answer
  | [] => []
  | event :: events => v.answer event :: (v.answer event).viewer.answers events

/-- The answers to events that are handled one after another, unless storage for a new series cannot
be reserved on the way. -/
def answers? (v : Consumer) : List ClientEvent → Option (List Answer)
  | [] => some []
  | event :: events =>
    if v.canHandle event then
      ((v.answer event).viewer.answers? events).map (v.answer event :: ·)
    else none

/-- The viewer after events. -/
def after (v : Consumer) (events : List ClientEvent) : Consumer :=
  events.foldl (fun v event ↦ (v.answer event).viewer) v

end Consumer

/-- All that is given out in some answers. -/
def outputs (answers : List Answer) : List Output := answers.flatMap (·.outputs)

/-- What the answers to events have to be. -/
structure DrawsAll (window : Nat) (labels : Labels) (events : List ClientEvent)
    (answers : List Answer) : Prop where
  length_eq : answers.length = events.length
  /-- After each event the viewer is as the messages so far have made it. -/
  viewer_eq : ∀ (n : Nat) (answer : Answer), answers[n]? = some answer →
    answer.viewer = told window labels (messages (events.take (n + 1)))
  /-- A message is answered with its number, and with one update that draws all messages so far. -/
  of_message : ∀ (n : Nat) (s : Snapshot) (answer : Answer),
    events[n]? = some (.message s) → answers[n]? = some answer →
    answer.version = some (messages (events.take (n + 1))).length ∧
      renders answer.outputs = [drawn window labels (messages (events.take (n + 1)))]
  /-- Any other event is answered with nothing, and nothing is drawn. -/
  of_other : ∀ (n : Nat) (event : ClientEvent) (answer : Answer),
    events[n]? = some event → message? event = none → answers[n]? = some answer →
    answer.version = none ∧ renders answer.outputs = []
  /-- In all there is one update for each message, with consecutive versions from one on. -/
  renders_eq : renders (outputs answers) = (List.range (messages events).length).map fun n ↦
    drawn window labels ((messages events).take (n + 1))
  versions_eq : (renders (outputs answers)).map (·.version) =
    List.range' 1 (messages events).length
  protocolErrors_eq : total .protocolErrors (recordings (outputs answers)) =
    events.countP isProtocolError
  samplesIngested_eq : total .samplesIngested (recordings (outputs answers)) =
    ((messages events).map (·.quotes.length)).sum
  ingestCount_eq : ingestCount (recordings (outputs answers)) = (messages events).length
  /-- A sample that was ingested has been evicted or is kept. -/
  conserved : total .samplesIngested (recordings (outputs answers)) =
    total .samplesEvicted (recordings (outputs answers)) +
      ((Aggregator.new window).ingestAll (messages events)).retained

variable {window : Nat} {labels : Labels} {v : Consumer}

/-! ### One event -/

@[simp] theorem renders_nil : renders [] = [] := rfl

@[simp] theorem renders_append (os os' : List Output) :
    renders (os ++ os') = renders os ++ renders os' := List.filterMap_append ..

@[simp] theorem recordings_append (os os' : List Output) :
    recordings (os ++ os') = recordings os ++ recordings os' := List.filterMap_append ..

@[simp] theorem messages_append (es es' : List ClientEvent) :
    messages (es ++ es') = messages es ++ messages es' := List.filterMap_append ..

/-- An event of a message. -/
theorem message?_eq_some_iff {event : ClientEvent} {s : Snapshot} :
    message? event = some s ↔ event = .message s := by
  cases event <;> simp [message?]

/-- A message is taken in, and answered with its version. -/
theorem answer_message (v : Consumer) (s : Snapshot) :
    (v.answer (.message s)).viewer = { v with aggregator := (v.aggregator.ingest s).1 } ∧
      (v.answer (.message s)).version = some (v.aggregator.version + 1) := ⟨rfl, rfl⟩

/-- A message is drawn once, with all that is there after it. -/
theorem renders_message (v : Consumer) (s : Snapshot) :
    renders (v.answer (.message s)).outputs = [(v.answer (.message s)).viewer.update] := by
  simp only [Consumer.answer, Consumer.handleEvent, Consumer.newInstruments]
  split <;> simp [renders]

/-- What is recorded of a message. -/
theorem recordings_message (v : Consumer) (s : Snapshot) :
    recordings (v.answer (.message s)).outputs =
      Recording.samples (v.aggregator.ingest s).2.samplesAppended
        (v.aggregator.ingest s).2.samplesEvicted ++ [.ingestTime] := by
  simp only [Consumer.answer, Consumer.handleEvent, Consumer.newInstruments]
  split <;> simp [recordings]

/-- An event that is no message leaves the viewer as it is, and draws nothing. -/
theorem answer_other {event : ClientEvent} (other : message? event = none) :
    (v.answer event).viewer = v ∧ (v.answer event).version = none ∧
      renders (v.answer event).outputs = [] := by
  cases event with
  | message s => cases other
  | error e => cases e <;> exact ⟨rfl, rfl, rfl⟩
  | opened | closed => exact ⟨rfl, rfl, rfl⟩

/-- What is recorded of an event that is no message. -/
theorem recordings_other {event : ClientEvent} (other : message? event = none) :
    recordings (v.answer event).outputs =
      if isProtocolError event then [.one .protocolErrors] else [] := by
  cases event with
  | message s => cases other
  | error e => cases e <;> rfl
  | opened | closed => rfl

/-- A viewer takes in the message that an event brings, and nothing else. -/
theorem viewer_answer_told (window : Nat) (labels : Labels) (ss : List Snapshot)
    (event : ClientEvent) : ((told window labels ss).answer event).viewer =
      told window labels (ss ++ messages [event]) := by
  cases h : message? event with
  | none =>
    have nothing : messages [event] = [] := by simp [messages, h]
    rw [(answer_other h).1, nothing, List.append_nil]
  | some s =>
    obtain rfl := message?_eq_some_iff.mp h
    simp [told, answer_message, messages, message?, Aggregator.ingestAll]

/-! ### Events one after another -/

/-- One more event is answered by the viewer that those before it have left. -/
theorem after_concat (v : Consumer) (events : List ClientEvent) (event : ClientEvent) :
    v.after (events ++ [event]) = ((v.after events).answer event).viewer := by
  rw [Consumer.after, List.foldl_concat]
  rfl

/-- The answer to an event is that of the viewer that the events before it have left. -/
theorem getElem?_answers (v : Consumer) (events : List ClientEvent) (n : Nat) :
    (v.answers events)[n]? = (events[n]?).map (v.after (events.take n)).answer := by
  induction events generalizing v n with
  | nil => rfl
  | cons event events ih =>
    cases n with
    | zero => rfl
    | succ n =>
      rw [Consumer.answers, List.getElem?_cons_succ, ih]
      rfl

theorem length_answers (v : Consumer) (events : List ClientEvent) :
    (v.answers events).length = events.length := by
  induction events generalizing v with
  | nil => rfl
  | cons event events ih => rw [Consumer.answers, List.length_cons, ih, List.length_cons]

/-- A viewer takes in the messages that events bring, and nothing else. -/
theorem after_told (window : Nat) (labels : Labels) (ss : List Snapshot)
    (events : List ClientEvent) :
    (told window labels ss).after events = told window labels (ss ++ messages events) := by
  induction events generalizing ss with
  | nil => simp [Consumer.after, messages]
  | cons event events ih =>
    have step : (told window labels ss).after (event :: events) =
      (((told window labels ss).answer event).viewer).after events := rfl
    rw [step, viewer_answer_told, ih, List.append_assoc, ← messages_append]
    rfl

/-- Each event is answered in the light of the messages before it. -/
theorem answer_of_getElem? {events : List ClientEvent} {n : Nat} {answer : Answer}
    (h : ((told window labels []).answers events)[n]? = some answer) :
    ∃ event, events[n]? = some event ∧
      answer = (told window labels (messages (events.take n))).answer event := by
  rw [getElem?_answers, Option.map_eq_some_iff, after_told] at h
  obtain ⟨event, at_n, rfl⟩ := h
  exact ⟨event, at_n, rfl⟩

/-- The version is the number of the messages. -/
theorem version_told (window : Nat) (labels : Labels) (ss : List Snapshot) :
    (told window labels ss).aggregator.version = ss.length :=
  (Aggregator.version_ingestAll (Aggregator.new window) ss).trans (Nat.zero_add _)

/-- Each message is drawn with all messages before it. -/
theorem renders_answers (window : Nat) (labels : Labels) (ss : List Snapshot)
    (events : List ClientEvent) :
    renders (outputs ((told window labels ss).answers events)) =
      (List.range (messages events).length).map fun n ↦
        drawn window labels (ss ++ (messages events).take (n + 1)) := by
  induction events generalizing ss with
  | nil => rfl
  | cons event events ih =>
    have rest := ih (ss ++ messages [event])
    rw [Consumer.answers, outputs, List.flatMap_cons, renders_append, viewer_answer_told, ← outputs,
      rest]
    cases h : message? event with
    | none =>
      have nothing : messages [event] = [] := by simp [messages, h]
      have same : messages (event :: events) = messages events := by simp [messages, h]
      rw [(answer_other h).2.2, nothing, same, List.append_nil, List.nil_append]
    | some s =>
      obtain rfl := message?_eq_some_iff.mp h
      have first : messages [.message s] = [s] := rfl
      have more : messages (.message s :: events) = s :: messages events := rfl
      rw [renders_message, viewer_answer_told, first, more, List.length_cons,
        List.range_succ_eq_map, List.map_cons, List.map_map]
      simp only [List.append_assoc, List.singleton_append]
      rfl

/-! ### Counting -/

/-- What is recorded of the samples of a message. -/
theorem total_samples (appended evicted : Nat) :
    total .samplesIngested (Recording.samples appended evicted) = appended ∧
      total .samplesEvicted (Recording.samples appended evicted) = evicted ∧
      total .protocolErrors (Recording.samples appended evicted) = 0 ∧
      ingestCount (Recording.samples appended evicted) = 0 := by
  unfold Recording.samples
  split
  · simp [total, Recording.amount, ingestCount]
  · next nothing =>
    obtain rfl : evicted = 0 := Nat.eq_zero_of_not_pos nothing
    simp [total, Recording.amount, ingestCount]

/-- How counters grow while a viewer that has been told messages answers events. -/
structure Counts (window : Nat) (ss : List Snapshot) (events : List ClientEvent)
    (record : List Recording) : Prop where
  protocolErrors : total .protocolErrors record = events.countP isProtocolError
  samplesIngested : total .samplesIngested record = ((messages events).map (·.quotes.length)).sum
  ingests : ingestCount record = (messages events).length
  conserved : ((Aggregator.new window).ingestAll ss).retained + total .samplesIngested record =
    total .samplesEvicted record +
      ((Aggregator.new window).ingestAll (ss ++ messages events)).retained

namespace Counts

variable {ss : List Snapshot} {events events' : List ClientEvent} {record record' : List Recording}

/-- Nothing grows without events. -/
theorem nil (window : Nat) (ss : List Snapshot) : Counts window ss [] [] := by
  constructor <;> simp [messages, ingestCount]

/-- Counters that grow one after the other. -/
theorem append (first : Counts window ss events record)
    (others : Counts window (ss ++ messages events) events' record') :
    Counts window ss (events ++ events') (record ++ record') where
  protocolErrors := by
    rw [total_append, first.protocolErrors, others.protocolErrors, List.countP_append]
  samplesIngested := by
    rw [total_append, first.samplesIngested, others.samplesIngested, messages_append,
      List.map_append, List.sum_append]
  ingests := by
    rw [ingestCount_append, first.ingests, others.ingests, messages_append,
      List.length_append]
  conserved := by
    have kept := first.conserved
    have kept' := others.conserved
    rw [List.append_assoc, ← messages_append] at kept'
    rw [total_append, total_append]
    omega

/-- A message is ingested, its quotes are, and what they evict is. -/
theorem message (window : Nat) (labels : Labels) (ss : List Snapshot) (s : Snapshot) :
    Counts window ss [.message s]
      (recordings ((told window labels ss).answer (.message s)).outputs) := by
  have kept := ((Aggregator.new window).ingestAll ss).retained_ingest s
  have appended := ((Aggregator.new window).ingestAll ss).samplesAppended_ingest s
  have after : (Aggregator.new window).ingestAll (ss ++ messages [.message s]) =
      (((Aggregator.new window).ingestAll ss).ingest s).1 := by
    simp [Aggregator.ingestAll, messages, message?]
  obtain ⟨ingested, evicted, errors, times⟩ := total_samples s.quotes.length
    (((Aggregator.new window).ingestAll ss).ingest s).2.samplesEvicted
  rw [recordings_message, told, appended]
  constructor
  · rw [total_append, errors]
    rfl
  · rw [total_append, ingested]
    rfl
  · rw [ingestCount_append, times]
    rfl
  · rw [total_append, total_append, ingested, evicted, after]
    simp only [total, Recording.amount]
    omega

/-- Any other event counts if it tells of a discarded payload. -/
theorem other {event : ClientEvent} (none_brought : message? event = none) :
    Counts window ss [event] (recordings (v.answer event).outputs) := by
  have nothing : messages [event] = [] := by simp [messages, none_brought]
  rw [recordings_other none_brought]
  constructor
  · cases told : isProtocolError event <;> simp [total, Recording.one, Recording.amount, told]
  · rw [nothing]
    split <;> rfl
  · rw [nothing]
    split <;> rfl
  · rw [nothing, List.append_nil]
    split <;> simp [total, Recording.one, Recording.amount]

/-- Events one after another. -/
theorem answers (window : Nat) (labels : Labels) (ss : List Snapshot) (events : List ClientEvent) :
    Counts window ss events (recordings (outputs ((told window labels ss).answers events))) := by
  induction events generalizing ss with
  | nil => exact nil window ss
  | cons event events ih =>
    rw [Consumer.answers, outputs, List.flatMap_cons, recordings_append, viewer_answer_told,
      ← outputs]
    have one : Counts window ss [event]
        (recordings ((told window labels ss).answer event).outputs) := by
      cases h : message? event with
      | none => exact other h
      | some s =>
        obtain rfl := message?_eq_some_iff.mp h
        exact message window labels ss s
    exact one.append (ih _)

end Counts

/-! ### All messages -/

/-- What is answered if storage is not looked at. -/
theorem drawsAll_answers (window : Nat) (labels : Labels) (events : List ClientEvent) :
    DrawsAll window labels events ((Consumer.new window labels).answers events) := by
  have fresh : Consumer.new window labels = told window labels [] := rfl
  have counts := Counts.answers window labels [] events
  have updates := renders_answers window labels [] events
  rw [fresh]
  have answered {n : Nat} {answer : Answer} {event : ClientEvent}
      (h : ((told window labels []).answers events)[n]? = some answer)
      (at_n : events[n]? = some event) :
      answer = (told window labels (messages (events.take n))).answer event ∧
        messages (events.take (n + 1)) = messages (events.take n) ++ messages [event] := by
    obtain ⟨event', at_n', rfl⟩ := answer_of_getElem? h
    obtain rfl := Option.some.inj (at_n'.symm.trans at_n)
    rw [List.take_add_one, at_n, messages_append]
    exact ⟨rfl, rfl⟩
  constructor
  · exact length_answers _ _
  · intro n answer h
    obtain ⟨event, at_n, -⟩ := answer_of_getElem? h
    obtain ⟨rfl, grown⟩ := answered h at_n
    rw [viewer_answer_told, grown]
  · intro n s answer at_n h
    obtain ⟨rfl, grown⟩ := answered h at_n
    have drew := renders_message (told window labels (messages (events.take n))) s
    rw [viewer_answer_told, ← grown] at drew
    refine ⟨?_, drew⟩
    rw [(answer_message _ s).2, version_told, grown, List.length_append]
    rfl
  · intro n event answer at_n other h
    obtain ⟨rfl, -⟩ := answered h at_n
    exact (answer_other other).2
  · simpa only [List.nil_append] using updates
  · rw [updates, List.map_map, List.range'_eq_map_range]
    refine List.map_congr_left fun n hn ↦ ?_
    have inside := List.mem_range.mp hn
    have count := version_told window labels ((messages events).take (n + 1))
    rw [List.length_take_of_le inside] at count
    rw [Nat.add_comm]
    exact count
  · exact counts.protocolErrors
  · exact counts.samplesIngested
  · exact counts.ingests
  · have kept := counts.conserved
    simpa [Aggregator.ingestAll] using kept

/-- Storage is missing for events exactly if it is for the messages that they bring. -/
theorem answers?_eq (v : Consumer) (events : List ClientEvent) :
    v.answers? events =
      (v.aggregator.ingestAll? (messages events)).map fun _ ↦ v.answers events := by
  induction events generalizing v with
  | nil => rfl
  | cons event events ih =>
    rw [Consumer.answers?, ih, Consumer.answers]
    cases h : message? event with
    | none =>
      have room : v.canHandle event = true := by
        cases event with
        | message s => cases h
        | error _ | opened | closed => rfl
      have same : messages (event :: events) = messages events := by simp [messages, h]
      rw [if_pos room, (answer_other h).1, same, Option.map_map]
      rfl
    | some s =>
      obtain rfl := message?_eq_some_iff.mp h
      have more : messages (.message s :: events) = s :: messages events := rfl
      rw [more, Aggregator.ingestAll?, Aggregator.ingest?, (answer_message v s).1]
      cases room : v.aggregator.canHold s with
      | true =>
        rw [if_pos (show v.canHandle (.message s) = true from room), if_pos rfl, Option.bind_some,
          Option.map_map]
        rfl
      | false =>
        rw [if_neg (Bool.eq_false_iff.mp (show v.canHandle (.message s) = false from room)),
          if_neg Bool.false_ne_true]
        rfl

/-- A viewer handles any events if storage for its window can be reserved, and otherwise fails at
the first quote. Whenever it does not fail, it draws every message once. -/
theorem draws_every_message (window : Nat) (labels : Labels) (events : List ClientEvent) :
    (Consumer.new window labels).answers? events =
        (if isReservable (max window 1) || (messages events).all (·.quotes.isEmpty) then
          some ((Consumer.new window labels).answers events)
        else none) ∧
      DrawsAll window labels events ((Consumer.new window labels).answers events) := by
  refine ⟨?_, drawsAll_answers window labels events⟩
  have new : (Consumer.new window labels).aggregator = .new window := rfl
  rw [answers?_eq, new]
  cases h : isReservable (max window 1) with
  | true =>
    rw [Aggregator.ingestAll?_of_isReservable (a := .new window) h]
    rfl
  | false =>
    rw [Aggregator.ingestAll?_of_not_isReservable (a := .new window) h rfl, Bool.false_or]
    split <;> rfl

/-- With a window of half the address space the first quote fails, so nothing is drawn. -/
theorem not_draws_of_huge_window :
    ¬ ∃ answers, (Consumer.new 0x8000000000000000 .production).answers?
        [.message ⟨1, [⟨.id 1, 2.0, 3.0⟩], none⟩] = some answers ∧
      DrawsAll 0x8000000000000000 .production [.message ⟨1, [⟨.id 1, 2.0, 3.0⟩], none⟩]
        answers := by
  rintro ⟨answers, h, -⟩
  have fails : (Consumer.new 0x8000000000000000 .production).answers?
      [.message ⟨1, [⟨.id 1, 2.0, 3.0⟩], none⟩] = none := rfl
  exact nomatch fails.symm.trans h

end Quoteboard.Viewer
