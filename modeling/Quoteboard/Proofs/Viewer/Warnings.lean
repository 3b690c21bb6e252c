import Mathlib.Data.List.Induction
import Quoteboard.Proofs.Connection.Operations
import Quoteboard.Viewer.LogSink

/-!
# What the log tells of a connection

The log sink passes over a status that says nothing new, and it judges that by the state and the
error alone. That no failure is lost in this way rests on the machine: whatever is done to it, none
of its statuses tells of a failure without an error. So it does not matter which of them reach the
sink.
-/

namespace Quoteboard.Connection

/-- The statuses of a machine: before any operation, and after each. -/
def Machine.statuses (m : Machine) (ops : List Operation) : List Status :=
  (ops.scanl Machine.perform m).map Machine.status

/-- Whether a status tells of a failure: the connection has failed, or was given up. -/
def Status.IsFailure (s : Status) : Prop := s.state = .error ∨ s.exhausted = true

/-- What a status tells of a failure fits together. -/
structure Status.Sound (s : Status) : Prop where
  exists_reason : s.IsFailure → ∃ reason, s.lastError = some reason
  state_of_exhausted : s.exhausted = true → s.state = .disconnected

/-- A machine whose fields fit together has such a status. -/
theorem Machine.Sound.status {m : Machine} (h : m.Sound) : m.status.Sound where
  exists_reason failure := by
    rw [← Option.isSome_iff_exists]
    rcases failure with failed | exhausted
    · exact (h.of_error failed).2.1
    · exact (h.of_exhausted exhausted).2.2
  state_of_exhausted exhausted := (h.of_exhausted exhausted).1

/-- So have all machines that operations make of it. -/
theorem Machine.Sound.statuses {m : Machine} (h : m.Sound) (ops : List Operation) :
    ∀ s ∈ m.statuses ops, s.Sound := by
  induction ops generalizing m with
  | nil =>
    intro s hs
    obtain rfl := List.mem_singleton.mp hs
    exact h.status
  | cons op ops ih =>
    rw [Machine.statuses, List.scanl_cons, List.map_cons, List.forall_mem_cons]
    exact ⟨h.status, ih (h.perform op)⟩

end Quoteboard.Connection

namespace Quoteboard.Viewer

open Quoteboard.Connection Quoteboard.Text

/-- The statuses among what a viewer gives out. -/
def statusesOf (outputs : List Output) : List Status :=
  outputs.filterMap fun
    | .status s => some s
    | _ => none

namespace LogSink

/-- How a sink that was given `front` takes a status. -/
structure Takes (front : List Output) (s : Status) (taken : LogSink × List LogEntry) : Prop where
  lastState_eq : taken.1.lastState = some s.state
  /-- A status is passed over only if the one before has the same state and no error is told of. -/
  passed_iff : taken.2 = [] ↔
    (statusesOf front).getLast?.map (·.state) = some s.state ∧ s.lastError = none
  /-- Every change of the state is logged. -/
  of_change : (statusesOf front).getLast?.map (·.state) ≠ some s.state → taken.2 = [statusEntry s]
  warns_iff : (∃ line ∈ taken.2, line.level = .warn) ↔ s.IsFailure
  /-- The one line that tells of a failure names its reason. -/
  of_failure : s.IsFailure → ∃ line reason, taken.2 = [line] ∧ line.level = .warn ∧
    s.lastError = some reason ∧ ("error", .text (quotedOption (some reason))) ∈ line.fields

/-- What a new sink makes of all that a viewer gives out. -/
structure Tells (outputs : List Output) : Prop where
  lastState_eq :
    (new.hearAll outputs).1.lastState = (statusesOf outputs).getLast?.map (·.state)
  /-- What is written for a status stands in the log between what is written before and after. -/
  log_eq : ∀ front s back, outputs = front ++ .status s :: back →
    (new.hearAll outputs).2 = (new.hearAll front).2 ++ ((new.hearAll front).1.status s).2 ++
      (((new.hearAll front).1.status s).1.hearAll back).2
  takes : ∀ front s back, outputs = front ++ .status s :: back →
    Takes front s ((new.hearAll front).1.status s)

variable {s : Status}

/-! ### One status -/

/-- A status is passed over, or is told of in one line. -/
theorem status_eq (sink : LogSink) (s : Status) : (sink.status s).2 =
    if sink.lastState = some s.state ∧ s.lastError = none then [] else [statusEntry s] := by
  rw [status]
  split
  · next passed =>
    rw [if_pos (by simpa [passesOver] using passed)]
  · next told =>
    rw [if_neg (by simpa [passesOver] using told)]

/-- The line for a failure is a warning and has the fields that tell of it. -/
theorem statusEntry_of_isFailure (sound : s.Sound) (failure : s.IsFailure) :
    (statusEntry s).level = .warn ∧ (statusEntry s).fields = failureFields s := by
  rw [statusEntry]
  by_cases exhausted : s.exhausted = true
  · rw [if_pos ⟨sound.state_of_exhausted exhausted, exhausted⟩]
    exact ⟨rfl, rfl⟩
  · have failed := failure.resolve_right exhausted
    rw [if_neg (fun both ↦ exhausted both.2), if_pos failed]
    exact ⟨rfl, rfl⟩

/-- No other line is a warning. -/
theorem level_statusEntry (calm : ¬ s.IsFailure) : (statusEntry s).level = .info := by
  rw [statusEntry, if_neg (fun both ↦ calm (.inr both.2)), if_neg (fun failed ↦ calm (.inl failed))]

/-! ### All that is given out -/

theorem hearAll_append (sink : LogSink) (front back : List Output) :
    sink.hearAll (front ++ back) = (((sink.hearAll front).1.hearAll back).1,
      (sink.hearAll front).2 ++ ((sink.hearAll front).1.hearAll back).2) := by
  induction front generalizing sink with
  | nil => rfl
  | cons output front ih => simp [hearAll, ih]

/-- The last state is that of the last status, whatever else was given out. -/
theorem lastState_hearAll (outputs : List Output) : (new.hearAll outputs).1.lastState =
    (statusesOf outputs).getLast?.map (·.state) := by
  induction outputs using List.reverseRecOn with
  | nil => rfl
  | append_singleton front output ih =>
    have last : (new.hearAll (front ++ [output])).1 = ((new.hearAll front).1.hear output).1 := by
      rw [hearAll_append]
      rfl
    rw [last, statusesOf, List.filterMap_append]
    cases output with
    | status s => simpa [hear] using lastState_status (new.hearAll front).1 s
    | log entry | render update | record recording => simpa [hear, render, statusesOf] using ih

/-- A sink takes every status that fits together as it should. -/
theorem takes_of_sound (sound : s.Sound) (front : List Output) :
    Takes front s ((new.hearAll front).1.status s) := by
  have lines := status_eq (new.hearAll front).1 s
  rw [lastState_hearAll] at lines
  -- A failure has an error, so it is never passed over.
  have told (failure : s.IsFailure) :
      ((new.hearAll front).1.status s).2 = [statusEntry s] := by
    obtain ⟨reason, because⟩ := sound.exists_reason failure
    rw [lines, if_neg (by simp [because])]
  refine ⟨lastState_status _ s, ?_, ?_, ?_, ?_⟩
  · rw [lines]
    simp only [ite_eq_left_iff, List.cons_ne_nil, imp_false, not_not]
  · intro changed
    rw [lines, if_neg fun same ↦ changed same.1]
  · constructor
    · rintro ⟨line, written, warning⟩
      by_contra calm
      rw [lines] at written
      split at written
      · cases written
      · obtain rfl := List.mem_singleton.mp written
        rw [level_statusEntry calm] at warning
        cases warning
    · intro failure
      exact ⟨statusEntry s, told failure ▸ List.mem_singleton_self _,
        (statusEntry_of_isFailure sound failure).1⟩
  · intro failure
    obtain ⟨reason, because⟩ := sound.exists_reason failure
    obtain ⟨warning, fields⟩ := statusEntry_of_isFailure sound failure
    refine ⟨statusEntry s, reason, told failure, warning, because, ?_⟩
    rw [fields, failureFields, because]
    simp

/-- Whatever is done to a machine, and whichever of its statuses reach the sink, among whatever else
is given out: every failure is warned of with its reason, every change of the state is logged, and
nothing else is passed over than a status that tells of no error and no change. -/
theorem tells_of_sublist (policy : RetryPolicy) (ops : List Operation) (outputs : List Output)
    (seen : (statusesOf outputs).Sublist ((Machine.new policy).statuses ops)) : Tells outputs where
  lastState_eq := lastState_hearAll outputs
  log_eq front s back split := by
    rw [split, hearAll_append, List.append_assoc]
    rfl
  takes front s back split := by
    have inside : s ∈ statusesOf outputs := by
      rw [split, statusesOf, List.filterMap_append]
      simp
    exact takes_of_sound ((Machine.Sound.new policy).statuses ops s (seen.mem inside)) front

/-- What reaches the sink of a connection that is given up twice, of the attempts nothing. -/
def givenUpTwice : List Output :=
  [.status ⟨.disconnected, 0, 0, false, none⟩, .status ⟨.disconnected, 0, 0, true, some "refused"⟩,
    .status ⟨.disconnected, 0, 0, true, some "reset"⟩]

/-- Both failures of such a connection are told of. -/
theorem tells_of_givenUpTwice :
    (statusesOf givenUpTwice).Sublist ((Machine.new ⟨0, 2000⟩).statuses [.beginAttempt,
      .onFailure 1 "refused", .beginAttempt, .onOpen 2, .onFailure 2 "reset"]) ∧
    Tells givenUpTwice := by
  have seen : (statusesOf givenUpTwice).Sublist ((Machine.new ⟨0, 2000⟩).statuses [.beginAttempt,
      .onFailure 1 "refused", .beginAttempt, .onOpen 2, .onFailure 2 "reset"]) := by decide
  exact ⟨seen, tells_of_sublist _ _ _ seen⟩

end LogSink

end Quoteboard.Viewer
