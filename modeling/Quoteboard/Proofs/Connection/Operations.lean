import Quoteboard.Proofs.Connection.Soundness

/-!
# Operations on a machine

A machine is used by starting attempts, by telling it what became of them and by closing it. Here
nothing is presumed about the caller: any operation may come at any time, and an event may be of
any generation, of one that is over or of one that has yet to start.
-/

namespace Quoteboard.Connection

/-- What can be done to a machine. -/
inductive Operation where
  | beginAttempt
  | manualRetry
  | onOpen (g : Generation)
  | onFailure (g : Generation) (reason : String)
  | onClosed (g : Generation)
  | close

namespace Machine

/-- What an operation makes of a machine. -/
def perform (m : Machine) : Operation → Machine
  | .beginAttempt => m.beginAttempt.1
  | .manualRetry => m.manualRetry.1
  | .onOpen g => (m.onOpen g).1
  | .onFailure g reason => (m.onFailure g reason).1
  | .onClosed g => (m.onClosed g).1
  | .close => m.close.1

/-- What operations make of a machine, one after the other. -/
def performAll (m : Machine) (ops : List Operation) : Machine := ops.foldl perform m

variable {m : Machine}

/-- No operation changes the policy. -/
theorem policy_perform (m : Machine) (op : Operation) : (m.perform op).policy = m.policy := by
  cases op with
  | beginAttempt => rfl
  | manualRetry => rfl
  | onOpen g =>
    simp only [perform, onOpen]
    split <;> rfl
  | onFailure g reason =>
    simp only [perform, onFailure]
    split
    · split <;> rfl
    · rfl
  | onClosed g =>
    simp only [perform, onClosed]
    split <;> rfl
  | close => exact m.close_fields.1

/-- Every operation keeps a machine sound. -/
theorem Sound.perform (h : m.Sound) (op : Operation) : (m.perform op).Sound := by
  cases op with
  | beginAttempt => exact h.beginAttempt
  | manualRetry => exact h.manualRetry
  | onOpen g => exact h.onOpen g
  | onFailure g reason => exact h.onFailure g reason
  | onClosed g => exact h.onClosed g
  | close => exact h.close

/-- Operations leave the policy alone. -/
theorem policy_performAll (m : Machine) (ops : List Operation) :
    (m.performAll ops).policy = m.policy := by
  induction ops generalizing m with
  | nil => rfl
  | cons op ops ih => exact (ih (m.perform op)).trans (m.policy_perform op)

/-- Operations keep a machine sound. -/
theorem Sound.performAll (h : m.Sound) (ops : List Operation) : (m.performAll ops).Sound := by
  induction ops generalizing m with
  | nil => exact h
  | cons op ops ih => exact ih (h.perform op)

/-- Whatever is done to a new machine, its fields fit together under its policy, so the retries
used never exceed those that the policy allows, and a retry is due exactly in the error state and
for the current generation. -/
theorem sound_performAll_new (policy : RetryPolicy) (ops : List Operation) :
    let m := (new policy).performAll ops
    m.policy = policy ∧ m.Sound ∧
      ∀ g, m.retryDue g = true ↔ m.state = .error ∧ g = m.generation := by
  have sound := (Sound.new policy).performAll ops
  exact ⟨policy_performAll (new policy) ops, sound, sound.retryDue_iff⟩

end Machine

end Quoteboard.Connection
