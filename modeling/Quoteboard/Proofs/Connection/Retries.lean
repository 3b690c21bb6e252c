import Mathlib.Data.List.Induction
import Quoteboard.Proofs.Connection.Operations

/-!
# The numbers of retries

Retries are counted on through all attempts, closings and disconnects, until a connection opens or a
retry is asked for by hand. From there to the next such place the failures of a machine lead to the
retries that the policy allows, numbered from one on, and all later ones to exhaustion.
-/

namespace Quoteboard.Connection

/-- A failure that was accepted, by the generation that failed, and what follows from it. -/
structure Verdict where
  generation : Generation
  outcome : FailureOutcome
  deriving DecidableEq, Repr

/-- What follows from the failure of a generation that `n` failures have come before. -/
def RetryPolicy.outcomeAfter (p : RetryPolicy) (n : Nat) (g : Generation) : FailureOutcome :=
  if n < p.maxAttempts then .retry g (n + 1) p.delayMillis else .exhausted

namespace Machine

/-- Whether the numbers of retries start anew with an operation: it is an opening that is accepted,
or a retry by hand. -/
def renews (m : Machine) : Operation → Bool
  | .onOpen g => (m.onOpen g).2
  | .manualRetry => true
  | .beginAttempt | .onFailure .. | .onClosed _ | .close => false

/-- What follows from an operation, if it tells of a failure that is not stale. -/
def verdict? (m : Machine) : Operation → Option Verdict
  | .onFailure g reason =>
    if (m.onFailure g reason).2 = .stale then none else some ⟨g, (m.onFailure g reason).2⟩
  | .beginAttempt | .manualRetry | .onOpen _ | .onClosed _ | .close => none

/-- What follows from the failures along operations, in order. -/
def verdicts (m : Machine) : List Operation → List Verdict
  | [] => []
  | op :: ops => (m.verdict? op).toList ++ (m.perform op).verdicts ops

/-- What follows from the failures along operations, cut wherever the numbers start anew. -/
def pieces (m : Machine) : List Operation → List (List Verdict)
  | [] => [[]]
  | op :: ops =>
    if m.renews op then [] :: (m.perform op).pieces ops
    else ((m.perform op).pieces ops).modifyHead ((m.verdict? op).toList ++ ·)

/-- How retries are numbered along operations on a new machine. -/
structure Retries (policy : RetryPolicy) (ops : List Operation) : Prop where
  flatten_pieces : ((new policy).pieces ops).flatten = (new policy).verdicts ops
  /-- In each piece the failures lead to the retries that the policy allows, and then to
  exhaustion. -/
  outcome_eq : ∀ piece ∈ (new policy).pieces ops, ∀ (n : Nat) (v : Verdict), piece[n]? = some v →
    v.outcome = policy.outcomeAfter n v.generation
  /-- A machine is exhausted from a failure that finds no retries left on, until an attempt is
  started. -/
  exhausted_iff : ((new policy).performAll ops).exhausted = true ↔
    ∃ (front : List Operation) (g : Generation) (reason : String) (back : List Operation),
      ops = front ++ .onFailure g reason :: back ∧
        (((new policy).performAll front).onFailure g reason).2 = .exhausted ∧
        ∀ op ∈ back, op ≠ .beginAttempt ∧ op ≠ .manualRetry

variable {m : Machine} {op : Operation} {ops : List Operation}

/-! ### One operation -/

/-- What follows from a failure is stale, or as the count of retries has it. -/
theorem onFailure_cases (m : Machine) (g : Generation) (reason : String) :
    m.onFailure g reason = (m, .stale) ∨
      (m.onFailure g reason).2 = m.policy.outcomeAfter m.attempts g ∧
        (m.onFailure g reason).1.attempts =
          (if m.attempts < m.policy.maxAttempts then m.attempts + 1 else m.attempts) ∧
        (m.onFailure g reason).1.exhausted =
          (m.exhausted || (m.onFailure g reason).2 = .exhausted) := by
  unfold onFailure RetryPolicy.outcomeAfter
  split
  · right
    split <;> simp
  · exact .inl rfl

theorem outcomeAfter_ne_stale (p : RetryPolicy) (n : Nat) (g : Generation) :
    p.outcomeAfter n g ≠ .stale := by
  unfold RetryPolicy.outcomeAfter
  split <;> nofun

/-- An operation starts the count of retries anew, leaves it alone, or is a failure that the count
decides and that adds to it. -/
theorem attempts_cases (m : Machine) (op : Operation) :
    m.renews op = true ∧ (m.perform op).attempts = 0 ∨
    m.renews op = false ∧ m.verdict? op = none ∧ (m.perform op).attempts = m.attempts ∨
    m.renews op = false ∧ (∃ g, m.verdict? op = some ⟨g, m.policy.outcomeAfter m.attempts g⟩) ∧
      (m.perform op).attempts =
        if m.attempts < m.policy.maxAttempts then m.attempts + 1 else m.attempts := by
  cases op with
  | beginAttempt => exact .inr (.inl ⟨rfl, rfl, rfl⟩)
  | manualRetry => exact .inl ⟨rfl, rfl⟩
  | onOpen g =>
    simp only [renews, verdict?, perform, onOpen]
    split <;> simp
  | onFailure g reason =>
    rcases m.onFailure_cases g reason with stale | ⟨outcome, attempts, -⟩
    · exact .inr (.inl (by simp [renews, verdict?, perform, stale]))
    · refine .inr (.inr ⟨rfl, ⟨g, ?_⟩, attempts⟩)
      rw [verdict?, outcome, if_neg (outcomeAfter_ne_stale _ _ _)]
  | onClosed g =>
    simp only [renews, verdict?, perform, onClosed]
    split <;> simp
  | close => exact .inr (.inl ⟨rfl, rfl, m.close_fields.2.1⟩)

/-- Starting an attempt ends exhaustion, and a failure that finds no retries left begins it. -/
theorem exhausted_perform (m : Machine) (op : Operation) :
    (m.perform op).exhausted = true ↔ (op ≠ .beginAttempt ∧ op ≠ .manualRetry) ∧
      (m.exhausted = true ∨ ∃ g reason, op = .onFailure g reason ∧
        (m.onFailure g reason).2 = .exhausted) := by
  cases op with
  | beginAttempt => simp [perform, beginAttempt]
  | manualRetry => simp [perform, manualRetry, beginAttempt]
  | onOpen g =>
    simp only [perform, onOpen]
    split <;> simp
  | onFailure g reason =>
    rcases m.onFailure_cases g reason with stale | ⟨-, -, exhausted⟩
    · simp [perform, stale, and_assoc]
    · simp [perform, exhausted, and_assoc]
  | onClosed g =>
    simp only [perform, onClosed]
    split <;> simp
  | close => simp [perform, m.close_fields.2.2.1]

/-! ### Operations one after another -/

/-- A count that stops at the retries allowed decides as the count of all failures does. -/
theorem outcomeAfter_min (p : RetryPolicy) (n : Nat) (g : Generation) :
    p.outcomeAfter (min n p.maxAttempts) g = p.outcomeAfter n g := by
  unfold RetryPolicy.outcomeAfter
  rcases Nat.lt_or_ge n p.maxAttempts with less | le
  · rw [Nat.min_eq_left (Nat.le_of_lt less)]
  · rw [Nat.min_eq_right le, if_neg (Nat.lt_irrefl _), if_neg (Nat.not_lt.mpr le)]

/-- Whether what follows from failures is numbered, when `count` failures have come before. -/
def NumberedFrom (policy : RetryPolicy) (count : Nat) (vs : List Verdict) : Prop :=
  ∀ (n : Nat) (v : Verdict), vs[n]? = some v →
    v.outcome = policy.outcomeAfter (count + n) v.generation

theorem numberedFrom_cons {policy : RetryPolicy} {count : Nat} {v : Verdict} {vs : List Verdict}
    (first : v.outcome = policy.outcomeAfter count v.generation)
    (others : NumberedFrom policy (count + 1) vs) : NumberedFrom policy count (v :: vs) := by
  intro n w at_n
  cases n with
  | zero =>
    cases at_n
    exact first
  | succ n =>
    rw [others n w at_n]
    congr 1
    omega

/-- The first piece goes on with the count that the machine has, and every other piece starts
anew. -/
theorem exists_pieces_eq {count : Nat} (counted : m.attempts = min count m.policy.maxAttempts)
    (ops : List Operation) : ∃ first others, m.pieces ops = first :: others ∧
      NumberedFrom m.policy count first ∧ ∀ piece ∈ others, NumberedFrom m.policy 0 piece := by
  induction ops generalizing m count with
  | nil => exact ⟨[], [], rfl, nofun, nofun⟩
  | cons op ops ih =>
    rw [pieces, ← m.policy_perform op]
    rcases m.attempts_cases op with ⟨renews, attempts⟩ | ⟨goes_on, nothing, attempts⟩ |
      ⟨goes_on, ⟨g, verdict⟩, attempts⟩
    · have anew : (m.perform op).attempts = min 0 (m.perform op).policy.maxAttempts := by
        rw [attempts, Nat.zero_min]
      obtain ⟨first, others, cut, first_numbered, others_numbered⟩ := ih anew
      rw [if_pos renews, cut]
      exact ⟨[], _, rfl, nofun, List.forall_mem_cons.mpr ⟨first_numbered, others_numbered⟩⟩
    · obtain ⟨first, others, cut, numbered⟩ :=
        ih (m := m.perform op) (by rw [attempts, counted, m.policy_perform op])
      rw [goes_on, nothing, cut]
      exact ⟨first, others, rfl, numbered⟩
    · have next : (m.perform op).attempts = min (count + 1) (m.perform op).policy.maxAttempts := by
        rw [attempts, counted, m.policy_perform op]
        split <;> omega
      obtain ⟨first, others, cut, first_numbered, others_numbered⟩ := ih next
      rw [goes_on, verdict, cut]
      refine ⟨_, others, rfl, numberedFrom_cons ?_ first_numbered, others_numbered⟩
      rw [counted, outcomeAfter_min, m.policy_perform op]

/-- There is a piece even where nothing happened. -/
theorem pieces_ne_nil (m : Machine) (ops : List Operation) : m.pieces ops ≠ [] := by
  cases ops with
  | nil => exact List.cons_ne_nil _ _
  | cons op ops =>
    rw [pieces]
    split
    · exact List.cons_ne_nil _ _
    · rw [ne_eq, List.modifyHead_eq_nil_iff]
      exact pieces_ne_nil _ ops

/-- Cutting leaves nothing out. -/
theorem flatten_pieces (m : Machine) (ops : List Operation) :
    (m.pieces ops).flatten = m.verdicts ops := by
  induction ops generalizing m with
  | nil => rfl
  | cons op ops ih =>
    rw [pieces, verdicts, ← ih]
    split
    · next renews =>
      have nothing : m.verdict? op = none := by
        cases op with
        | onFailure g reason => cases renews
        | beginAttempt | manualRetry | onOpen _ | onClosed _ | close => rfl
      rw [nothing]
      rfl
    · obtain ⟨first, others, cut⟩ :=
        List.exists_cons_of_ne_nil ((m.perform op).pieces_ne_nil ops)
      simp [cut]

/-- A machine that was not exhausted at first is so from a failure that finds no retries left on,
until an attempt is started. -/
theorem exhausted_performAll_iff (fresh : m.exhausted = false) (ops : List Operation) :
    (m.performAll ops).exhausted = true ↔
      ∃ front g reason back, ops = front ++ .onFailure g reason :: back ∧
        ((m.performAll front).onFailure g reason).2 = .exhausted ∧
        ∀ op ∈ back, op ≠ .beginAttempt ∧ op ≠ .manualRetry := by
  -- The induction takes off the last operation, as the failure is sought from the end.
  induction ops using List.reverseRecOn with
  | nil => simp [performAll, fresh]
  | append_singleton ops op ih =>
    have last : m.performAll (ops ++ [op]) = (m.performAll ops).perform op := List.foldl_append
    rw [last, exhausted_perform, ih]
    constructor
    · rintro ⟨no_start, ⟨front, g, reason, back, rfl, ended, quiet⟩ | ⟨g, reason, rfl, ended⟩⟩
      · refine ⟨front, g, reason, back ++ [op], by simp, ended, ?_⟩
        exact List.forall_mem_append.mpr ⟨quiet, List.forall_mem_singleton.mpr no_start⟩
      · exact ⟨ops, g, reason, [], rfl, ended, nofun⟩
    · rintro ⟨front, g, reason, back, split_ops, ended, quiet⟩
      rcases List.eq_nil_or_concat back with rfl | ⟨back, op', rfl⟩
      · obtain ⟨rfl, e⟩ := List.append_inj' split_ops rfl
        obtain rfl := List.singleton_inj.mp e
        exact ⟨⟨nofun, nofun⟩, .inr ⟨g, reason, rfl, ended⟩⟩
      · rw [List.concat_eq_append] at split_ops quiet
        rw [← List.cons_append, ← List.append_assoc] at split_ops
        obtain ⟨rfl, e⟩ := List.append_inj' split_ops rfl
        obtain rfl := List.singleton_inj.mp e
        obtain ⟨quiet, no_start⟩ := List.forall_mem_append.mp quiet
        exact ⟨no_start op (List.mem_singleton_self op),
          .inl ⟨front, g, reason, back, rfl, ended, quiet⟩⟩

/-- Whatever is done to a new machine, between two places where the numbers of retries start anew
its failures lead to the retries that the policy allows, numbered from one on, and then to
exhaustion, which lasts until an attempt is started. -/
theorem retries_performAll_new (policy : RetryPolicy) (ops : List Operation) :
    Retries policy ops where
  flatten_pieces := flatten_pieces _ ops
  outcome_eq piece inside n v at_n := by
    have counted : (new policy).attempts = min 0 (new policy).policy.maxAttempts :=
      (Nat.zero_min _).symm
    obtain ⟨first, others, cut, first_numbered, others_numbered⟩ := exists_pieces_eq counted ops
    have numbered : NumberedFrom policy 0 piece := by
      rw [cut] at inside
      rcases List.mem_cons.mp inside with rfl | inside
      · exact first_numbered
      · exact others_numbered piece inside
    simpa using numbered n v at_n
  exhausted_iff := exhausted_performAll_iff rfl ops

/-- A connection that is attempted again by itself after it was given up is given up at once. -/
example : (new ⟨1, 2000⟩).pieces [.beginAttempt, .onFailure 1 "refused", .close, .beginAttempt,
      .onFailure 3 "refused", .beginAttempt, .onFailure 4 "refused", .manualRetry,
      .onFailure 5 "refused"] =
    [[⟨1, .retry 1 1 2000⟩, ⟨3, .exhausted⟩, ⟨4, .exhausted⟩], [⟨5, .retry 5 1 2000⟩]] := rfl

end Machine

end Quoteboard.Connection
