import Quoteboard.Proofs.Connection.Operations

/-!
# The life of a generation

Every attempt has a generation of its own. What a machine accepts of it is its opening, once at
most, and then its end, once at most; which of the two can still come is all that the machine keeps
of its past. As soon as something else takes its place the generation is over, for good. What is not
accepted leaves no trace.
-/

namespace Quoteboard.Connection

/-- What an event means to the attempt that it is of. -/
inductive Milestone where
  | opening
  | ending
  deriving DecidableEq, Repr

/-- What may come after it. -/
def Milestone.after : Milestone → List Milestone
  | .opening => [.ending]
  | .ending => []

/-- The attempt that an operation tells of, and what it means to it, if it tells of one. -/
def Operation.event? : Operation → Option (Generation × Milestone)
  | .onOpen g => some (g, .opening)
  | .onFailure g _ | .onClosed g => some (g, .ending)
  | .beginAttempt | .manualRetry | .close => none

namespace Machine

/-- Whether the answer to an operation is that the event it tells of is stale. -/
def rejects (m : Machine) : Operation → Bool
  | .onOpen g => !(m.onOpen g).2
  | .onFailure g reason => (m.onFailure g reason).2 = .stale
  | .onClosed g => !(m.onClosed g).2
  | .beginAttempt | .manualRetry | .close => false

/-- Whether an operation takes the place of whatever was before it: it starts an attempt, or it is
a closing of what is not closed yet. -/
def supersedes (m : Machine) : Operation → Bool
  | .beginAttempt | .manualRetry => true
  | .close => m.close.2
  | .onOpen _ | .onFailure .. | .onClosed _ => false

/-- The generation of the attempt that an operation starts, if it starts one. -/
def started? (m : Machine) : Operation → Option Generation
  | .beginAttempt => some m.beginAttempt.2.generation
  | .manualRetry => some m.manualRetry.2.generation
  | .onOpen _ | .onFailure .. | .onClosed _ | .close => none

/-- What the machine accepts of a generation by an operation, if it is of that generation and not
rejected. -/
def accepted? (m : Machine) (g : Generation) (op : Operation) : Option Milestone :=
  match op.event? with
  | some (g', s) => if g' = g ∧ m.rejects op = false then some s else none
  | none => none

/-- The generations of the attempts that are started by operations, in order. -/
def started (m : Machine) : List Operation → List Generation
  | [] => []
  | op :: ops => (m.started? op).toList ++ (m.perform op).started ops

/-- What is accepted of a generation along operations, in order. -/
def accepted (m : Machine) (g : Generation) : List Operation → List Milestone
  | [] => []
  | op :: ops => (m.accepted? g op).toList ++ (m.perform op).accepted g ops

/-- What may still be accepted of a generation, in order. -/
def awaited (m : Machine) (g : Generation) : List Milestone :=
  if m.generation < g then [.opening, .ending]
  else if g = m.generation then
    match m.state with
    | .connecting => [.opening, .ending]
    | .connected => [.ending]
    | .disconnected | .error => []
  else []

/-- A generation that is over for a machine: whatever is told of it is stale, and no retry is due
for it. -/
structure Ignores (m : Machine) (g : Generation) : Prop where
  onOpen : (m.onOpen g).2 = false
  onFailure : ∀ reason, (m.onFailure g reason).2 = .stale
  onClosed : (m.onClosed g).2 = false
  retryDue : m.retryDue g = false

/-- How generations fare along operations. -/
structure Generations (m : Machine) (ops : List Operation) : Prop where
  /-- Each attempt has a greater generation than those before it. -/
  pairwise_lt : (m.started ops).Pairwise (· < ·)
  le_generation : ∀ g ∈ m.started ops, g ≤ (m.performAll ops).generation
  /-- Of each generation an opening is accepted at most, and an end at most, and in this order. -/
  accepted_sublist : ∀ g, (m.accepted g ops).Sublist [.opening, .ending]
  /-- An event is accepted exactly if it is of the current generation, which still awaits it. -/
  rejects_iff : ∀ op g s, op.event? = some (g, s) →
    ((m.performAll ops).rejects op = false ↔
      g = (m.performAll ops).generation ∧ s ∈ (m.performAll ops).awaited g)
  /-- When something has taken the place of a generation, it is over for the rest. -/
  superseded : ∀ (front : List Operation) (op : Operation) (mid back : List Operation),
    ops = front ++ op :: mid ++ back → (m.performAll front).supersedes op = true →
      ∀ g ≤ (m.performAll front).generation, (m.performAll (front ++ op :: mid)).Ignores g
  /-- What is rejected leaves the whole machine as it is. -/
  unchanged : ∀ (front : List Operation) (op : Operation) (back : List Operation),
    ops = front ++ op :: back → (m.performAll front).rejects op = true →
      m.performAll (front ++ [op]) = m.performAll front

variable {m : Machine} {op : Operation} {ops more : List Operation} {g : Generation}
  {s : Milestone}

theorem performAll_cons : m.performAll (op :: ops) = (m.perform op).performAll ops := rfl

theorem performAll_append : m.performAll (ops ++ more) = (m.performAll ops).performAll more :=
  List.foldl_append

/-! ### What is accepted -/

theorem awaited_of_lt (h : m.generation < g) : m.awaited g = [.opening, .ending] := if_pos h

theorem awaited_of_gt (h : g < m.generation) : m.awaited g = [] := by
  rw [awaited, if_neg (Nat.not_lt.mpr (Nat.le_of_lt h)), if_neg (Nat.ne_of_lt h)]

theorem awaited_self (m : Machine) :
    m.awaited m.generation = match m.state with
      | .connecting => [.opening, .ending]
      | .connected => [.ending]
      | .disconnected | .error => [] := by
  rw [awaited, if_neg (Nat.lt_irrefl _), if_pos rfl]

/-- Some end is awaited of the current generation just while the machine is active. -/
theorem ending_mem_awaited_self : .ending ∈ m.awaited m.generation ↔ m.isActive = true := by
  rw [awaited_self]
  cases h : m.state <;> simp [isActive, h]

/-- Its opening is awaited just while the machine is connecting. -/
theorem opening_mem_awaited_self :
    .opening ∈ m.awaited m.generation ↔ m.state = .connecting := by
  rw [awaited_self]
  cases h : m.state <;> simp

private theorem onFailure_stale_iff (reason : String) :
    (m.onFailure g reason).2 = .stale ↔ ¬(g = m.generation ∧ m.isActive = true) := by
  unfold onFailure
  split
  · next h => split <;> simp [h]
  · next h => simp [h]

/-- An event is accepted exactly if it is of the current generation, which still awaits it. -/
theorem rejects_eq_false_iff (h : op.event? = some (g, s)) :
    m.rejects op = false ↔ g = m.generation ∧ s ∈ m.awaited g := by
  cases op with
  | beginAttempt => cases h
  | manualRetry => cases h
  | close => cases h
  | onOpen g' =>
    cases h
    have : m.rejects (.onOpen g) = false ↔ g = m.generation ∧ m.state = .connecting := by
      simp only [rejects, onOpen]
      split <;> simp_all
    rw [this, ← opening_mem_awaited_self]
    exact and_congr_right fun e ↦ by rw [e]
  | onFailure g' reason =>
    cases h
    have : m.rejects (.onFailure g reason) = false ↔ g = m.generation ∧ m.isActive = true := by
      rw [rejects, decide_eq_false_iff_not, onFailure_stale_iff, Decidable.not_not]
    rw [this, ← ending_mem_awaited_self]
    exact and_congr_right fun e ↦ by rw [e]
  | onClosed g' =>
    cases h
    have : m.rejects (.onClosed g) = false ↔ g = m.generation ∧ m.isActive = true := by
      simp only [rejects, onClosed]
      split <;> simp_all
    rw [this, ← ending_mem_awaited_self]
    exact and_congr_right fun e ↦ by rw [e]

/-- What is rejected leaves the machine as it is. -/
theorem perform_of_rejects (h : m.rejects op = true) : m.perform op = m := by
  cases op with
  | beginAttempt => cases h
  | manualRetry => cases h
  | close => cases h
  | onOpen g =>
    simp only [rejects, perform, onOpen] at h ⊢
    split <;> simp_all
  | onFailure g reason =>
    rw [rejects, decide_eq_true_iff, onFailure_stale_iff] at h
    rw [perform, onFailure, if_neg h]
  | onClosed g =>
    simp only [rejects, perform, onClosed] at h ⊢
    split <;> simp_all

/-! ### What an operation does to generations -/

/-- A generation other than the current one is over, or has yet to come. -/
theorem ignores_of_ne (h : g ≠ m.generation) : m.Ignores g where
  onOpen := by simp [Machine.onOpen, h]
  onFailure reason := by simp [Machine.onFailure, h]
  onClosed := by simp [Machine.onClosed, h]
  retryDue := by simp [Machine.retryDue, h]

/-- Only what takes the place of what was before moves on to the next generation. -/
theorem generation_perform :
    (m.perform op).generation = if m.supersedes op then m.generation + 1 else m.generation := by
  cases op with
  | beginAttempt => rfl
  | manualRetry => rfl
  | close =>
    simp only [perform, supersedes, close]
    split <;> rfl
  | onOpen g =>
    simp only [perform, supersedes, onOpen]
    split <;> rfl
  | onFailure g reason =>
    simp only [perform, supersedes, onFailure]
    split
    · split <;> rfl
    · rfl
  | onClosed g =>
    simp only [perform, supersedes, onClosed]
    split <;> rfl

theorem generation_le_perform : m.generation ≤ (m.perform op).generation := by
  rw [generation_perform]
  split
  · exact Nat.le_succ _
  · exact Nat.le_refl _

theorem generation_le_performAll : m.generation ≤ (m.performAll ops).generation := by
  induction ops generalizing m with
  | nil => exact Nat.le_refl _
  | cons op ops ih => exact Nat.le_trans generation_le_perform ih

/-- An attempt is started under the next generation. -/
theorem of_started?_eq_some (h : m.started? op = some g) :
    m.supersedes op = true ∧ g = m.generation + 1 := by
  cases op with
  | beginAttempt => exact ⟨rfl, (Option.some.inj h).symm⟩
  | manualRetry => exact ⟨rfl, (Option.some.inj h).symm⟩
  | close => cases h
  | onOpen _ => cases h
  | onFailure _ _ => cases h
  | onClosed _ => cases h

theorem accepted?_eq_some_iff :
    m.accepted? g op = some s ↔
      op.event? = some (g, s) ∧ g = m.generation ∧ s ∈ m.awaited g := by
  unfold accepted?
  constructor
  · intro h
    split at h
    · next g' s' he =>
      split at h
      · next ha =>
        cases h
        obtain ⟨rfl, hr⟩ := ha
        exact ⟨he, (rejects_eq_false_iff he).mp hr⟩
      · cases h
    · cases h
  · rintro ⟨he, ha⟩
    rw [he]
    simp [(rejects_eq_false_iff he).mpr ha]

/-- What an accepted event leaves to be awaited is what comes after it. -/
theorem awaited_perform_of_accepted (h : m.accepted? g op = some s) :
    (m.perform op).generation = m.generation ∧ (m.perform op).awaited g = s.after := by
  obtain ⟨he, rfl, ha⟩ := accepted?_eq_some_iff.mp h
  have same : (m.perform op).generation = m.generation := by
    rw [generation_perform]
    cases op <;> first | rfl | cases he
  have current := (m.perform op).awaited_self
  rw [same] at current
  refine ⟨same, current.trans ?_⟩
  cases op with
  | beginAttempt => cases he
  | manualRetry => cases he
  | close => cases he
  | onOpen g' =>
    cases he
    rw [opening_mem_awaited_self] at ha
    rw [perform, onOpen_of_connecting ha]
    rfl
  | onFailure g' reason =>
    cases he
    rw [ending_mem_awaited_self] at ha
    by_cases left : m.attempts < m.policy.maxAttempts
    · rw [perform, onFailure_of_lt ha left]
      rfl
    · rw [perform, onFailure_of_le ha (Nat.not_lt.mp left)]
      rfl
  | onClosed g' =>
    cases he
    rw [ending_mem_awaited_self] at ha
    rw [perform, onClosed_of_active ha]
    rfl

/-- What an operation can do about generations: move on to the next one, do nothing at all, or have
an event of the current one accepted. -/
theorem perform_cases (m : Machine) (op : Operation) :
    (m.supersedes op = true ∧ ∀ g, m.accepted? g op = none) ∨
    (m.perform op = m ∧ ∀ g, m.accepted? g op = none) ∨
    ∃ s, m.accepted? m.generation op = some s := by
  cases hs : m.supersedes op with
  | true =>
    refine .inl ⟨rfl, fun g ↦ ?_⟩
    cases op <;> first | rfl | cases hs
  | false =>
    cases he : op.event? with
    | none =>
      refine .inr (.inl ⟨?_, fun g ↦ by rw [accepted?, he]⟩)
      cases op with
      | close =>
        simp only [supersedes, perform, Machine.close] at hs ⊢
        split <;> simp_all
      | beginAttempt => cases hs
      | manualRetry => cases hs
      | onOpen _ => cases he
      | onFailure _ _ => cases he
      | onClosed _ => cases he
    | some e =>
      cases hr : m.rejects op with
      | true =>
        exact .inr (.inl ⟨perform_of_rejects hr, fun g ↦ by simp [accepted?, he, hr]⟩)
      | false =>
        have ha := (rejects_eq_false_iff he).mp hr
        exact .inr (.inr ⟨e.2, accepted?_eq_some_iff.mpr ⟨ha.1 ▸ he, rfl, ha.1 ▸ ha.2⟩⟩)

private theorem awaited_cases (m : Machine) (g : Generation) :
    m.awaited g = [.opening, .ending] ∨ m.awaited g = [.ending] ∨ m.awaited g = [] := by
  unfold awaited
  split
  · exact .inl rfl
  · split
    · cases m.state <;> simp
    · exact .inr (.inr rfl)

private theorem awaited_sublist (m : Machine) (g : Generation) :
    (m.awaited g).Sublist [.opening, .ending] := by
  rcases m.awaited_cases g with h | h | h <;> simp [h]

private theorem cons_after_sublist (h : s ∈ m.awaited g) :
    (s :: s.after).Sublist (m.awaited g) := by
  rcases m.awaited_cases g with ha | ha | ha <;> rw [ha] at h ⊢ <;> cases s <;>
    simp [Milestone.after] at h ⊢

/-- What an operation leaves to be awaited of a generation comes after what it has accepted. -/
theorem accepted?_append_awaited (m : Machine) (op : Operation) (g : Generation) :
    ((m.accepted? g op).toList ++ (m.perform op).awaited g).Sublist (m.awaited g) := by
  rcases m.perform_cases op with ⟨hs, hn⟩ | ⟨same, hn⟩ | ⟨s, ha⟩
  · rw [hn]
    rcases Nat.lt_or_ge m.generation g with hg | hg
    · rw [awaited_of_lt hg]
      exact awaited_sublist _ g
    · have next : g < (m.perform op).generation := by
        rw [generation_perform, if_pos hs]
        exact Nat.lt_succ_of_le hg
      rw [awaited_of_gt next]
      exact List.nil_sublist _
  · rw [hn, same]
    exact .refl _
  · obtain ⟨same, after⟩ := awaited_perform_of_accepted ha
    obtain ⟨he, -, hm⟩ := accepted?_eq_some_iff.mp ha
    by_cases hg : g = m.generation
    · rw [hg, ha, after]
      exact cons_after_sublist hm
    · have other : m.accepted? g op = none :=
        Option.eq_none_iff_forall_ne_some.mpr fun _ h ↦ hg (accepted?_eq_some_iff.mp h).2.1
      rw [other]
      simp [awaited, same, hg]

/-! ### Generations along operations -/

/-- What is accepted of a generation along operations, and what may still be, was awaited at first,
in this order. -/
theorem accepted_append_awaited (m : Machine) (ops : List Operation) (g : Generation) :
    (m.accepted g ops ++ (m.performAll ops).awaited g).Sublist (m.awaited g) := by
  induction ops generalizing m with
  | nil => exact .refl _
  | cons op ops ih =>
    rw [accepted, List.append_assoc]
    exact ((List.Sublist.refl _).append (ih (m.perform op))).trans
      (m.accepted?_append_awaited op g)

/-- Attempts are started under generations that come after the present one. -/
theorem lt_of_mem_started (h : g ∈ m.started ops) :
    m.generation < g ∧ g ≤ (m.performAll ops).generation := by
  induction ops generalizing m with
  | nil => cases h
  | cons op ops ih =>
    rw [started, List.mem_append, Option.mem_toList] at h
    rcases h with h | h
    · obtain ⟨hs, rfl⟩ := of_started?_eq_some h
      refine ⟨Nat.lt_succ_self _, ?_⟩
      rw [performAll_cons]
      exact Nat.le_trans (by simp [generation_perform, hs]) generation_le_performAll
    · obtain ⟨hlt, hle⟩ := ih h
      exact ⟨Nat.lt_of_le_of_lt generation_le_perform hlt, hle⟩

/-- Attempts are started under increasing generations. -/
theorem pairwise_started (m : Machine) (ops : List Operation) :
    (m.started ops).Pairwise (· < ·) := by
  induction ops generalizing m with
  | nil => exact .nil
  | cons op ops ih =>
    rw [started, List.pairwise_append]
    refine ⟨?_, ih _, fun g hg g' hg' ↦ ?_⟩
    · cases m.started? op <;> simp
    · obtain ⟨hs, rfl⟩ := of_started?_eq_some (Option.mem_toList.mp hg)
      have lt := (lt_of_mem_started hg').1
      rwa [generation_perform, if_pos hs] at lt

/-- A generation that something has taken the place of stays over. -/
theorem ignores_of_supersedes (h : m.supersedes op = true) (hg : g ≤ m.generation) :
    (m.performAll (op :: ops)).Ignores g := by
  refine ignores_of_ne (Nat.ne_of_lt ?_)
  calc g < m.generation + 1 := Nat.lt_succ_of_le hg
    _ = (m.perform op).generation := by rw [generation_perform, if_pos h]
    _ ≤ (m.performAll (op :: ops)).generation := generation_le_performAll

/-- Whatever is done to a new machine, and whatever generations it is told of, each generation is
used once: it is given to one attempt, of which an opening and then an end are accepted at most, and
once something else has taken its place it is over for good. What is not accepted changes
nothing. -/
theorem generations_performAll_new (policy : RetryPolicy) (ops : List Operation) :
    Generations (new policy) ops where
  pairwise_lt := pairwise_started _ ops
  le_generation _ hg := (lt_of_mem_started hg).2
  accepted_sublist g :=
    ((List.sublist_append_left _ _).trans (accepted_append_awaited _ ops g)).trans
      (awaited_sublist _ g)
  rejects_iff _ _ _ he := rejects_eq_false_iff he
  superseded front op mid back _ hs g hg := by
    rw [performAll_append]
    exact ignores_of_supersedes hs hg
  unchanged front op back _ hr := by
    rw [performAll_append]
    exact perform_of_rejects hr

end Machine

end Quoteboard.Connection
