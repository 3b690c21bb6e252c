import Quoteboard.Connection.Machine

/-!
# Sound machines

What holds of the fields of a machine together, whatever has happened to it: each operation keeps
it, for every generation and reason it may be given. Beside it stands what the operations do to a
machine that awaits the event, in which case none of them passes the event over.
-/

namespace Quoteboard.Connection.Machine

variable {m : Machine}

/-- The fields of a machine fit together. -/
structure Sound (m : Machine) : Prop where
  attempts_le : m.attempts ≤ m.policy.maxAttempts
  of_connected : m.state = .connected → m.attempts = 0 ∧ m.lastError = none
  of_error : m.state = .error →
    0 < m.attempts ∧ m.lastError.isSome = true ∧ m.exhausted = false ∧ m.closed = false
  of_exhausted : m.exhausted = true →
    m.state = .disconnected ∧ m.attempts = m.policy.maxAttempts ∧ m.lastError.isSome = true
  of_closed : m.closed = true → m.state = .disconnected

/-- An opening that is awaited is accepted. -/
theorem onOpen_of_connecting (h : m.state = .connecting) :
    m.onOpen m.generation =
      ({ m with state := .connected, attempts := 0, lastError := none }, true) := by
  simp [onOpen, h]

/-- A failure while retries are left leads to the next one. -/
theorem onFailure_of_lt (ha : m.isActive = true) (h : m.attempts < m.policy.maxAttempts)
    (reason : String) :
    m.onFailure m.generation reason =
      ({ m with state := .error, attempts := m.attempts + 1, lastError := some reason },
        .retry m.generation (m.attempts + 1) m.policy.delayMillis) := by
  simp [onFailure, ha, h]

/-- A failure when no retries are left ends the connection. -/
theorem onFailure_of_le (ha : m.isActive = true) (h : m.policy.maxAttempts ≤ m.attempts)
    (reason : String) :
    m.onFailure m.generation reason =
      ({ m with state := .disconnected, exhausted := true, lastError := some reason },
        .exhausted) := by
  simp [onFailure, ha, Nat.not_lt.mpr h]

/-- A normal closing of what is active is accepted. -/
theorem onClosed_of_active (ha : m.isActive = true) :
    m.onClosed m.generation = ({ m with state := .disconnected }, true) := by
  simp [onClosed, ha]

/-- A machine that is connecting is active. -/
theorem isActive_of_connecting (h : m.state = .connecting) : m.isActive = true := by
  simp [isActive, h]

/-- A machine that is connected is active. -/
theorem isActive_of_connected (h : m.state = .connected) : m.isActive = true := by
  simp [isActive, h]

/-- Closing leaves the policy, the retries used and the failure as they are. -/
theorem close_fields (m : Machine) :
    m.close.1.policy = m.policy ∧ m.close.1.attempts = m.attempts ∧
      m.close.1.exhausted = m.exhausted ∧ m.close.1.lastError = m.lastError := by
  unfold close
  split <;> exact ⟨rfl, rfl, rfl, rfl⟩

/-- A machine is closed after a closing. -/
theorem closed_close (m : Machine) : m.close.1.closed = true := by
  unfold close
  split
  · next hc => exact hc
  · rfl

/-- A machine that is closed already stays as it is. -/
theorem close_of_closed (h : m.closed = true) : m.close = (m, false) := by
  simp [close, h]

/-- Generations never go back on a closing. -/
theorem generation_le_close (m : Machine) : m.generation ≤ m.close.1.generation := by
  unfold close
  split
  · exact Nat.le_refl _
  · exact Nat.le_succ _

namespace Sound

/-- A machine to which nothing has happened is sound. -/
theorem new (policy : RetryPolicy) : (Machine.new policy).Sound where
  attempts_le := Nat.zero_le _
  of_connected h := nomatch h
  of_error h := nomatch h
  of_exhausted h := nomatch h
  of_closed h := nomatch h

/-- A failure is behind every exhausted machine, so one that is active is not exhausted. -/
theorem exhausted_of_active (h : m.Sound) (ha : m.isActive = true) : m.exhausted = false := by
  cases he : m.exhausted with
  | false => rfl
  | true =>
    have hs := (h.of_exhausted he).1
    simp [isActive, hs] at ha

/-- An active machine is not closed. -/
theorem closed_of_active (h : m.Sound) (ha : m.isActive = true) : m.closed = false := by
  cases hc : m.closed with
  | false => rfl
  | true =>
    have hs := h.of_closed hc
    simp [isActive, hs] at ha

/-- Starting an attempt keeps a machine sound. -/
theorem beginAttempt (h : m.Sound) : m.beginAttempt.1.Sound where
  attempts_le := h.attempts_le
  of_connected h := nomatch h
  of_error h := nomatch h
  of_exhausted h := nomatch h
  of_closed h := nomatch h

/-- So does starting one without the retries used so far. -/
theorem manualRetry (_ : m.Sound) : m.manualRetry.1.Sound where
  attempts_le := Nat.zero_le _
  of_connected h := nomatch h
  of_error h := nomatch h
  of_exhausted h := nomatch h
  of_closed h := nomatch h

/-- An opening, awaited or not, keeps a machine sound. -/
theorem onOpen (h : m.Sound) (g : Generation) : (m.onOpen g).1.Sound := by
  unfold Machine.onOpen
  split
  · next hc =>
    have ha := isActive_of_connecting hc.2
    constructor
    · exact Nat.zero_le _
    · exact fun _ ↦ ⟨rfl, rfl⟩
    · exact nofun
    · intro he
      have := h.exhausted_of_active ha
      simp_all
    · intro hcl
      have := h.closed_of_active ha
      simp_all
  · exact h

/-- A failure, awaited or not, keeps a machine sound. -/
theorem onFailure (h : m.Sound) (g : Generation) (reason : String) :
    (m.onFailure g reason).1.Sound := by
  unfold Machine.onFailure
  split
  · next hc =>
    have he := h.exhausted_of_active hc.2
    have hcl := h.closed_of_active hc.2
    split
    · next hlt =>
      constructor
      · exact hlt
      · exact nofun
      · exact fun _ ↦ ⟨Nat.succ_pos _, rfl, he, hcl⟩
      · exact fun h' ↦ absurd (he.symm.trans h') nofun
      · exact fun h' ↦ absurd (hcl.symm.trans h') nofun
    · next hge =>
      constructor
      · exact h.attempts_le
      · exact nofun
      · exact nofun
      · exact fun _ ↦ ⟨rfl, Nat.le_antisymm h.attempts_le (Nat.not_lt.mp hge), rfl⟩
      · exact fun _ ↦ rfl
  · exact h

/-- A normal closing, awaited or not, keeps a machine sound. -/
theorem onClosed (h : m.Sound) (g : Generation) : (m.onClosed g).1.Sound := by
  unfold Machine.onClosed
  split
  · next hc =>
    have he := h.exhausted_of_active hc.2
    constructor
    · exact h.attempts_le
    · exact nofun
    · exact nofun
    · exact fun h' ↦ absurd (he.symm.trans h') nofun
    · exact fun _ ↦ rfl
  · exact h

/-- Closing keeps a machine sound. -/
theorem close (h : m.Sound) : m.close.1.Sound := by
  unfold Machine.close
  split
  · exact h
  · constructor
    · exact h.attempts_le
    · exact nofun
    · exact nofun
    · exact fun he ↦ ⟨rfl, (h.of_exhausted he).2⟩
    · exact fun _ ↦ rfl

/-- Closing leaves a sound machine disconnected, also when it was closed already. -/
theorem state_close (h : m.Sound) : m.close.1.state = .disconnected := by
  unfold Machine.close
  split
  · next hc => exact h.of_closed hc
  · rfl

/-- A retry is due exactly for the current generation of a machine in the error state. -/
theorem retryDue_iff (h : m.Sound) (g : Generation) :
    m.retryDue g = true ↔ m.state = .error ∧ g = m.generation := by
  constructor
  · intro hd
    simp only [retryDue, Bool.and_eq_true, decide_eq_true_eq] at hd
    exact ⟨hd.1.1.2, hd.1.1.1⟩
  · rintro ⟨hs, rfl⟩
    obtain ⟨-, -, he, hc⟩ := h.of_error hs
    simp [retryDue, hs, he, hc]

end Sound

end Quoteboard.Connection.Machine
