import Quoteboard.Config.Settings
import Quoteboard.Proofs.Json.Lexemes
import Quoteboard.Proofs.Viewer.Rendering

/-!
# Which windows can be used

Settings are refused for a window of zero only, but a viewer reserves the storage of a whole window
as soon as it meets an instrument. So some windows are accepted that fail at the first quote: here
is told which, and that with all others no sequence of messages fails.
-/

namespace Quoteboard.Config

open Quoteboard.Board Quoteboard.Client Quoteboard.Json Quoteboard.Market Quoteboard.Text
open Quoteboard.Viewer (Consumer messages)

/-- Whether a viewer with these settings takes in whatever comes: the storage of a series can be
reserved, and neither its aggregator nor the viewer itself fails on any sequence. -/
structure ViewerSettings.IsUsable (s : ViewerSettings) : Prop where
  window_le : s.window * sampleBytes ≤ maxReservation
  ingests : ∀ ss, ∃ a, (Aggregator.new s.window).ingestAll? ss = some a
  handles : ∀ events, ∃ answers, (Consumer.new s.window s.labels).answers? events = some answers

/-- What settings that are read from variables make of their window. -/
structure ReadsWindow (lookup : Lookup) (s : ViewerSettings) : Prop where
  window_eq : s.window = number lookup .window maxUInt64 ViewerSettings.default.window
  window_pos : 0 < s.window
  window_le : s.window ≤ maxUInt64
  /-- The aggregator takes in messages if the storage of a series can be reserved, or none is called
  for. -/
  ingests_iff : ∀ ss, (∃ a, (Aggregator.new s.window).ingestAll? ss = some a) ↔
    s.window * sampleBytes ≤ maxReservation ∨ ∀ m ∈ ss, m.quotes = []
  /-- So does the viewer. -/
  handles_iff : ∀ events,
    (∃ answers, (Consumer.new s.window s.labels).answers? events = some answers) ↔
      s.window * sampleBytes ≤ maxReservation ∨ ∀ m ∈ messages events, m.quotes = []
  isUsable_iff : s.IsUsable ↔ s.window ≤ 384307168202282325

variable {lookup : Lookup}

/-! ### Numbers that are read -/

/-- A number that must not be zero is the one that is read, and is not zero. -/
theorem nonzero_eq_ok_iff {v : Variable} {bound fallback n : Nat} {refusal : ConfigError} :
    nonzero lookup v bound fallback refusal = .ok n ↔
      number lookup v bound fallback = n ∧ n ≠ 0 := by
  simp only [nonzero]
  split
  · next zero => simp +contextual [zero, eq_comm]
  · next some_number =>
    rw [Except.ok.injEq]
    exact ⟨fun e ↦ ⟨e, e ▸ some_number⟩, And.left⟩

/-- A number that is read is within bounds if its default is. -/
theorem number_le {v : Variable} {bound fallback : Nat} (h : fallback ≤ bound) :
    number lookup v bound fallback ≤ bound := by
  rw [number]
  cases found : number? lookup v bound with
  | none => exact h
  | some n =>
    obtain ⟨text, -, read⟩ := Option.bind_eq_some_iff.mp found
    exact le_of_unsigned? read

/-- The window of settings that are accepted is the number that is read, which is not zero. -/
theorem window_of_ofLookup {s : Settings} (accepted : Settings.ofLookup lookup = .ok s) :
    number lookup .window maxUInt64 ViewerSettings.default.window = s.viewer.window ∧
      s.viewer.window ≠ 0 := by
  obtain ⟨relay, -, accepted⟩ := bind_eq_ok_iff.mp accepted
  obtain ⟨viewer, read, e⟩ := bind_eq_ok_iff.mp accepted
  cases e
  obtain ⟨window, read_window, read⟩ := bind_eq_ok_iff.mp read
  obtain ⟨labels, -, read⟩ := bind_eq_ok_iff.mp read
  obtain ⟨host, -, read⟩ := bind_eq_ok_iff.mp read
  obtain ⟨port, -, e⟩ := bind_eq_ok_iff.mp read
  cases e
  exact nonzero_eq_ok_iff.mp read_window

/-! ### Storage -/

variable {window : Nat}

/-- A new aggregator takes in messages if the storage of a series can be reserved, or none is called
for. -/
theorem exists_ingestAll?_iff (some_window : window ≠ 0) (ss : List Snapshot) :
    (∃ a, (Aggregator.new window).ingestAll? ss = some a) ↔
      window * sampleBytes ≤ maxReservation ∨ ∀ m ∈ ss, m.quotes = [] := by
  have kept : (Aggregator.new window).window = window :=
    Nat.max_eq_left (Nat.one_le_iff_ne_zero.mpr some_window)
  have reserves : isReservable (Aggregator.new window).window = true ↔
      window * sampleBytes ≤ maxReservation := by rw [kept, isReservable, decide_eq_true_eq]
  rw [← reserves]
  cases h : isReservable (Aggregator.new window).window with
  | true => simp [Aggregator.ingestAll?_of_isReservable h]
  | false => simp [Aggregator.ingestAll?_of_not_isReservable h rfl]

/-- So does a new viewer. -/
theorem exists_answers?_iff (some_window : window ≠ 0) (labels : Chart.Labels)
    (events : List ClientEvent) :
    (∃ answers, (Consumer.new window labels).answers? events = some answers) ↔
      window * sampleBytes ≤ maxReservation ∨ ∀ m ∈ messages events, m.quotes = [] := by
  rw [← exists_ingestAll?_iff some_window]
  simp only [Viewer.answers?_eq, Option.map_eq_some_iff]
  constructor
  · rintro ⟨_, a, ingested, -⟩
    exact ⟨a, ingested⟩
  · rintro ⟨a, ingested⟩
    exact ⟨_, a, ingested, rfl⟩

/-- Settings that are accepted have any window between one and the greatest 64-bit number. Nothing
fails with a window for which storage can be reserved; with any other the first quote fails. -/
theorem readsWindow_of_ofLookup {s : Settings} (accepted : Settings.ofLookup lookup = .ok s) :
    ReadsWindow lookup s.viewer := by
  obtain ⟨read, some_window⟩ := window_of_ofLookup accepted
  have ingests := exists_ingestAll?_iff some_window
  have handles := exists_answers?_iff some_window s.viewer.labels
  have bound : s.viewer.window * sampleBytes ≤ maxReservation ↔
      s.viewer.window ≤ 384307168202282325 := by
    simp only [sampleBytes, maxReservation]
    omega
  refine ⟨read.symm, Nat.pos_of_ne_zero some_window, ?_, ingests, handles, ?_⟩
  · rw [← read]
    exact number_le (by decide)
  · rw [← bound]
    constructor
    · exact ViewerSettings.IsUsable.window_le
    · intro le
      exact ⟨le, fun ss ↦ (ingests ss).mpr (.inl le), fun events ↦ (handles events).mpr (.inl le)⟩

/-- Variables of which only the window is set. -/
def windowOnly (text : String) : Lookup :=
  fun key ↦ if key = Variable.window.key then some text else none

/-- Settings that are the default ones but for the window. -/
def withWindow (window : Nat) : Settings :=
  { Settings.default with viewer := { ViewerSettings.default with window := window } }

/-- The greatest window that can be used. -/
theorem isUsable_greatest_window :
    Settings.ofLookup (windowOnly "384307168202282325") = .ok (withWindow 384307168202282325) ∧
      (withWindow 384307168202282325).viewer.IsUsable := by
  have accepted : Settings.ofLookup (windowOnly "384307168202282325") =
      .ok (withWindow 384307168202282325) := by rfl
  exact ⟨accepted, (readsWindow_of_ofLookup accepted).isUsable_iff.mpr (Nat.le_refl _)⟩

/-- A window of half the address space is accepted, and fails at the first quote. -/
theorem not_isUsable_huge_window :
    Settings.ofLookup (windowOnly "9223372036854775808") = .ok (withWindow 0x8000000000000000) ∧
      (Aggregator.new 0x8000000000000000).ingestAll? [⟨1, [⟨.id 1, 2.0, 3.0⟩], none⟩] = none ∧
      ¬ (withWindow 0x8000000000000000).viewer.IsUsable := by
  refine ⟨rfl, rfl, fun usable ↦ ?_⟩
  obtain ⟨a, ingested⟩ := usable.ingests [⟨1, [⟨.id 1, 2.0, 3.0⟩], none⟩]
  cases ingested

end Quoteboard.Config
