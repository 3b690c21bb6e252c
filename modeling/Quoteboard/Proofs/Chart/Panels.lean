import Quoteboard.Chart.Frame
import Quoteboard.Proofs.Board.Outcomes
import Quoteboard.Proofs.Text.ByteOrder

/-!
# What an update draws

An update is drawn from a view, and a view is a copy of an aggregator. Between the three nothing is
lost, doubled or moved: an update has one panel for each instrument that was ever quoted, in order,
with all samples that are kept of it, and it shows every position in such an instrument, there and
nowhere else.
-/

namespace Quoteboard.Chart

open Quoteboard.Board Quoteboard.Market

/-- The order of identifiers: numbers by value, then texts by their bytes. -/
def Precedes : Identifier → Identifier → Prop
  | .id m, .id n => m < n
  | .id _, .name _ => True
  | .name _, .id _ => False
  | .name s, .name t => Text.bytes s < Text.bytes t

/-- A view tells what an aggregator holds. -/
structure Agrees (v : View) (a : Aggregator) : Prop where
  version_eq : v.version = a.version
  positions_eq : v.positions = a.positions
  samples_eq : ∀ k, v.samples k = a.samples k
  positionsFor_eq : ∀ k, v.positionsFor k = a.positionsFor k
  /-- One after another, a view gives the instruments in order, each with its samples. -/
  toList_eq : v.series.toList = a.instruments.map fun k ↦ (k, a.samples k)

/-- A panel draws its instrument as an aggregator has it. -/
structure Panel.Draws (p : Panel) (labels : Labels) (a : Aggregator) : Prop where
  bids_eq : p.frame.bids = (a.samples p.frame.instrument).map fun s ↦ ⟨s.time, s.bestBid⟩
  asks_eq : p.frame.asks = (a.samples p.frame.instrument).map fun s ↦ ⟨s.time, s.bestAsk⟩
  length_bids : p.frame.bids.length = p.frame.asks.length
  bids_ne_nil : p.frame.bids ≠ []
  length_le : p.frame.bids.length ≤ a.window
  label_of_some : ∀ label, labels.get? p.frame.instrument = some label → p.frame.label = label
  label_of_none : labels.get? p.frame.instrument = none →
    p.frame.label = p.frame.instrument.display
  positions_eq : p.positions = a.positionsFor p.frame.instrument

/-- An update shows all that an aggregator holds of the instruments that snapshots quote, each at
its own place. -/
structure Update.Partitions (u : Update) (labels : Labels) (ss : List Snapshot)
    (a : Aggregator) : Prop where
  version_eq : u.version = a.version
  /-- Each instrument that was quoted has one panel, and no other has one. -/
  countP_panels : ∀ k,
    u.panels.countP (·.frame.instrument = k) = if k ∈ instrumentsOf ss then 1 else 0
  pairwise_precedes : u.panels.Pairwise fun p q ↦ Precedes p.frame.instrument q.frame.instrument
  draws : ∀ p ∈ u.panels, p.Draws labels a
  /-- The positions in all panels are those in instruments that were quoted, each as often as the
  aggregator has it. -/
  perm_positions : (u.panels.flatMap (·.positions)).Perm
    (a.positions.filter (·.instrument ∈ instrumentsOf ss))
  existsUnique_panel : ∀ x ∈ a.positions, x.instrument ∈ instrumentsOf ss →
    ∃! p, p ∈ u.panels ∧ x ∈ p.positions
  count_positions : ∀ p ∈ u.panels, ∀ x ∈ p.positions, p.positions.count x = a.positions.count x
  not_mem_positions : ∀ x : Position, x.instrument ∉ instrumentsOf ss →
    ∀ p ∈ u.panels, x ∉ p.positions

variable {a : Aggregator} {labels : Labels} {j k : Identifier} {x : Position}

/-! ### The order of instruments -/

/-- Identifiers are compared by their order. -/
theorem compare_eq_lt_iff_precedes : compare j k = .lt ↔ Precedes j k := by
  cases j <;> cases k
  · rw [Identifier.compare_id_id]
    exact compare_lt_iff_lt
  · simp [Identifier.compare_id_name, Precedes]
  · simp [Identifier.compare_name_id, Precedes]
  · rw [Identifier.compare_name_name]
    exact Text.compare_eq_lt_iff

/-! ### Views -/

/-- A series that an aggregator has is the samples that it gives. -/
theorem samples_of_mem {k : Identifier} {series : TimeSeries} (h : (k, series) ∈ a.series.toList) :
    a.samples k = series.toList := by
  have found := (a.series.mem_toList_iff k series).mp h
  simp [Aggregator.samples, found]

/-- A view tells what its aggregator holds. -/
theorem agrees_view (a : Aggregator) : Agrees a.view a where
  version_eq := rfl
  positions_eq := rfl
  samples_eq := View.samples_view a
  positionsFor_eq := View.positionsFor_view a
  toList_eq := by
    rw [Aggregator.instruments, Table.keys, List.map_map]
    refine List.map_congr_left fun e he ↦ ?_
    rw [Function.comp_apply, samples_of_mem he]

/-- An update has a panel for each instrument of the aggregator, in the same order. -/
theorem panels_ofView (a : Aggregator) (labels : Labels) :
    (Update.ofView a.view labels).panels =
      a.instruments.map fun k ↦ Panel.ofView a.view labels k (a.samples k) := by
  rw [Update.ofView, (agrees_view a).toList_eq, List.map_map]
  rfl

/-! ### Positions -/

/-- A position is held in its own instrument. -/
theorem mem_heldIn_iff {ps : List Position} : x ∈ heldIn k ps ↔ x ∈ ps ∧ x.instrument = k := by
  simp [heldIn]

/-- There it is as often as in the whole set. -/
theorem count_heldIn {ps : List Position} (h : x.instrument = k) :
    (heldIn k ps).count x = ps.count x :=
  List.count_filter (by simpa using h)

/-- The positions of distinct instruments are the positions that are in one of these. -/
theorem perm_flatMap_heldIn {ks : List Identifier} (nodup : ks.Nodup) (ps : List Position) :
    (ks.flatMap fun k ↦ heldIn k ps).Perm (ps.filter (·.instrument ∈ ks)) := by
  induction ks with
  | nil => simp
  | cons k ks ih =>
    obtain ⟨fresh, nodup⟩ := List.nodup_cons.mp nodup
    have here : (ps.filter (·.instrument ∈ k :: ks)).filter (·.instrument = k) = heldIn k ps := by
      rw [List.filter_filter, heldIn]
      exact List.filter_congr (by simp +contextual)
    have elsewhere : (ps.filter (·.instrument ∈ k :: ks)).filter
        (fun x ↦ !decide (x.instrument = k)) = ps.filter (·.instrument ∈ ks) := by
      rw [List.filter_filter]
      refine List.filter_congr fun x _ ↦ ?_
      by_cases same : x.instrument = k <;> simp [same, fresh]
    have split := List.filter_append_perm (·.instrument = k) (ps.filter (·.instrument ∈ k :: ks))
    rw [here, elsewhere] at split
    exact ((ih nodup).append_left _).trans split

/-! ### Panels -/

/-- The panel of an instrument that has samples, no more than the window, draws it. -/
theorem draws_ofView (labels : Labels) (kept : a.samples k ≠ [])
    (fits : (a.samples k).length ≤ a.window) :
    (Panel.ofView a.view labels k (a.samples k)).Draws labels a where
  bids_eq := rfl
  asks_eq := rfl
  length_bids := by simp [Panel.ofView, Frame.ofSamples]
  bids_ne_nil := by simpa [Panel.ofView, Frame.ofSamples] using kept
  length_le := by simpa [Panel.ofView, Frame.ofSamples] using fits
  label_of_some label found := by
    have found : labels.get? k = some label := found
    simp [Panel.ofView, Frame.ofSamples, Labels.label, found]
  label_of_none absent := by
    have absent : labels.get? k = none := absent
    simp [Panel.ofView, Frame.ofSamples, Labels.label, absent]
  positions_eq := rfl

/-- The panels of an update are those of the instruments that its aggregator has. -/
theorem mem_panels_iff {p : Panel} : p ∈ (Update.ofView a.view labels).panels ↔
    ∃ k ∈ a.instruments, Panel.ofView a.view labels k (a.samples k) = p := by
  rw [panels_ofView, List.mem_map]

/-- Each instrument that an aggregator has is drawn once. -/
theorem countP_panels (a : Aggregator) (labels : Labels) (k : Identifier) :
    (Update.ofView a.view labels).panels.countP (·.frame.instrument = k) =
      if k ∈ a.instruments then 1 else 0 := by
  rw [panels_ofView, List.countP_map, ← a.nodup_instruments.count, List.count_eq_countP]
  refine List.countP_congr fun j _ ↦ ?_
  simp [Panel.ofView, Frame.ofSamples]

/-- Panels stand in the order of their instruments. -/
theorem pairwise_panels (a : Aggregator) (labels : Labels) :
    (Update.ofView a.view labels).panels.Pairwise fun p q ↦
      Precedes p.frame.instrument q.frame.instrument := by
  rw [panels_ofView, List.pairwise_map]
  exact a.series.pairwise_keys.imp compare_eq_lt_iff_precedes.mp

/-- The positions in all panels are those in the instruments that the aggregator has. -/
theorem perm_panels (a : Aggregator) (labels : Labels) :
    ((Update.ofView a.view labels).panels.flatMap (·.positions)).Perm
      (a.positions.filter (·.instrument ∈ a.instruments)) := by
  rw [panels_ofView, List.flatMap_map]
  exact perm_flatMap_heldIn a.nodup_instruments a.positions

/-- A position that a panel shows is one of the aggregator, in the instrument of the panel. -/
theorem of_mem_positions {p : Panel} (hp : p ∈ (Update.ofView a.view labels).panels)
    (shown : x ∈ p.positions) : x ∈ a.positions ∧ x.instrument ∈ a.instruments ∧
      p = Panel.ofView a.view labels x.instrument (a.samples x.instrument) := by
  obtain ⟨k, known, rfl⟩ := mem_panels_iff.mp hp
  obtain ⟨held, rfl⟩ := mem_heldIn_iff.mp shown
  exact ⟨held, known, rfl⟩

/-- A position in an instrument that the aggregator has is shown in one panel. -/
theorem existsUnique_panel (labels : Labels) (held : x ∈ a.positions)
    (known : x.instrument ∈ a.instruments) :
    ∃! p, p ∈ (Update.ofView a.view labels).panels ∧ x ∈ p.positions :=
  ⟨Panel.ofView a.view labels x.instrument (a.samples x.instrument),
    ⟨mem_panels_iff.mpr ⟨_, known, rfl⟩, mem_heldIn_iff.mpr ⟨held, rfl⟩⟩,
    fun _ ⟨hp, shown⟩ ↦ (of_mem_positions hp shown).2.2⟩

/-! ### All of it -/

/-- An instrument that was quoted has samples, no more than the window. -/
theorem samples_of_mem_instrumentsOf {window : Nat} {ss : List Snapshot}
    (seen : k ∈ instrumentsOf ss) :
    ((Aggregator.new window).ingestAll ss).samples k ≠ [] ∧
      (((Aggregator.new window).ingestAll ss).samples k).length ≤
        ((Aggregator.new window).ingestAll ss).window := by
  have told := (history_ne_nil_iff ss).mpr ((mem_instrumentsOf_iff ss k).mp seen)
  have some_told := List.length_pos_iff.mpr told
  have room := room_pos window
  have window_eq : (Aggregator.new window).window = max window 1 := rfl
  rw [(Aggregator.refines_ingestAll_new window ss).samples_eq, Aggregator.window_ingestAll,
    ← List.length_pos_iff, length_lastOf, window_eq]
  omega

/-- Whatever was ingested, the view tells what the aggregator holds, and the update shows all that
it holds of the instruments that were quoted, each at its own place. -/
theorem partitions_ofView (window : Nat) (ss : List Snapshot) (labels : Labels) :
    Agrees ((Aggregator.new window).ingestAll ss).view ((Aggregator.new window).ingestAll ss) ∧
      (Update.ofView ((Aggregator.new window).ingestAll ss).view labels).Partitions labels ss
        ((Aggregator.new window).ingestAll ss) := by
  have known (k : Identifier) :
      k ∈ ((Aggregator.new window).ingestAll ss).instruments ↔ k ∈ instrumentsOf ss := by
    rw [← Aggregator.toFinset_instruments window, List.mem_toFinset]
  refine ⟨agrees_view _, ⟨rfl, ?_, pairwise_panels _ labels, ?_, ?_, ?_, ?_, ?_⟩⟩
  · intro k
    simp only [countP_panels, known]
  · intro p hp
    obtain ⟨k, seen, rfl⟩ := mem_panels_iff.mp hp
    obtain ⟨kept, fits⟩ := samples_of_mem_instrumentsOf ((known k).mp seen)
    exact draws_ofView labels kept fits
  · have shown := perm_panels ((Aggregator.new window).ingestAll ss) labels
    simpa only [known] using shown
  · intro x held seen
    exact existsUnique_panel labels held ((known _).mpr seen)
  · intro p hp x shown
    obtain ⟨-, -, rfl⟩ := of_mem_positions hp shown
    exact count_heldIn rfl
  · intro x unseen p hp shown
    exact unseen ((known _).mp (of_mem_positions hp shown).2.1)

end Quoteboard.Chart
