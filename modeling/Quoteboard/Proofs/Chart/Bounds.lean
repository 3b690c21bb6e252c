import Quoteboard.Chart.Frame
import Quoteboard.Proofs.Double.Arithmetic

/-!
# The bounds of the price axis

A bound is found in one pass over all prices, the bids and then the asks, some of which may be no
numbers. Whatever their order, it is the least or the greatest of the numbers among them, moved out
by the padding.
-/

namespace Quoteboard.Chart

open Quoteboard.Board

/-- A price that is a number and comes before all prices that are, in some order. -/
structure IsFirst (before : Float → Float → Prop) (ps : List Float) (p : Float) : Prop where
  mem : p ∈ ps
  isNaN_eq : p.isNaN = false
  before_of_mem : ∀ q ∈ ps, q.isNaN = false → before p q

/-- A bound is the first of the prices, in some order, moved out by a padding. -/
structure Bounds (before : Float → Float → Prop) (pad : Float → Float)
    (bound : List Sample → Option Float) : Prop where
  eq_none_iff : ∀ samples, bound samples = none ↔ samples = []
  exists_isFirst : ∀ samples, (∃ p ∈ prices samples, p.isNaN = false) →
    ∃ p, IsFirst before (prices samples) p
  /-- Two zeros may both be first, and make no difference. -/
  eq_some_of_isFirst : ∀ samples p, IsFirst before (prices samples) p →
    bound samples = some (pad p)
  before_bid : ∀ samples p, IsFirst before (prices samples) p →
    ∀ s ∈ samples, s.bestBid.isNaN = false → before p s.bestBid
  before_ask : ∀ samples p, IsFirst before (prices samples) p →
    ∀ s ∈ samples, s.bestAsk.isNaN = false → before p s.bestAsk
  isNaN_iff : ∀ samples y, bound samples = some y →
    (y.isNaN = true ↔ ∀ p ∈ prices samples, p.isNaN = true)
  eq_of_perm : ∀ samples samples', samples.Perm samples' → bound samples = bound samples'
  /-- Further samples move a bound outwards, if at all. -/
  before_of_append : ∀ samples further, (∃ p ∈ prices samples, p.isNaN = false) →
    ∃ y y', bound samples = some y ∧ bound (samples ++ further) = some y' ∧ before y' y

/-! ### One pass over prices -/

/-- What is left of some prices if one of two is chosen at a time, from the left. -/
def chosen? (choose : Float → Float → Float) : List Float → Option Float
  | [] => none
  | y :: ys => some (ys.foldl choose y)

/-- The first of two numbers is chosen, and a number before what is none. -/
structure Chooses (before : Float → Float → Prop) (choose : Float → Float → Float) : Prop where
  refl : ∀ a, a.isNaN = false → before a a
  trans : ∀ a b c, before a b → before b c → before a c
  of_isNaN_left : ∀ a b, a.isNaN = true → choose a b = b
  of_isNaN_right : ∀ a b, a.isNaN = false → b.isNaN = true → choose a b = a
  of_numbers : ∀ a b, a.isNaN = false → b.isNaN = false →
    choose a b = a ∧ before a b ∨ choose a b = b ∧ before b a

/-- The lesser of two prices is chosen. -/
theorem chooses_lesser : Chooses (· ≤ ·) lesser where
  refl _ := Double.le_refl
  trans _ _ _ := Double.le_trans
  of_isNaN_left a b ha := if_pos ha
  of_isNaN_right a b ha hb := by
    rw [lesser, if_neg (ne_true_of_eq_false ha), if_pos hb]
  of_numbers a b ha hb := by
    rw [lesser, if_neg (ne_true_of_eq_false ha), if_neg (ne_true_of_eq_false hb)]
    by_cases h : a ≤ b
    · exact .inl ⟨if_pos h, h⟩
    · exact .inr ⟨if_neg h, Double.le_of_not_le ha hb h⟩

/-- The greater of two prices is chosen. -/
theorem chooses_greater : Chooses (· ≥ ·) greater where
  refl _ := Double.le_refl
  trans _ _ _ h h' := Double.le_trans h' h
  of_isNaN_left a b ha := if_pos ha
  of_isNaN_right a b ha hb := by
    rw [greater, if_neg (ne_true_of_eq_false ha), if_pos hb]
  of_numbers a b ha hb := by
    rw [greater, if_neg (ne_true_of_eq_false ha), if_neg (ne_true_of_eq_false hb)]
    by_cases h : b ≤ a
    · exact .inl ⟨if_pos h, h⟩
    · exact .inr ⟨if_neg h, Double.le_of_not_le hb ha h⟩

/-- A price that is the first of those that are numbers, or one of those that are none if there are
no others. -/
structure Leads (before : Float → Float → Prop) (ps : List Float) (p : Float) : Prop where
  mem : p ∈ ps
  isFirst_of_mem : ∀ q ∈ ps, q.isNaN = false → p.isNaN = false ∧ before p q

section Chooses

variable {before : Float → Float → Prop} {choose : Float → Float → Float} {ps : List Float}
  {p z : Float}

/-- What is chosen of a leading price and a further one leads them all. -/
theorem Chooses.leads_append_singleton (hc : Chooses before choose) (h : Leads before ps p) :
    Leads before (ps ++ [z]) (choose p z) := by
  have last : z ∈ ps ++ [z] := List.mem_append_right _ (List.mem_singleton_self z)
  have member : p ∈ ps ++ [z] := List.mem_append_left _ h.mem
  have split {q : Float} (hq : q ∈ ps ++ [z]) : q ∈ ps ∨ q = z := by simpa using hq
  cases np : p.isNaN with
  | true =>
    rw [hc.of_isNaN_left p z np]
    refine ⟨last, fun q hq nq ↦ ?_⟩
    rcases split hq with hq | rfl
    · exact absurd (np.symm.trans (h.isFirst_of_mem q hq nq).1) (by decide)
    · exact ⟨nq, hc.refl q nq⟩
  | false =>
    cases nz : z.isNaN with
    | true =>
      rw [hc.of_isNaN_right p z np nz]
      refine ⟨member, fun q hq nq ↦ ?_⟩
      rcases split hq with hq | rfl
      · exact h.isFirst_of_mem q hq nq
      · exact absurd (nz.symm.trans nq) (by decide)
    | false =>
      rcases hc.of_numbers p z np nz with ⟨eq, first⟩ | ⟨eq, first⟩
      · rw [eq]
        refine ⟨member, fun q hq nq ↦ ?_⟩
        rcases split hq with hq | rfl
        · exact h.isFirst_of_mem q hq nq
        · exact ⟨np, first⟩
      · rw [eq]
        refine ⟨last, fun q hq nq ↦ ?_⟩
        rcases split hq with hq | rfl
        · exact ⟨nz, hc.trans z p q first (h.isFirst_of_mem q hq nq).2⟩
        · exact ⟨nz, hc.refl q nz⟩

/-- What is chosen in one pass, from a price that leads those before, leads all prices. -/
theorem Chooses.leads_foldl (hc : Chooses before choose) (h : Leads before ps p)
    (ys : List Float) : Leads before (ps ++ ys) (ys.foldl choose p) := by
  induction ys generalizing ps p with
  | nil => simpa using h
  | cons z ys ih => simpa using ih (hc.leads_append_singleton (z := z) h)

/-- Some price is chosen of any, and leads them. -/
theorem Chooses.exists_leads (hc : Chooses before choose) (some : ps ≠ []) :
    ∃ p, chosen? choose ps = .some p ∧ Leads before ps p := by
  cases ps with
  | nil => exact absurd rfl some
  | cons y ys =>
    have first : Leads before [y] y :=
      ⟨List.mem_singleton_self y, fun q hq nq ↦ by
        obtain rfl := List.mem_singleton.mp hq
        exact ⟨nq, hc.refl q nq⟩⟩
    exact ⟨_, rfl, hc.leads_foldl first ys⟩

end Chooses

/-! ### Padding -/

/-- A padding tells numbers from what is none, keeps the order, and gives the same of prices of
which neither is the only first. -/
structure Pads (before : Float → Float → Prop) (pad : Float → Float) : Prop where
  isNaN_eq : ∀ a, (pad a).isNaN = a.isNaN
  before_pad : ∀ a b, before a b → before (pad a) (pad b)
  eq_of_before : ∀ a b, before a b → before b a → pad a = pad b

/-- The padding is a finite double. -/
theorem isFinite_axisPadding : axisPadding.isFinite = true := by decide +kernel

/-- The padding is not zero. -/
theorem worth_axisPadding_ne_zero : Double.worth axisPadding ≠ 0 := by decide +kernel

/-- The padding is taken from the least price. -/
theorem pads_sub : Pads (· ≤ ·) (· - axisPadding) where
  isNaN_eq a := Double.isNaN_sub a isFinite_axisPadding
  before_pad _ _ := Double.sub_le_sub isFinite_axisPadding
  eq_of_before _ _ := Double.sub_eq_sub isFinite_axisPadding worth_axisPadding_ne_zero

/-- The padding is added to the greatest price. -/
theorem pads_add : Pads (· ≥ ·) (· + axisPadding) where
  isNaN_eq a := Double.isNaN_add a isFinite_axisPadding
  before_pad _ _ := Double.add_le_add isFinite_axisPadding
  eq_of_before _ _ h h' := Double.add_eq_add isFinite_axisPadding worth_axisPadding_ne_zero h' h

section Bounds

variable {before : Float → Float → Prop} {choose : Float → Float → Float} {pad : Float → Float}
  {ps ps' : List Float} {p p' : Float} {samples samples' : List Sample}

/-- The first of the prices leads them. -/
theorem IsFirst.leads (h : IsFirst before ps p) : Leads before ps p :=
  ⟨h.mem, fun q hq nq ↦ ⟨h.isNaN_eq, h.before_of_mem q hq nq⟩⟩

/-- What leads prices of which one is a number is the first of them. -/
theorem Leads.isFirst (h : Leads before ps p) (number : ∃ q ∈ ps, q.isNaN = false) :
    IsFirst before ps p := by
  obtain ⟨q, hq, nq⟩ := number
  exact ⟨h.mem, (h.isFirst_of_mem q hq nq).1, fun r hr nr ↦ (h.isFirst_of_mem r hr nr).2⟩

/-- What leads prices is no number just when none of them is. -/
theorem Leads.isNaN_iff (h : Leads before ps p) :
    p.isNaN = true ↔ ∀ q ∈ ps, q.isNaN = true := by
  refine ⟨fun np q hq ↦ ?_, fun all ↦ all p h.mem⟩
  by_contra nq
  have number := (h.isFirst_of_mem q hq (Bool.eq_false_of_not_eq_true nq)).1
  rw [np] at number
  cases number

/-- All that lead the same prices are the same with the padding. -/
theorem Pads.eq_of_leads (hp : Pads before pad) (h : Leads before ps p)
    (h' : Leads before ps' p') (same : ∀ q, q ∈ ps ↔ q ∈ ps') : pad p = pad p' := by
  have member := (same p).mp h.mem
  have member' := (same p').mpr h'.mem
  cases np : p.isNaN with
  | true => rw [Double.eq_of_isNaN np (h.isNaN_iff.mp np p' member')]
  | false =>
    obtain ⟨np', first'⟩ := h'.isFirst_of_mem p member np
    exact hp.eq_of_before p p' (h.isFirst_of_mem p' member' np').2 first'

/-- There are prices where there are samples. -/
theorem prices_eq_nil_iff : prices samples = [] ↔ samples = [] := by
  simp [prices]

/-- The bid of a sample is one of the prices. -/
theorem mem_prices_bid {s : Sample} (h : s ∈ samples) : s.bestBid ∈ prices samples :=
  List.mem_append_left _ (List.mem_map_of_mem h)

/-- The ask of a sample is one of the prices. -/
theorem mem_prices_ask {s : Sample} (h : s ∈ samples) : s.bestAsk ∈ prices samples :=
  List.mem_append_right _ (List.mem_map_of_mem h)

/-- Prices of samples in another order are those prices. -/
theorem mem_prices_iff_of_perm (h : samples.Perm samples') (q : Float) :
    q ∈ prices samples ↔ q ∈ prices samples' := by
  simp [prices, h.mem_iff]

/-- Further samples add to the prices. -/
theorem mem_prices_append {q : Float} (further : List Sample) (h : q ∈ prices samples) :
    q ∈ prices (samples ++ further) := by
  simp only [prices, List.map_append, List.mem_append] at h ⊢
  tauto

/-- What is chosen of all prices and padded bounds the axis. -/
theorem Chooses.bounds (hc : Chooses before choose) (hp : Pads before pad) :
    Bounds before pad fun samples ↦ (chosen? choose (prices samples)).map pad := by
  have leading (samples : List Sample) (some : samples ≠ []) :
      ∃ p, chosen? choose (prices samples) = .some p ∧ Leads before (prices samples) p :=
    hc.exists_leads (prices_eq_nil_iff.not.mpr some)
  have nonempty {samples : List Sample} {p : Float} (h : p ∈ prices samples) : samples ≠ [] := by
    rintro rfl
    simp [prices] at h
  constructor
  case eq_none_iff =>
    intro samples
    refine ⟨fun none ↦ ?_, by rintro rfl; rfl⟩
    by_contra some
    obtain ⟨p, eq, -⟩ := leading samples some
    simp [eq] at none
  case exists_isFirst =>
    rintro samples ⟨q, hq, nq⟩
    obtain ⟨p, -, leads⟩ := leading samples (nonempty hq)
    exact ⟨p, leads.isFirst ⟨q, hq, nq⟩⟩
  case eq_some_of_isFirst =>
    intro samples p first
    obtain ⟨p', eq, leads⟩ := leading samples (nonempty first.mem)
    rw [eq, Option.map_some, hp.eq_of_leads leads first.leads fun _ ↦ Iff.rfl]
  case before_bid => exact fun samples p first s hs ↦ first.before_of_mem _ (mem_prices_bid hs)
  case before_ask => exact fun samples p first s hs ↦ first.before_of_mem _ (mem_prices_ask hs)
  case isNaN_iff =>
    intro samples y bound
    obtain ⟨p, eq, rfl⟩ := Option.map_eq_some_iff.mp bound
    have some : samples ≠ [] := by
      rintro rfl
      cases eq
    obtain ⟨p', eq', leads⟩ := leading samples some
    obtain rfl : p = p' := Option.some_inj.mp (eq.symm.trans eq')
    rw [hp.isNaN_eq]
    exact leads.isNaN_iff
  case eq_of_perm =>
    intro samples samples' perm
    by_cases none : samples = []
    · subst none
      rw [perm.nil_eq]
    · obtain ⟨p, eq, leads⟩ := leading samples none
      obtain ⟨p', eq', leads'⟩ := leading samples' fun h ↦ none (by simpa [h] using perm)
      rw [eq, eq', Option.map_some, Option.map_some,
        hp.eq_of_leads leads leads' (mem_prices_iff_of_perm perm)]
  case before_of_append =>
    rintro samples further ⟨q, hq, nq⟩
    obtain ⟨p, eq, leads⟩ := leading samples (nonempty hq)
    have first := leads.isFirst ⟨q, hq, nq⟩
    have member := mem_prices_append further first.mem
    obtain ⟨p', eq', leads'⟩ := leading (samples ++ further) (nonempty member)
    refine ⟨pad p, pad p', by rw [eq, Option.map_some], by rw [eq', Option.map_some], ?_⟩
    exact hp.before_pad p' p (leads'.isFirst_of_mem p member first.isNaN_eq).2

end Bounds

/-- The least of some prices is found in one pass. -/
theorem least?_eq : least? = chosen? lesser := by
  funext ps
  cases ps <;> rfl

/-- The greatest of some prices is found in one pass. -/
theorem greatest?_eq : greatest? = chosen? greater := by
  funext ps
  cases ps <;> rfl

/-- The price axis reaches from the least price to the greatest, and further by the padding. -/
theorem Frame.bounds_ofSamples (instrument : Market.Identifier) (label : String) :
    Bounds (· ≤ ·) (· - axisPadding) (fun ss ↦ (ofSamples instrument label ss).yMin) ∧
      Bounds (· ≥ ·) (· + axisPadding) (fun ss ↦ (ofSamples instrument label ss).yMax) := by
  simp only [ofSamples, least?_eq, greatest?_eq]
  exact ⟨chooses_lesser.bounds pads_sub, chooses_greater.bounds pads_add⟩

/-- The first bid is no number, and in the last sample the bid is above the ask. -/
example : (Frame.ofSamples (.id 1) "" [⟨0.0, 0.0 / 0.0, 2.0⟩, ⟨1.0, 5.0, 1.0⟩]).yMin = some 0.0 ∧
    (Frame.ofSamples (.id 1) "" [⟨0.0, 0.0 / 0.0, 2.0⟩, ⟨1.0, 5.0, 1.0⟩]).yMax = some 6.0 := by
  decide +kernel

end Quoteboard.Chart
