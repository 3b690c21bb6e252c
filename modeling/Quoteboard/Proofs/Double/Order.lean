import Mathlib

/-!
# The order of doubles

A double that is a number is worth an integral number of least positive doubles, an infinity as
much as the first power of two out of reach. Doubles compare as their worths do, and two of one
worth are the same or are both zero.
-/

namespace Quoteboard.Double

open Float.Model Float.Model.UnpackedFloat

-- The weight and the worth are sealed, lest a proof computes the power.
/-- The greatest weight of a finite double. -/
@[irreducible]
def heaviest : ℕ := 2045

/-- The worth of positive infinity: the first power of two that is no finite double. -/
@[irreducible]
def ceiling : ℕ := 2 ^ (53 + heaviest)

/-- A significand at a weight as doubles hold it: of at most 53 binary digits, and of fewer at the
least weight alone. -/
structure Held (m k : ℕ) : Prop where
  lt : m < 2 ^ 53
  full : k = 0 ∨ 2 ^ 52 ≤ m

/-- What an unpacked double is worth. The least positive double is worth one. -/
def units : UnpackedFloat → ℤ
  | .infinity s => s.apply ceiling
  | .notANumber => 0
  | .zero _ => 0
  | .finite s m e _ => s.apply ↑(m * 2 ^ (e + 1074).toNat)

/-- The unpacked doubles there are. The exponent is that of the least positive double, raised by
the weight. -/
inductive Canonical : UnpackedFloat → Prop
  | infinity (s : Sign) : Canonical (.infinity s)
  | notANumber : Canonical .notANumber
  | zero (s : Sign) : Canonical (.zero s)
  | finite (s : Sign) (m k : ℕ) (pos : 0 < m) : Held m k → k ≤ heaviest →
      Canonical (.finite s m (k - 1074) pos)

/-- A finite double is worth its significand times two to its weight. -/
@[simp]
theorem units_finite (s : Sign) (m k : ℕ) (pos : 0 < m) :
    units (.finite s m (k - 1074) pos) = s.apply ↑(m * 2 ^ k) := by
  simp [units]

/-! ### Significands and weights -/

/-- What a significand of 53 digits could be more is a digit less at the next weight. -/
theorem two_pow_carry (k : ℕ) : 2 ^ 53 * 2 ^ k = 2 ^ 52 * 2 ^ (k + 1) := by
  rw [pow_succ 2 k]
  ring

/-- A significand that is not zero is worth something at any weight. -/
theorem cast_mul_two_pow_pos {m : ℕ} (pos : 0 < m) (k : ℕ) : (0 : ℤ) < ↑(m * 2 ^ k) :=
  Int.natCast_pos.mpr (Nat.mul_pos pos (Nat.two_pow_pos k))

/-- A sign does not change how much something is worth. -/
theorem abs_apply (s : Sign) (n : ℕ) : |s.apply n| = n := by
  cases s with
  | negative => rw [Sign.apply, abs_neg, Nat.abs_cast]
  | positive => rw [Sign.apply, Nat.abs_cast]

/-- The first digit of a significand is not written. -/
theorem toNat_one_append (m : BitVec 52) : (1#1 ++ m).toNat = 2 ^ 52 + m.toNat := by
  rw [BitVec.toNat_append, ← Nat.shiftLeft_add_eq_or_of_lt m.isLt]
  rfl

namespace Held

variable {m n k l : ℕ}

/-- A significand at a lesser weight is worth less. -/
theorem mul_two_pow_lt (hm : Held m k) (hn : Held n l) (h : k < l) : m * 2 ^ k < n * 2 ^ l := by
  have full : 2 ^ 52 ≤ n := hn.full.resolve_left (by omega)
  calc m * 2 ^ k < 2 ^ 53 * 2 ^ k := Nat.mul_lt_mul_of_pos_right hm.lt (Nat.two_pow_pos k)
    _ = 2 ^ 52 * 2 ^ (k + 1) := two_pow_carry k
    _ ≤ n * 2 ^ l := Nat.mul_le_mul full (Nat.pow_le_pow_right (by decide) h)

/-- What significands are worth compares as the weights do, and then as the significands. -/
theorem compare_mul_two_pow (hm : Held m k) (hn : Held n l) :
    compare (m * 2 ^ k) (n * 2 ^ l) = (compare k l).then (compare m n) := by
  rcases lt_trichotomy k l with h | rfl | h
  · rw [compare_lt_iff_lt.mpr h, compare_lt_iff_lt.mpr (hm.mul_two_pow_lt hn h)]
    rfl
  · rw [compare_eq_iff_eq.mpr rfl, Ordering.eq_then]
    have same (a b : ℕ) : compare (a * 2 ^ k) (b * 2 ^ k) = compare a b := by
      simp [Nat.compare_eq_ite_lt, Nat.mul_lt_mul_right (Nat.two_pow_pos k)]
    exact same m n
  · rw [compare_gt_iff_gt.mpr h, compare_gt_iff_gt.mpr (hn.mul_two_pow_lt hm h)]
    rfl

/-- No finite double is worth as much as an infinity. -/
theorem mul_two_pow_lt_ceiling (hm : Held m k) (h : k ≤ heaviest) : m * 2 ^ k < ceiling := by
  rw [ceiling, pow_add]
  exact Nat.mul_lt_mul_of_lt_of_le hm.lt (Nat.pow_le_pow_right (by decide) h)
    (Nat.two_pow_pos heaviest)

/-- Weights are compared as the exponents they are told by. -/
theorem compare_units (hm : Held m k) (hn : Held n l) :
    (compare ((k : ℤ) - 1074) (l - 1074)).then (compare m n) =
      compare (↑(m * 2 ^ k) : ℤ) ↑(n * 2 ^ l) := by
  have exponents : compare ((k : ℤ) - 1074) (l - 1074) = compare k l := by
    simp [compare, compareOfLessAndEq]
  have cast : compare (↑(m * 2 ^ k) : ℤ) ↑(n * 2 ^ l) = compare (m * 2 ^ k) (n * 2 ^ l) := by
    simp only [compare, compareOfLessAndEq, Int.ofNat_lt, Int.natCast_inj]
  rw [exponents, cast, hm.compare_mul_two_pow hn]

end Held

/-! ### Comparing -/

/-- There is an end to the finite doubles. -/
theorem ceiling_pos : 0 < ceiling := by
  rw [ceiling]
  exact Nat.two_pow_pos _

/-- The opposites of integers compare the other way round. -/
theorem compare_neg_neg (u v : ℤ) : compare (-u) (-v) = (compare u v).swap := by
  rcases lt_trichotomy u v with h | rfl | h
  · rw [compare_lt_iff_lt.mpr h, compare_gt_iff_gt.mpr (neg_lt_neg h)]
    rfl
  · rw [compare_eq_iff_eq.mpr rfl, compare_eq_iff_eq.mpr rfl]
    rfl
  · rw [compare_gt_iff_gt.mpr h, compare_lt_iff_lt.mpr (neg_lt_neg h)]
    rfl

/-- What is worth less comes out as less. -/
theorem some_lt_eq {u v : ℤ} (h : u < v) : some Ordering.lt = some (compare u v) :=
  congrArg some (compare_lt_iff_lt.mpr h).symm

/-- What is worth more comes out as greater. -/
theorem some_gt_eq {u v : ℤ} (h : v < u) : some Ordering.gt = some (compare u v) :=
  congrArg some (compare_gt_iff_gt.mpr h).symm

/-- What is worth as much comes out as equal. -/
theorem some_eq_eq {u v : ℤ} (h : u = v) : some Ordering.eq = some (compare u v) :=
  congrArg some (compare_eq_iff_eq.mpr h).symm

/-- What is no number compares with nothing. -/
theorem compare_eq_none {a b : UnpackedFloat} (h : a.isNaN = true ∨ b.isNaN = true) :
    a.compare b = none := by
  rcases h with h | h
  · cases a with
    | notANumber => rfl
    | infinity | zero | finite => cases h
  · cases b with
    | notANumber =>
      cases a with
      | notANumber | zero => rfl
      | infinity s | finite s => cases s <;> rfl
    | infinity | zero | finite => cases h

/-- A number is finite or an infinity. -/
theorem isFinite_or_infinity {a : UnpackedFloat} (na : a.isNaN = false) :
    a.isFinite = true ∨ ∃ s, a = .infinity s := by
  cases a with
  | notANumber => cases na
  | infinity s => exact .inr ⟨s, rfl⟩
  | zero | finite => exact .inl rfl

namespace Canonical

variable {a b : UnpackedFloat}

/-- A finite double is worth less than an infinity, whatever the signs. -/
theorem abs_units_lt (ha : Canonical a) (fin : a.isFinite = true) : |units a| < ceiling := by
  cases ha with
  | infinity s | notANumber => simp [UnpackedFloat.isFinite] at fin
  | zero s => simpa [units] using ceiling_pos
  | finite s m k pos held le =>
    rw [units_finite, abs_apply]
    exact Int.ofNat_lt.mpr (held.mul_two_pow_lt_ceiling le)

/-- No number is worth more than an infinity, whatever the signs. -/
theorem abs_units_le (ha : Canonical a) (na : a.isNaN = false) : |units a| ≤ ceiling := by
  rcases isFinite_or_infinity na with fa | ⟨s, rfl⟩
  · exact (ha.abs_units_lt fa).le
  · exact (abs_apply s ceiling).le

/-- Finite doubles compare as their worths do. -/
theorem compare_finite (ha : Canonical a) (hb : Canonical b) (fa : a.isFinite = true)
    (fb : b.isFinite = true) : a.compare b = some (compare (units a) (units b)) := by
  cases ha with
  | infinity s | notANumber => cases fa
  | zero s =>
    cases hb with
    | infinity t | notANumber => cases fb
    | zero t => exact some_eq_eq rfl
    | finite t n l pos held le =>
      have worth := cast_mul_two_pow_pos pos l
      rw [units_finite]
      cases t with
      | negative => exact some_gt_eq (neg_lt_zero.mpr worth)
      | positive => exact some_lt_eq worth
  | finite s m k pos held le =>
    have worth := cast_mul_two_pow_pos pos k
    cases hb with
    | infinity t | notANumber => cases fb
    | zero t =>
      rw [units_finite]
      cases s with
      | negative => exact some_lt_eq (neg_lt_zero.mpr worth)
      | positive => exact some_gt_eq worth
    | finite t n l pos' held' le' =>
      have worth' := cast_mul_two_pow_pos pos' l
      -- Two negative doubles compare the other way round, so each pair of signs is its own case.
      have same := held.compare_units held'
      rw [units_finite, units_finite]
      cases s <;> cases t
      · rw [Sign.apply, Sign.apply, compare_neg_neg, ← same]
        rfl
      · exact some_lt_eq (by rw [Sign.apply, Sign.apply]; omega)
      · exact some_gt_eq (by rw [Sign.apply, Sign.apply]; omega)
      · rw [Sign.apply, Sign.apply, ← same]
        rfl

/-- A finite double compares with an infinity as their worths do. -/
theorem compare_infinity_right (ha : Canonical a) (fa : a.isFinite = true) (t : Sign) :
    a.compare (.infinity t) = some (compare (units a) (units (.infinity t))) := by
  have bounds := abs_lt.mp (ha.abs_units_lt fa)
  have arm : a.compare (.infinity t) =
      some (match t with | .negative => .gt | .positive => .lt) := by
    cases ha with
    | infinity | notANumber => cases fa
    | zero | finite => cases t <;> rfl
  rw [arm]
  cases t with
  | negative => exact some_gt_eq bounds.1
  | positive => exact some_lt_eq bounds.2

/-- An infinity compares with a finite double as their worths do. -/
theorem compare_infinity_left (hb : Canonical b) (fb : b.isFinite = true) (s : Sign) :
    (UnpackedFloat.infinity s).compare b = some (compare (units (.infinity s)) (units b)) := by
  have bounds := abs_lt.mp (hb.abs_units_lt fb)
  have arm : (UnpackedFloat.infinity s).compare b =
      some (match s with | .negative => .lt | .positive => .gt) := by
    cases hb with
    | infinity | notANumber => cases fb
    | zero | finite => cases s <;> rfl
  rw [arm]
  cases s with
  | negative => exact some_lt_eq bounds.1
  | positive => exact some_gt_eq bounds.2

/-- Doubles that are numbers compare as their worths do. -/
theorem compare_eq (ha : Canonical a) (hb : Canonical b) (na : a.isNaN = false)
    (nb : b.isNaN = false) : a.compare b = some (compare (units a) (units b)) := by
  rcases isFinite_or_infinity na with fa | ⟨s, rfl⟩
  · rcases isFinite_or_infinity nb with fb | ⟨t, rfl⟩
    · exact ha.compare_finite hb fa fb
    · exact ha.compare_infinity_right fa t
  · rcases isFinite_or_infinity nb with fb | ⟨t, rfl⟩
    · exact hb.compare_infinity_left fb s
    · have apart : -(ceiling : ℤ) < ceiling := by
        have := ceiling_pos
        omega
      cases s <;> cases t
      · exact some_eq_eq rfl
      · exact some_lt_eq apart
      · exact some_gt_eq apart
      · exact some_eq_eq rfl

/-- An unpacked double is at most another just when both are numbers and it is worth no more. -/
theorem le_iff (ha : Canonical a) (hb : Canonical b) :
    a.le b = true ↔ a.isNaN = false ∧ b.isNaN = false ∧ units a ≤ units b := by
  by_cases number : a.isNaN = false ∧ b.isNaN = false
  · obtain ⟨na, nb⟩ := number
    rw [UnpackedFloat.le, ha.compare_eq hb na nb]
    simp only [Option.any_some, Ordering.isLE_iff_ne_gt, na, nb, true_and]
    rw [compare_gt_iff_gt, not_lt]
  · have none : a.compare b = none := compare_eq_none <| by
      simpa only [not_and_or, Bool.not_eq_false] using number
    rw [UnpackedFloat.le, none]
    simp only [Option.any_none, Bool.false_eq_true, false_iff]
    exact fun h ↦ number ⟨h.1, h.2.1⟩

/-- Numbers of one worth are the same, or both zero. -/
theorem eq_of_units_eq (ha : Canonical a) (hb : Canonical b) (na : a.isNaN = false)
    (nb : b.isNaN = false) (same : units a = units b) :
    a = b ∨ ∃ s t, a = .zero s ∧ b = .zero t := by
  have eq : a.beq b = true := by
    rw [UnpackedFloat.beq, ha.compare_eq hb na nb, compare_eq_iff_eq.mpr same]
    rfl
  rcases ((beq_iff_ne_notANumber_and_eq a b).mp eq).2.2 with h | ⟨h, h'⟩ | ⟨h, h'⟩
  · exact .inl h
  · exact .inr ⟨_, _, h, h'⟩
  · exact .inr ⟨_, _, h, h'⟩

/-- A finite double, with its exponent as it is written. -/
theorem of_exponent {s : Sign} {m k : ℕ} {e : ℤ} {pos : 0 < m} (held : Held m k)
    (le : k ≤ heaviest) (exponent : e = k - 1074) : Canonical (.finite s m e pos) := by
  subst exponent
  exact .finite s m k pos held le

end Canonical

/-! ### The doubles -/

/-- Whatever the bits, what they hold is one of the unpacked doubles there are. -/
theorem canonical_unpack (bits : BitVec Format.binary64.numBits) :
    Canonical (UnpackedFloat.unpack .binary64 bits) := by
  have weight : (unpackExponent bits).toNat < 2 ^ 11 := (unpackExponent bits).isLt
  have significand : (unpackMantissa bits).toNat < 2 ^ 52 := (unpackMantissa bits).isLt
  have bias : Format.binary64.exponentBias = 1023 := rfl
  unfold UnpackedFloat.unpack
  dsimp only
  split
  · split
    · exact .infinity _
    · exact .notANumber
  next number =>
    have inside : (unpackExponent bits).toNat ≠ 2047 := fun h ↦ number (BitVec.eq_of_toNat_eq h)
    split
    next least =>
      split
      · exact .zero _
      · have none : (unpackExponent bits).toNat = 0 := by rw [least]; rfl
        exact .of_exponent (k := 0) ⟨by omega, .inl rfl⟩ (Nat.zero_le _) (by omega)
    next normal =>
      have some : (unpackExponent bits).toNat ≠ 0 := fun h ↦ normal (BitVec.eq_of_toNat_eq h)
      have full := toNat_one_append (unpackMantissa bits)
      exact .of_exponent (k := (unpackExponent bits).toNat - 1) ⟨by omega, .inr (by omega)⟩
        (by rw [heaviest]; omega) (by omega)

/-- What a double is worth. The least positive double is worth one. -/
def worth (x : Float) : ℤ := units x.toModel.unpack

variable {x y z : Float}

/-- A double is at most another just when both are numbers and it is worth no more. -/
theorem le_iff : x ≤ y ↔ x.isNaN = false ∧ y.isNaN = false ∧ worth x ≤ worth y := by
  have unpacked : x ≤ y ↔ x.toModel.unpack.le y.toModel.unpack = true := decide_eq_true_iff
  exact unpacked.trans ((canonical_unpack _).le_iff (canonical_unpack _))

/-- Of all that are no numbers there is but one double. -/
theorem eq_of_isNaN (hx : x.isNaN = true) (hy : y.isNaN = true) : x = y := by
  rw [Float.isNaN_eq_decide_eq_nan, decide_eq_true_eq] at hx hy
  exact hx.trans hy.symm

/-- A number is at most itself. -/
theorem le_refl (h : x.isNaN = false) : x ≤ x := le_iff.mpr ⟨h, h, le_rfl⟩

/-- What is at most something is at most all that this is at most. -/
theorem le_trans (h : x ≤ y) (h' : y ≤ z) : x ≤ z := by
  obtain ⟨nx, -, le⟩ := le_iff.mp h
  obtain ⟨-, nz, le'⟩ := le_iff.mp h'
  exact le_iff.mpr ⟨nx, nz, le.trans le'⟩

/-- Of two numbers, the second is at most the first if not the other way round. -/
theorem le_of_not_le (nx : x.isNaN = false) (ny : y.isNaN = false) (h : ¬ x ≤ y) : y ≤ x := by
  refine le_iff.mpr ⟨ny, nx, ?_⟩
  by_contra lt
  exact h (le_iff.mpr ⟨nx, ny, (not_le.mp lt).le⟩)

/-- Numbers of one worth hold the same, or are both zero. -/
theorem unpack_eq_of_worth_eq (hx : x.isNaN = false) (hy : y.isNaN = false)
    (same : worth x = worth y) : x.toModel.unpack = y.toModel.unpack ∨
      ∃ s t, x.toModel.unpack = .zero s ∧ y.toModel.unpack = .zero t :=
  (canonical_unpack _).eq_of_units_eq (canonical_unpack _) hx hy same

end Quoteboard.Double
