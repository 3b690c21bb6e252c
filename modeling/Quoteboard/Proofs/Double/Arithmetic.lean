import Quoteboard.Proofs.Double.Rounding

/-!
# Sums and differences

The sum of finite doubles is worth what is nearest to the sum of their worths, and an infinity
where that is out of reach. So a sum and a difference keep the order of the doubles something
finite is added to or taken from.
-/

namespace Quoteboard.Double

open Float.Model Float.Model.UnpackedFloat

/-! ### Packing -/

/-- What is unpacked of a packed double. -/
def repack (a : UnpackedFloat) : UnpackedFloat :=
  UnpackedFloat.unpack .binary64 (UnpackedFloat.pack .binary64 a)

/-- Infinities are kept. -/
@[simp]
theorem repack_infinity (s : Sign) : repack (.infinity s) = .infinity s := by
  cases s <;> rfl

/-- Zeros are kept. -/
@[simp]
theorem repack_zero (s : Sign) : repack (.zero s) = .zero s := unpack_packedZero

/-- What is no number is kept as such. -/
@[simp]
theorem repack_notANumber : repack .notANumber = .notANumber := unpack_packedNaN

/-- A double of the least weight, and without the digit that is not written, is kept. -/
theorem unpack_subnormal (s : Sign) {m : BitVec 52} (pos : 0 < m.toNat) :
    UnpackedFloat.unpack .binary64 (packComponents .binary64 s 0#11 m) =
      .finite s m.toNat ((0 : ℕ) - 1074) pos := by
  have some : m ≠ 0#52 := by
    rintro rfl
    cases pos
  unfold UnpackedFloat.unpack
  simp only [unpackExponent_packComponents, unpackMantissa_packComponents,
    unpackSign_packComponents, Sign.ofBitVec_toBitVec, some]
  rfl

/-- A double with the digit that is not written is kept. -/
theorem unpack_normal (s : Sign) {e : BitVec 11} (m : BitVec 52) (some : 0 < e.toNat)
    (number : e.toNat < 2047) : UnpackedFloat.unpack .binary64 (packComponents .binary64 s e m) =
      .finite s (2 ^ 52 + m.toNat) (e.toNat - 1075) (Nat.add_pos_left (by decide) _) := by
  have full := toNat_one_append m
  have some' : e ≠ 0#11 := by
    rintro rfl
    cases some
  have number' : e ≠ -1#11 := by
    rintro rfl
    exact absurd number (by decide)
  unfold UnpackedFloat.unpack
  simp only [unpackExponent_packComponents, unpackMantissa_packComponents,
    unpackSign_packComponents, Sign.ofBitVec_toBitVec, if_neg some', if_neg number', full]
  rfl

/-- A packed finite double has its weight, raised by one, written. -/
theorem biased_exponent (k : ℕ) : ((k : ℤ) - 1074 + Format.binary64.exponentBias +
    Format.binary64.mantissaBitsWithoutImplicit).toNat = k + 1 := by
  change ((k : ℤ) - 1074 + 1023 + 52).toNat = k + 1
  omega

/-- A significand with all its digits at a weight within reach is kept. -/
theorem repack_normal {m k : ℕ} (pos : 0 < m) (full : 2 ^ 52 ≤ m) (lt : m < 2 ^ 53) (s : Sign)
    (le : k ≤ heaviest) : repack (.finite s m (k - 1074) pos) = .finite s m (k - 1074) pos := by
  have digits : m.log2 + 1 = Format.binary64.mantissaBits := by
    rw [(Nat.log2_eq_iff pos.ne').mpr ⟨full, lt⟩]
    rfl
  rw [heaviest] at le
  have exponent : (BitVec.ofNat 11 (k + 1)).toNat = k + 1 := by
    rw [BitVec.toNat_ofNat, Nat.mod_eq_of_lt (by omega)]
  have significand : (BitVec.ofNat 52 m).toNat = m - 2 ^ 52 := by
    rw [BitVec.toNat_ofNat]
    omega
  unfold repack UnpackedFloat.pack
  dsimp only
  rw [biased_exponent, if_neg (by change ¬ 2048 ≤ _; omega), if_pos digits,
    unpack_normal s (BitVec.ofNat 52 m) (e := BitVec.ofNat 11 (k + 1)) (by omega) (by omega),
    UnpackedFloat.finite.injEq]
  exact ⟨rfl, by omega, by omega⟩

/-- A significand with fewer digits at the least weight is kept. -/
theorem repack_subnormal {m : ℕ} (pos : 0 < m) (lt : m < 2 ^ 52) (s : Sign) :
    repack (.finite s m ((0 : ℕ) - 1074) pos) = .finite s m ((0 : ℕ) - 1074) pos := by
  have digits : m.log2 + 1 ≠ Format.binary64.mantissaBits := by
    have few : m.log2 < 52 := (Nat.log2_lt pos.ne').mpr lt
    change m.log2 + 1 ≠ 53
    omega
  have significand : (BitVec.ofNat 52 m).toNat = m := by
    rw [BitVec.toNat_ofNat, Nat.mod_eq_of_lt lt]
  unfold repack UnpackedFloat.pack
  dsimp only
  rw [biased_exponent, if_neg (by decide), if_neg digits,
    unpack_subnormal s (m := BitVec.ofNat 52 m) (by omega), UnpackedFloat.finite.injEq]
  exact ⟨rfl, significand, rfl⟩

/-- A significand held at a weight within reach is kept. -/
theorem repack_finite {m k : ℕ} (pos : 0 < m) (held : Held m k) (s : Sign) (le : k ≤ heaviest) :
    repack (.finite s m (k - 1074) pos) = .finite s m (k - 1074) pos := by
  by_cases full : 2 ^ 52 ≤ m
  · exact repack_normal pos full held.lt s le
  · obtain rfl : k = 0 := held.full.resolve_right full
    exact repack_subnormal pos (not_le.mp full) s

/-- A weight out of reach makes an infinity. -/
theorem repack_of_heavier {m k : ℕ} (pos : 0 < m) (s : Sign) (lt : heaviest < k) :
    repack (.finite s m (k - 1074) pos) = .infinity s := by
  rw [heaviest] at lt
  have beyond : UnpackedFloat.pack .binary64 (.finite s m (k - 1074) pos) =
      packedInfinity .binary64 s := by
    unfold UnpackedFloat.pack
    dsimp only
    rw [biased_exponent]
    exact if_pos (by change 2048 ≤ _; omega)
  rw [repack, beyond]
  exact repack_infinity s

/-- Unpacked doubles are kept. -/
theorem Canonical.repack_eq {a : UnpackedFloat} (h : Canonical a) : repack a = a := by
  cases h with
  | infinity s => exact repack_infinity s
  | notANumber => rfl
  | zero s => exact repack_zero s
  | finite s m k pos held le => exact repack_finite pos held s le

/-! ### Rounding integers -/

/-- What something of the worth `z` is worth as a double. -/
def rounded (z : ℤ) : ℤ := z.sign * ↑(min (nearest z.natAbs) ceiling)

/-- Nothing is worth nothing. -/
@[simp]
theorem rounded_zero : rounded 0 = 0 := by
  simp [rounded]

/-- Rounding is the same on both sides of zero. -/
theorem rounded_neg (z : ℤ) : rounded (-z) = -rounded z := by
  simp [rounded]

/-- Natural numbers are rounded to the nearest. -/
theorem rounded_natCast (v : ℕ) : rounded v = ↑(min (nearest v) ceiling) := by
  rcases Nat.eq_zero_or_pos v with rfl | pos
  · have zero : nearest 0 = 0 := by decide
    simp [zero]
  · rw [rounded, Int.sign_eq_one_of_pos (Int.natCast_pos.mpr pos), one_mul, Int.natAbs_natCast]

/-- A signed number is rounded as the number is, and signed. -/
theorem rounded_apply (s : Sign) (v : ℕ) :
    rounded (s.apply v) = s.apply ↑(min (nearest v) ceiling) := by
  cases s with
  | negative => rw [Sign.apply, Sign.apply, rounded_neg, rounded_natCast]
  | positive => exact rounded_natCast v

/-- Rounding natural numbers keeps the order. -/
theorem rounded_natCast_le {v w : ℕ} (h : v ≤ w) : rounded v ≤ rounded w := by
  rw [rounded_natCast, rounded_natCast]
  exact Int.ofNat_le.mpr (min_le_min_right _ (nearest_mono h))

/-- Rounding keeps the order. -/
theorem rounded_mono {z w : ℤ} (h : z ≤ w) : rounded z ≤ rounded w := by
  have nonneg (v : ℕ) : 0 ≤ rounded v := by
    rw [rounded_natCast]
    exact Int.natCast_nonneg _
  obtain ⟨v, rfl | rfl⟩ := z.eq_nat_or_neg <;> obtain ⟨u, rfl | rfl⟩ := w.eq_nat_or_neg
  · exact rounded_natCast_le (by omega)
  · obtain rfl : v = 0 := by omega
    obtain rfl : u = 0 := by omega
    rfl
  · rw [rounded_neg]
    exact (neg_nonpos.mpr (nonneg v)).trans (nonneg u)
  · rw [rounded_neg, rounded_neg]
    exact neg_le_neg (rounded_natCast_le (by omega))

/-- What a double is worth is not rounded. -/
theorem Canonical.rounded_units {a : UnpackedFloat} (h : Canonical a) (fin : a.isFinite = true) :
    rounded (units a) = units a := by
  cases h with
  | infinity | notANumber => cases fin
  | zero s => exact rounded_zero
  | finite s m k pos held le =>
    rw [units_finite, rounded_apply, held.nearest_eq pos,
      min_eq_left (held.mul_two_pow_lt_ceiling le).le]

/-! ### Adding -/

/-- A held significand is worth what it says, or an infinity if that is out of reach. -/
theorem units_repack {m k : ℕ} (pos : 0 < m) (held : Held m k) (s : Sign) :
    (repack (.finite s m (k - 1074) pos)).isNaN = false ∧
      units (repack (.finite s m (k - 1074) pos)) = s.apply ↑(min (m * 2 ^ k) ceiling) := by
  by_cases le : k ≤ heaviest
  · rw [repack_finite pos held s le, min_eq_left (held.mul_two_pow_lt_ceiling le).le]
    exact ⟨rfl, units_finite s m k pos⟩
  · have lt : heaviest < k := by omega
    have full : 2 ^ 52 ≤ m := held.full.resolve_left (by omega)
    have beyond : ceiling ≤ m * 2 ^ k :=
      calc ceiling = 2 ^ 52 * 2 ^ (heaviest + 1) := by rw [ceiling, pow_add, two_pow_carry]
        _ ≤ m * 2 ^ k := Nat.mul_le_mul full (Nat.pow_le_pow_right (by decide) lt)
    rw [repack_of_heavier pos s lt, min_eq_right beyond]
    exact ⟨rfl, rfl⟩

/-- A rounded significand is worth what is nearest, or an infinity if that is out of reach. -/
theorem units_round {m : ℕ} (pos : 0 < m) (k : ℕ) (s : Sign) :
    (repack (UnpackedFloat.round .binary64 s m (k - 1074))).isNaN = false ∧
      units (repack (UnpackedFloat.round .binary64 s m (k - 1074))) =
        rounded (s.apply ↑(m * 2 ^ k)) := by
  obtain ⟨n, l, pos', eq, held, worth⟩ := round_eq pos k s
  rw [eq, rounded_apply, ← worth]
  exact units_repack pos' held s

/-- The same of a signed significand, which may be zero. -/
theorem units_normalize (m : ℤ) (k : ℕ) (z : Sign) :
    (repack (UnpackedFloat.normalize .binary64 m (k - 1074) z)).isNaN = false ∧
      units (repack (UnpackedFloat.normalize .binary64 m (k - 1074) z)) = rounded (m * 2 ^ k) := by
  rcases lt_trichotomy m 0 with neg | rfl | pos
  · have magnitude : Sign.negative.apply ↑((-m).toNat * 2 ^ k) = m * 2 ^ k := by
      rw [Sign.apply, Nat.cast_mul, Int.toNat_of_nonneg (by omega)]
      push_cast
      ring
    rw [UnpackedFloat.normalize, Int.compare_eq_lt.mpr neg, ← magnitude]
    exact units_round (by omega) k .negative
  · rw [UnpackedFloat.normalize, Int.compare_eq_eq.mpr rfl, zero_mul, rounded_zero]
    dsimp only
    rw [repack_zero]
    exact ⟨rfl, rfl⟩
  · have magnitude : Sign.positive.apply ↑(m.toNat * 2 ^ k) = m * 2 ^ k := by
      rw [Sign.apply, Nat.cast_mul, Int.toNat_of_nonneg (by omega)]
      push_cast
      rfl
    rw [UnpackedFloat.normalize, Int.compare_eq_gt.mpr pos, ← magnitude]
    exact units_round (by omega) k .positive

/-- What is unpacked of the sum of unpacked doubles. -/
def sum (a b : UnpackedFloat) : UnpackedFloat := repack (UnpackedFloat.add .binary64 a b)

section Sum

variable {a b c : UnpackedFloat}

/-- Adding a zero to a finite double, or that to a zero, changes no worth. -/
theorem units_sum_zero (h : Canonical a) (fin : a.isFinite = true) (s : Sign) :
    ((sum (.zero s) a).isNaN = false ∧ units (sum (.zero s) a) = units a) ∧
      (sum a (.zero s)).isNaN = false ∧ units (sum a (.zero s)) = units a := by
  cases h with
  | infinity | notANumber => cases fin
  | zero t => cases s <;> cases t <;> exact ⟨⟨rfl, rfl⟩, rfl, rfl⟩
  | finite t m k pos held le =>
    have left : sum (.zero s) (.finite t m (k - 1074) pos) = .finite t m (k - 1074) pos :=
      repack_finite pos held t le
    have right : sum (.finite t m (k - 1074) pos) (.zero s) = .finite t m (k - 1074) pos :=
      repack_finite pos held t le
    rw [left, right]
    exact ⟨⟨rfl, rfl⟩, rfl, rfl⟩

/-- A significand is worth the same at a lesser weight, with zeros at its end. -/
theorem apply_shiftLeft_mul (s : Sign) (m : ℕ) {j k : ℕ} (h : j ≤ k) :
    s.apply ↑(m <<< (k - j)) * 2 ^ j = s.apply ↑(m * 2 ^ k) := by
  have shifted : m <<< (k - j) * 2 ^ j = m * 2 ^ k := by
    rw [Nat.shiftLeft_eq, mul_assoc, ← pow_add, Nat.sub_add_cancel h]
  rw [← shifted]
  cases s <;> simp [Sign.apply]

/-- The sum of finite doubles is worth what is nearest to the sum of their worths. -/
theorem units_sum (ha : Canonical a) (hb : Canonical b) (fa : a.isFinite = true)
    (fb : b.isFinite = true) :
    (sum a b).isNaN = false ∧ units (sum a b) = rounded (units a + units b) := by
  cases ha with
  | infinity | notANumber => cases fa
  | zero s =>
    change _ ∧ _ = rounded (0 + units b)
    rw [zero_add, hb.rounded_units fb]
    exact (units_sum_zero hb fb s).1
  | finite s m k pos held le =>
    cases hb with
    | infinity | notANumber => cases fb
    | zero t =>
      have ha : Canonical (.finite s m (k - 1074) pos) := .finite s m k pos held le
      change _ ∧ _ = rounded (units _ + 0)
      rw [add_zero, ha.rounded_units fa]
      exact (units_sum_zero ha fa t).2
    | finite t n l pos' held' le' =>
      have least : min ((k : ℤ) - 1074) (l - 1074) = (min k l : ℕ) - 1074 := by omega
      have amount (j : ℕ) : ((j : ℤ) - 1074 - ((min k l : ℕ) - 1074)).toNat = j - min k l := by
        omega
      have worth := units_normalize
        (s.apply ↑(m <<< (k - min k l)) + t.apply ↑(n <<< (l - min k l))) (min k l) .positive
      rw [add_mul, apply_shiftLeft_mul s m (min_le_left k l),
        apply_shiftLeft_mul t n (min_le_right k l)] at worth
      rw [units_finite, units_finite]
      simpa only [sum, UnpackedFloat.add, decreaseExponent, least, amount] using worth

/-- An infinity stays when something finite is added. -/
theorem sum_infinity (s : Sign) (fb : b.isFinite = true) : sum (.infinity s) b = .infinity s := by
  cases b with
  | infinity | notANumber => cases fb
  | zero | finite => exact repack_infinity s

/-- What is no number stays none. -/
theorem sum_notANumber (b : UnpackedFloat) : sum .notANumber b = .notANumber := by
  cases b <;> exact repack_notANumber

/-- No number is made of none, or lost, by adding something finite. -/
theorem isNaN_sum (ha : Canonical a) (hb : Canonical b) (fb : b.isFinite = true) :
    (sum a b).isNaN = a.isNaN := by
  cases na : a.isNaN with
  | true =>
    cases a with
    | notANumber => rw [sum_notANumber, na]
    | infinity | zero | finite => cases na
  | false =>
    rcases isFinite_or_infinity na with fa | ⟨s, rfl⟩
    · exact (units_sum ha hb fa fb).1
    · rw [sum_infinity s fb]
      rfl

/-- Adding something finite keeps the order. -/
theorem units_sum_le (ha : Canonical a) (hb : Canonical b) (hc : Canonical c)
    (na : a.isNaN = false) (nb : b.isNaN = false) (fc : c.isFinite = true)
    (h : units a ≤ units b) : units (sum a c) ≤ units (sum b c) := by
  have inside (x : UnpackedFloat) (hx : Canonical x) (nx : x.isNaN = false) :
      -(ceiling : ℤ) ≤ units (sum x c) ∧ units (sum x c) ≤ ceiling :=
    abs_le.mp ((canonical_unpack _).abs_units_le ((isNaN_sum hx hc fc).trans nx))
  rcases isFinite_or_infinity na with fa | ⟨s | s, rfl⟩
  · rcases isFinite_or_infinity nb with fb | ⟨t | t, rfl⟩
    · rw [(units_sum ha hc fa fc).2, (units_sum hb hc fb fc).2]
      exact rounded_mono (by omega)
    · exact absurd h (not_le.mpr (abs_lt.mp (ha.abs_units_lt fa)).1)
    · rw [sum_infinity _ fc]
      exact (inside a ha na).2
  · rw [sum_infinity _ fc]
    exact (inside b hb nb).1
  · rcases isFinite_or_infinity nb with fb | ⟨t | t, rfl⟩
    · exact absurd h (not_le.mpr (abs_lt.mp (hb.abs_units_lt fb)).2)
    · have pos := ceiling_pos
      exact absurd (show (ceiling : ℤ) ≤ -ceiling from h) (by omega)
    · exact le_rfl

/-- Doubles are the same if the same is unpacked to add to something else than zero, or zeros. -/
theorem add_congr (same : a = b ∨ ∃ s t, a = .zero s ∧ b = .zero t) (fc : c.isFinite = true)
    (some : units c ≠ 0) :
    UnpackedFloat.add .binary64 a c = UnpackedFloat.add .binary64 b c := by
  rcases same with rfl | ⟨s, t, rfl, rfl⟩
  · rfl
  · cases c with
    | infinity | notANumber => cases fc
    | zero => exact absurd rfl some
    | finite => rfl

end Sum

/-! ### Opposites -/

/-- The opposite sign gives the opposite. -/
theorem apply_neg (s : Sign) (n : ℕ) : (-s).apply n = -s.apply n := by
  cases s with
  | negative => exact (neg_neg _).symm
  | positive => rfl

/-- The opposite of an unpacked double is worth the opposite. -/
theorem units_neg (a : UnpackedFloat) : units a.neg = -units a := by
  cases a with
  | notANumber | zero => rfl
  | infinity s | finite s => exact apply_neg s _

/-- The opposite of an unpacked double is one. -/
theorem Canonical.neg {a : UnpackedFloat} (h : Canonical a) : Canonical a.neg := by
  cases h with
  | infinity s => exact .infinity (-s)
  | notANumber => exact .notANumber
  | zero s => exact .zero (-s)
  | finite s m k pos held le => exact .finite (-s) m k pos held le

/-- Taking away is adding the opposite. -/
theorem sub_eq_add_opposite (a b : UnpackedFloat) :
    UnpackedFloat.sub .binary64 a b = UnpackedFloat.add .binary64 a b.neg := by
  cases a with
  | notANumber | infinity | zero => cases b <;> rfl
  | finite s m e pos =>
    cases b with
    | notANumber | infinity | zero => rfl
    | finite t n f pos' =>
      simp only [UnpackedFloat.sub, UnpackedFloat.add, UnpackedFloat.neg, apply_neg, sub_eq_add_neg]

/-! ### The doubles -/

variable {x y c : Float}

/-- Adding something finite makes numbers of numbers alone. -/
theorem isNaN_add (x : Float) (fin : c.isFinite = true) : (x + c).isNaN = x.isNaN :=
  isNaN_sum (canonical_unpack _) (canonical_unpack _) fin

/-- Adding something finite keeps the order. -/
theorem add_le_add (fin : c.isFinite = true) (h : x ≤ y) : x + c ≤ y + c := by
  obtain ⟨nx, ny, le⟩ := le_iff.mp h
  refine le_iff.mpr ⟨(isNaN_add x fin).trans nx, (isNaN_add y fin).trans ny, ?_⟩
  exact units_sum_le (canonical_unpack _) (canonical_unpack _) (canonical_unpack _) nx ny fin le

/-- Numbers of which neither is greater have the same sum with something finite other than zero,
though one of them may be the positive zero and the other the negative. -/
theorem add_eq_add (fin : c.isFinite = true) (some : worth c ≠ 0) (h : x ≤ y) (h' : y ≤ x) :
    x + c = y + c := by
  obtain ⟨nx, ny, le⟩ := le_iff.mp h
  have same := unpack_eq_of_worth_eq nx ny (le.antisymm (le_iff.mp h').2.2)
  exact congrArg (fun a ↦ Float.ofModel (Float.Model.pack a)) (add_congr same fin some)

/-- What is unpacked of the opposite of a double. -/
theorem unpack_neg (c : Float) : (-c).toModel.unpack = c.toModel.unpack.neg :=
  (canonical_unpack c.toModel.toBits.toBitVec).neg.repack_eq

/-- The opposite of a double is worth the opposite. -/
theorem worth_neg (c : Float) : worth (-c) = -worth c := by
  rw [worth, unpack_neg, units_neg]
  rfl

/-- The opposite of a double is as finite. -/
theorem isFinite_neg (c : Float) : (-c).isFinite = c.isFinite := by
  change (-c).toModel.unpack.isFinite = c.toModel.unpack.isFinite
  rw [unpack_neg]
  cases c.toModel.unpack <;> rfl

/-- The difference of doubles is the sum with the opposite. -/
theorem sub_eq_add (x c : Float) : x - c = x + -c := by
  change Float.ofModel (Float.Model.pack (UnpackedFloat.sub .binary64 x.toModel.unpack
    c.toModel.unpack)) = Float.ofModel (Float.Model.pack (UnpackedFloat.add .binary64
    x.toModel.unpack (-c).toModel.unpack))
  rw [sub_eq_add_opposite, unpack_neg]

/-- Taking away something finite leaves numbers of numbers alone. -/
theorem isNaN_sub (x : Float) (fin : c.isFinite = true) : (x - c).isNaN = x.isNaN := by
  rw [sub_eq_add]
  exact isNaN_add x ((isFinite_neg c).trans fin)

/-- Taking away something finite keeps the order. -/
theorem sub_le_sub (fin : c.isFinite = true) (h : x ≤ y) : x - c ≤ y - c := by
  rw [sub_eq_add, sub_eq_add]
  exact add_le_add ((isFinite_neg c).trans fin) h

/-- Numbers of which neither is greater have the same difference from something finite other than
zero. -/
theorem sub_eq_sub (fin : c.isFinite = true) (some : worth c ≠ 0) (h : x ≤ y) (h' : y ≤ x) :
    x - c = y - c := by
  rw [sub_eq_add, sub_eq_add]
  refine add_eq_add ((isFinite_neg c).trans fin) ?_ h h'
  rw [worth_neg]
  exact neg_ne_zero.mpr some

end Quoteboard.Double
