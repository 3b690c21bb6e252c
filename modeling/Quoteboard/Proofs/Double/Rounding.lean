import Quoteboard.Proofs.Double.Order

/-!
# Rounding

The sum and the difference of finite doubles are worth what is nearest to the sum and the
difference of their worths, the even one of two as near. So adding and subtracting keep the order.
-/

namespace Quoteboard.Double

open Float.Model Float.Model.UnpackedFloat

/-! ### The nearest value -/

/-- How often two to the power `s` goes into `v`, to the nearest, and to the even of two as near. -/
def quotient (v s : ℕ) : ℕ :=
  v / 2 ^ s + if 2 ^ s < 2 * (v % 2 ^ s) ∨ 2 * (v % 2 ^ s) = 2 ^ s ∧ v / 2 ^ s % 2 = 1
    then 1 else 0

/-- How many binary digits a significand has no room for. -/
def excess (v : ℕ) : ℕ := v.log2 - 52

/-- The worth of a double nearest to `v`, if there is no end to the weights. -/
def nearest (v : ℕ) : ℕ := quotient v (excess v) * 2 ^ excess v

/-- Rounding down or up by less than one. -/
theorem quotient_bounds (v s : ℕ) : v / 2 ^ s ≤ quotient v s ∧ quotient v s ≤ v / 2 ^ s + 1 := by
  unfold quotient
  split <;> omega

/-- What is not cut off is not rounded. -/
@[simp]
theorem quotient_zero (v : ℕ) : quotient v 0 = v := by
  simp [quotient, Nat.mod_one]

/-- The greater of two values is not rounded to the lesser. -/
theorem quotient_le_quotient {v w : ℕ} (s : ℕ) (h : v ≤ w) : quotient v s ≤ quotient w s := by
  rcases (Nat.div_le_div_right (c := 2 ^ s) h).lt_or_eq with lt | eq
  · exact (quotient_bounds v s).2.trans (lt.trans_le (quotient_bounds w s).1)
  · have rest : v % 2 ^ s ≤ w % 2 ^ s := by
      have hv := Nat.div_add_mod v (2 ^ s)
      have hw := Nat.div_add_mod w (2 ^ s)
      rw [eq] at hv
      omega
    unfold quotient
    rw [eq]
    split <;> split <;> omega

/-- Common zeros at the end go into neither. -/
theorem quotient_mul_two_pow (v s k : ℕ) : quotient (v * 2 ^ k) (s + k) = quotient v s := by
  have pos := Nat.two_pow_pos k
  have div : v * 2 ^ k / 2 ^ (s + k) = v / 2 ^ s := by
    rw [pow_add, Nat.mul_div_mul_right _ _ pos]
  have mod : v * 2 ^ k % 2 ^ (s + k) = v % 2 ^ s * 2 ^ k := by
    rw [pow_add, Nat.mul_mod_mul_right]
  have lt : 2 ^ (s + k) < 2 * (v % 2 ^ s * 2 ^ k) ↔ 2 ^ s < 2 * (v % 2 ^ s) := by
    rw [pow_add, ← mul_assoc, Nat.mul_lt_mul_right pos]
  have eq : 2 * (v % 2 ^ s * 2 ^ k) = 2 ^ (s + k) ↔ 2 * (v % 2 ^ s) = 2 ^ s := by
    rw [pow_add, ← mul_assoc, Nat.mul_right_cancel_iff pos]
  simp only [quotient, div, mod, lt, eq]

/-- A value has no more digits than there is room for and are in excess. -/
theorem lt_two_pow_excess (v : ℕ) : v < 2 ^ (53 + excess v) :=
  Nat.lt_log2_self.trans_le (Nat.pow_le_pow_right (by decide) (by unfold excess; omega))

/-- A value in excess has all digits there is room for. -/
theorem two_pow_excess_le {v : ℕ} (h : excess v ≠ 0) : 2 ^ (52 + excess v) ≤ v := by
  have digits : 52 + excess v = v.log2 := by unfold excess at *; omega
  have some : v ≠ 0 := by rintro rfl; exact h rfl
  rw [digits]
  exact Nat.log2_self_le some

/-- The nearest significand is held, or the first that is too great. -/
theorem quotient_excess_le (v : ℕ) : quotient v (excess v) ≤ 2 ^ 53 := by
  have floor : v / 2 ^ excess v < 2 ^ 53 := by
    rw [Nat.div_lt_iff_lt_mul (Nat.two_pow_pos _), ← pow_add]
    exact lt_two_pow_excess v
  exact (quotient_bounds v _).2.trans floor

/-- The nearest significand fills the room if anything is cut off. -/
theorem two_pow_le_quotient_excess {v : ℕ} (h : excess v ≠ 0) : 2 ^ 52 ≤ quotient v (excess v) := by
  have floor : 2 ^ 52 ≤ v / 2 ^ excess v := by
    rw [Nat.le_div_iff_mul_le (Nat.two_pow_pos _), ← pow_add]
    exact two_pow_excess_le h
  exact floor.trans (quotient_bounds v _).1

/-- What is nearest to something is something. -/
theorem quotient_excess_pos {v : ℕ} (pos : 0 < v) : 0 < quotient v (excess v) := by
  by_cases h : excess v = 0
  · rwa [h, quotient_zero]
  · exact (Nat.two_pow_pos 52).trans_le (two_pow_le_quotient_excess h)

/-- Greater values have no fewer digits in excess. -/
theorem excess_mono {v w : ℕ} (h : v ≤ w) : excess v ≤ excess w := by
  rcases Nat.eq_zero_or_pos v with rfl | pos
  · exact Nat.zero_le _
  · have log : v.log2 ≤ w.log2 :=
      (Nat.le_log2 (by omega)).mpr ((Nat.log2_self_le pos.ne').trans h)
    exact Nat.sub_le_sub_right log 52

/-- Rounding keeps the order. -/
theorem nearest_mono {v w : ℕ} (h : v ≤ w) : nearest v ≤ nearest w := by
  rcases (excess_mono h).lt_or_eq with lt | eq
  · calc nearest v ≤ 2 ^ 53 * 2 ^ excess v := Nat.mul_le_mul_right _ (quotient_excess_le v)
      _ = 2 ^ 52 * 2 ^ (excess v + 1) := two_pow_carry (excess v)
      _ ≤ nearest w := Nat.mul_le_mul (two_pow_le_quotient_excess (by omega))
          (Nat.pow_le_pow_right (by decide) lt)
  · unfold nearest
    rw [eq]
    exact Nat.mul_le_mul_right _ (quotient_le_quotient _ h)

/-- Zeros at the end are digits too. -/
theorem log2_mul_two_pow {m : ℕ} (pos : 0 < m) (k : ℕ) : (m * 2 ^ k).log2 = m.log2 + k := by
  have two := Nat.two_pow_pos k
  rw [Nat.log2_eq_iff (Nat.mul_pos pos two).ne', add_right_comm, pow_add, pow_add]
  exact ⟨Nat.mul_le_mul_right _ (Nat.log2_self_le pos.ne'),
    Nat.mul_lt_mul_of_pos_right Nat.lt_log2_self two⟩

/-- A held significand has its weight in excess. -/
theorem Held.excess_eq {m k : ℕ} (h : Held m k) (pos : 0 < m) : excess (m * 2 ^ k) = k := by
  have few : m.log2 < 53 := (Nat.log2_lt pos.ne').mpr h.lt
  rw [excess, log2_mul_two_pow pos]
  rcases h.full with rfl | full
  · omega
  · have many : 52 ≤ m.log2 := (Nat.le_log2 pos.ne').mpr full
    omega

/-- A double is nearest to itself. -/
theorem Held.nearest_eq {m k : ℕ} (h : Held m k) (pos : 0 < m) :
    nearest (m * 2 ^ k) = m * 2 ^ k := by
  have exact := quotient_mul_two_pow m 0 k
  rw [zero_add, quotient_zero] at exact
  rw [nearest, h.excess_eq pos, exact]

/-! ### Shifting -/

/-- What is left of a significand shifted right, whether a half was cut off at least, and whether
something else was than nothing or a half. -/
theorem shiftRight_exact (v s : ℕ) :
    ExtendedMantissa.ofMantissaAndAccuracy v .exact >>> s =
      ⟨v / 2 ^ s, 2 ^ s ≤ 2 * (v % 2 ^ s), v % 2 ^ s ≠ 0 ∧ 2 * (v % 2 ^ s) ≠ 2 ^ s⟩ := by
  change s.repeat ExtendedMantissa.shiftRightOne _ = _
  induction s with
  | zero => simp [Nat.repeat, ExtendedMantissa.ofMantissaAndAccuracy, Nat.mod_one]
  | succ s ih =>
    have lt := Nat.mod_lt v (Nat.two_pow_pos s)
    rw [Nat.repeat, ih, ExtendedMantissa.shiftRightOne, Nat.mod_pow_succ, pow_succ,
      ← Nat.div_div_eq_div_mul]
    generalize v / 2 ^ s = q
    generalize v % 2 ^ s = r at *
    generalize 2 ^ s = d at *
    rw [ExtendedMantissa.mk.injEq]
    refine ⟨rfl, ?_, ?_⟩
    · rcases Nat.mod_two_eq_zero_or_one q with even | odd
      · rw [even, decide_eq_false (by omega)]
        rfl
      · rw [odd, decide_eq_true (by omega)]
        rfl
    · rw [← Bool.decide_or, decide_eq_decide]
      rcases Nat.mod_two_eq_zero_or_one q with even | odd
      · rw [even]
        omega
      · rw [odd]
        omega

/-- Rounding a shifted significand gives the nearest. -/
theorem roundedMantissa_shiftRight (v s : ℕ) :
    (ExtendedMantissa.ofMantissaAndAccuracy v .exact >>> s).roundedMantissa = quotient v s := by
  rw [shiftRight_exact, ExtendedMantissa.roundedMantissa]
  have lt := Nat.mod_lt v (Nat.two_pow_pos s)
  unfold quotient
  generalize v / 2 ^ s = q
  generalize v % 2 ^ s = r at *
  generalize 2 ^ s = d at *
  by_cases half : d ≤ 2 * r
  · rw [decide_eq_true half]
    by_cases other : r ≠ 0 ∧ 2 * r ≠ d
    · rw [decide_eq_true other, if_pos (by omega)]
      rfl
    · rw [decide_eq_false other]
      change q + q % 2 = _
      split <;> omega
  · rw [decide_eq_false half, if_neg (by omega)]
    cases decide (r ≠ 0 ∧ 2 * r ≠ d) <;> rfl

/-- The weight doubles hold a significand at. -/
theorem targetExponent_eq {m : ℕ} (pos : 0 < m) (k : ℕ) :
    Format.binary64.targetExponent (totalExponent m (k - 1074)) =
      (excess (m * 2 ^ k) : ℤ) - 1074 := by
  rw [excess, log2_mul_two_pow pos]
  simp [Format.targetExponent, totalExponent, Format.mantissaBits, Format.minExponent]
  omega

/-- Shifting a significand to the weight it is held at. -/
theorem shiftToTargetExponent_eq {m : ℕ} (pos : 0 < m) (k : ℕ) :
    shiftToTargetExponent .binary64 m (k - 1074) .exact =
      (ExtendedMantissa.ofMantissaAndAccuracy m .exact >>> (excess (m * 2 ^ k) - k),
        ((k + (excess (m * 2 ^ k) - k) : ℕ) : ℤ) - 1074) := by
  have amount : ((excess (m * 2 ^ k) : ℤ) - 1074 - (k - 1074)).toNat = excess (m * 2 ^ k) - k := by
    omega
  rw [shiftToTargetExponent, targetExponent_eq pos, shiftToExponent, amount, Prod.mk.injEq]
  exact ⟨rfl, by omega⟩

/-- The double with a significand, of which nothing more is cut off, and an exponent. -/
def assemble (s : Sign) (shifted : ExtendedMantissa × ℤ) : UnpackedFloat :=
  if h : shifted.1.mantissa = 0 then .zero s
    else .finite s shifted.1.mantissa shifted.2 (Nat.pos_of_ne_zero h)

/-- A significand that is not zero makes a finite double. -/
theorem assemble_eq {s : Sign} {m : ExtendedMantissa} {n : ℕ} (e : ℤ) (eq : m.mantissa = n)
    (pos : 0 < n) : assemble s (m, e) = .finite s n e pos := by
  subst eq
  exact dif_neg pos.ne'

/-- A rounded significand is held as it is, or the first that is too great at the next weight. -/
theorem assemble_shiftToTargetExponent {q t : ℕ} (pos : 0 < q) (le : q ≤ 2 ^ 53)
    (full : t = 0 ∨ 2 ^ 52 ≤ q) (s : Sign) :
    ∃ n l : ℕ, ∃ pos' : 0 < n,
      assemble s (shiftToTargetExponent .binary64 q (t - 1074) .exact) =
        .finite s n (l - 1074) pos' ∧ Held n l ∧ n * 2 ^ l = q * 2 ^ t := by
  rw [shiftToTargetExponent_eq pos, shiftRight_exact]
  rcases le.lt_or_eq with lt | rfl
  · have held : Held q t := ⟨lt, full⟩
    rw [held.excess_eq pos, Nat.sub_self, add_zero]
    exact ⟨q, t, pos, assemble_eq _ (Nat.div_one q) pos, held, rfl⟩
  · have next : excess (2 ^ 53 * 2 ^ t) = t + 1 := by
      rw [excess, log2_mul_two_pow pos, Nat.log2_two_pow]
      omega
    rw [next, Nat.add_sub_cancel_left]
    exact ⟨2 ^ 52, t + 1, by decide, assemble_eq _ (by decide) _, ⟨by decide, .inr le_rfl⟩,
      (two_pow_carry t).symm⟩

/-- A significand with as many digits in excess as its weight, or more, rounds to the nearest. -/
theorem roundWithAccuracy_eq {m k : ℕ} (pos : 0 < m) (le : k ≤ excess (m * 2 ^ k)) (s : Sign) :
    ∃ n l : ℕ, ∃ pos' : 0 < n, roundWithAccuracy .binary64 s m (k - 1074) .exact =
        .finite s n (l - 1074) pos' ∧ Held n l ∧ n * 2 ^ l = nearest (m * 2 ^ k) := by
  have near := quotient_mul_two_pow m (excess (m * 2 ^ k) - k) k
  rw [Nat.sub_add_cancel le] at near
  -- The first shift rounds, and the second can only make up for a carry.
  have unfolded : roundWithAccuracy .binary64 s m (k - 1074) .exact =
      assemble s (shiftToTargetExponent .binary64
        (shiftToTargetExponent .binary64 m (k - 1074) .exact).1.roundedMantissa
        (shiftToTargetExponent .binary64 m (k - 1074) .exact).2 .exact) := rfl
  rw [unfolded, shiftToTargetExponent_eq pos, roundedMantissa_shiftRight, ← near,
    Nat.add_sub_cancel' le]
  have some := quotient_excess_pos (Nat.mul_pos pos (Nat.two_pow_pos k))
  exact assemble_shiftToTargetExponent some (quotient_excess_le _)
    (or_iff_not_imp_left.mpr two_pow_le_quotient_excess) s

/-- Any significand at any weight rounds to the nearest. -/
theorem round_eq {m : ℕ} (pos : 0 < m) (k : ℕ) (s : Sign) :
    ∃ n l : ℕ, ∃ pos' : 0 < n, UnpackedFloat.round .binary64 s m (k - 1074) =
        .finite s n (l - 1074) pos' ∧ Held n l ∧ n * 2 ^ l = nearest (m * 2 ^ k) := by
  have amount : ((k : ℤ) - 1074 - (excess (m * 2 ^ k) - 1074)).toNat = k - excess (m * 2 ^ k) := by
    omega
  have exponent : (k : ℤ) - 1074 - ↑(k - excess (m * 2 ^ k)) =
      ((k - (k - excess (m * 2 ^ k)) : ℕ) : ℤ) - 1074 := by omega
  have same :
      m * 2 ^ (k - excess (m * 2 ^ k)) * 2 ^ (k - (k - excess (m * 2 ^ k))) = m * 2 ^ k := by
    rw [mul_assoc, ← pow_add, Nat.add_sub_cancel' (Nat.sub_le _ _)]
  have rounds := roundWithAccuracy_eq (m := m * 2 ^ (k - excess (m * 2 ^ k)))
    (k := k - (k - excess (m * 2 ^ k))) (Nat.mul_pos pos (Nat.two_pow_pos _))
    (by rw [same]; omega) s
  rw [same] at rounds
  simpa only [UnpackedFloat.round, targetExponent_eq pos, decreaseExponent, amount, exponent,
    Nat.shiftLeft_eq] using rounds

end Quoteboard.Double
