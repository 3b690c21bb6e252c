import Mathlib.Data.List.Basic
import Quoteboard.Json.Written
import Quoteboard.Proofs.Json.Grammar
import Quoteboard.Proofs.Text.Numerals

/-!
# Written numbers are number literals

An integer is written as a literal of its digits, and a finite double as a literal with a fraction
or an exponent. For doubles this rests on the shortest decimal not being zero, so that no zero
stands in front of the digits before the point.
-/

namespace Quoteboard.Decimal

/-! ### The shortest decimal -/

/-- A double that is not zero has a magnitude. -/
theorem Magnitude.mantissa_ofBits_pos {bits : Nat} (some_bit : bits ≠ 0)
    (lt : bits < 0x8000000000000000) : 0 < (Magnitude.ofBits bits).mantissa := by
  unfold Magnitude.ofBits
  dsimp only
  split
  · dsimp only
    omega
  · exact Nat.add_pos_right _ (by decide)

theorem numerator_pos (q k : Int) {x : Nat} (pos : 0 < x) : 0 < numerator q k x := by
  apply Nat.mul_pos
  · exact Nat.mul_pos pos (Nat.pow_pos (by decide))
  · exact Nat.pow_pos (by decide)

/-- What rounds to a magnitude is not zero. -/
theorem Magnitude.digits_ne_zero {m : Magnitude} (pos : 0 < m.mantissa) {k : Int} {d : Scientific}
    (on_grid : m.onGrid? k = some d) : d.digits ≠ 0 := by
  unfold Magnitude.onGrid? at on_grid
  extract_lets scale unit value low high inside below above upward at on_grid
  have low_pos : 0 < low := by
    apply numerator_pos
    split <;> omega
  have zero_out : inside 0 = false := by
    simp only [inside, Nat.zero_mul, Nat.le_zero_eq, Nat.not_lt_zero, low_pos.ne', decide_false,
      Bool.false_and, ite_self]
  have found : inside d.digits = true := by
    split at on_grid
    · next both =>
      cases on_grid
      dsimp only
      split
      · exact (Bool.and_eq_true_iff.mp both).2
      · exact (Bool.and_eq_true_iff.mp both).1
    · split at on_grid
      · next lower =>
        cases on_grid
        exact lower
      · split at on_grid
        · next upper =>
          cases on_grid
          exact upper
        · cases on_grid
  intro zero
  rw [zero, zero_out] at found
  cases found

theorem Scientific.dropZeros_of_digits_eq_zero {d : Scientific} (zero : d.digits = 0) (fuel : Nat) :
    d.dropZeros fuel = d := by
  cases fuel <;> simp [dropZeros, zero]

theorem Scientific.digits_dropZeros_ne_zero {d : Scientific} (some_digit : d.digits ≠ 0)
    (fuel : Nat) : (d.dropZeros fuel).digits ≠ 0 := by
  fun_induction Scientific.dropZeros fuel d with
  | case1 => exact some_digit
  | case2 fuel d ends ih =>
    apply ih
    simp only [Bool.and_eq_true, decide_eq_true_eq] at ends
    show d.digits / 10 ≠ 0
    omega
  | case3 => exact some_digit

/-- A shortest decimal without digits is not scaled. -/
theorem Magnitude.exponent_shortest {m : Magnitude} (pos : 0 < m.mantissa) :
    m.shortest.digits = 0 → m.shortest.exponent = 0 := by
  unfold Magnitude.shortest
  extract_lets top found
  intro zero
  cases on_grids : found with
  | none => rw [Option.getD_none, Scientific.dropZeros_of_digits_eq_zero rfl]
  | some d =>
    obtain ⟨n, -, on_grid⟩ := List.exists_of_findSome?_eq_some on_grids
    rw [on_grids] at zero
    exact absurd zero (Scientific.digits_dropZeros_ne_zero (digits_ne_zero pos on_grid) 18)

end Quoteboard.Decimal

namespace Quoteboard.Json

open Quoteboard.Decimal Quoteboard.Text

/-! ### Digits -/

private theorem natDigitChar_eq (d : Fin 10) : Nat.digitChar d.val = digitChar d := by
  revert d
  decide

/-- The digits of a number are digits before a point: no zero stands in front of another one. -/
theorem exists_toDigits (n : Nat) :
    ∃ ds, Nat.toDigits 10 n = ds.map digitChar ∧ IsWholePart ds ∧ ofDigits ds = n := by
  induction n using Nat.strongRecOn with
  | ind n ih =>
    rcases Nat.lt_or_ge n 10 with small | large
    · refine ⟨[⟨n, small⟩], ?_, ⟨List.cons_ne_nil _ _, ?_⟩, by simp [ofDigits]⟩
      · simp [Nat.toDigits_of_lt_base small, ← natDigitChar_eq]
      · intro more e
        exact (List.cons.inj e).2.symm
    · obtain ⟨ds, spelt, is_whole, value⟩ := ih (n / 10) (by omega)
      have last : n % 10 < 10 := Nat.mod_lt _ (by decide)
      refine ⟨ds ++ [⟨n % 10, last⟩], ?_, ⟨by simp, ?_⟩, ?_⟩
      · simp [Nat.toDigits_of_base_le (by decide) large, spelt, ← natDigitChar_eq]
      · -- A zero in front would be all that the other digits denote.
        intro more e
        cases ds with
        | nil => exact absurd rfl is_whole.some_digit
        | cons d ds =>
          obtain ⟨rfl, -⟩ := List.cons.inj e
          obtain rfl := is_whole.nil_of_zero ds rfl
          simp [ofDigits] at value
          omega
      · rw [ofDigits_concat, value]
        exact Nat.div_add_mod' n 10

/-- A digit in front that is not followed by others may be a zero. -/
theorem isWholePart_singleton (d : Fin 10) : IsWholePart [d] where
  some_digit := List.cons_ne_nil _ _
  nil_of_zero _ e := (List.cons.inj e).2.symm

namespace IsWholePart

variable {ds : List (Fin 10)}

/-- Digits that do not begin with a zero may be followed by any. -/
theorem append (is_whole : IsWholePart ds) {more : List (Fin 10)} (h : ds = [0] → more = []) :
    IsWholePart (ds ++ more) where
  some_digit := List.append_ne_nil_of_left_ne_nil is_whole.some_digit _
  nil_of_zero rest e := by
    cases ds with
    | nil => exact absurd rfl is_whole.some_digit
    | cons d ds =>
      obtain ⟨rfl, rest_eq⟩ := List.cons.inj e
      obtain rfl := is_whole.nil_of_zero ds rfl
      exact rest_eq.symm.trans (h rfl)

/-- The digits in front are digits before a point. -/
theorem take (is_whole : IsWholePart ds) (n : Nat) : IsWholePart (ds.take (n + 1)) where
  some_digit := by
    simpa using is_whole.some_digit
  nil_of_zero rest e := by
    cases ds with
    | nil => exact absurd rfl is_whole.some_digit
    | cons d ds =>
      obtain ⟨rfl, rest_eq⟩ := List.cons.inj e
      obtain rfl := is_whole.nil_of_zero ds rfl
      simpa using rest_eq.symm

end IsWholePart

/-! ### Integers -/

/-- An integer is written as its sign and its digits. -/
theorem writeInteger_eq (n : Int) :
    writeInteger n = signText (decide (n < 0)) ++ Nat.toDigits 10 n.natAbs := by
  rw [← Nat.toList_repr]
  cases n with
  | ofNat n =>
    have no_sign : decide (Int.ofNat n < 0) = false := decide_eq_false (by simp)
    rw [no_sign]
    rfl
  | negSucc n =>
    have sign : decide (Int.negSucc n < 0) = true := decide_eq_true (Int.negSucc_lt_zero n)
    rw [sign]
    exact String.toList_append

/-- The sign and the digits of an integer denote it if it is within the bounds of the format. -/
theorem Literal.integer?_of_natAbs {n : Int} (low : minInt64 ≤ n) (high : n ≤ maxUInt64)
    {ds : List (Fin 10)} (value : ofDigits ds = n.natAbs) :
    (Literal.mk (decide (n < 0)) ds none none).integer? = some n := by
  by_cases negative : n < 0
  · have opposite : (Literal.mk (decide (n < 0)) ds none none).integer? =
        if 1 ≤ ofDigits ds && ofDigits ds ≤ 0x8000000000000000 then some (-(ofDigits ds : Int))
        else none := by
      rw [decide_eq_true negative]
      rfl
    have within : (1 ≤ n.natAbs && n.natAbs ≤ 0x8000000000000000) = true := by
      have least : minInt64 = -0x8000000000000000 := rfl
      rw [Bool.and_eq_true, decide_eq_true_eq, decide_eq_true_eq]
      omega
    rw [opposite, value, if_pos within,
      ← Int.eq_neg_natAbs_of_nonpos (Int.le_of_lt negative)]
  · have same : (Literal.mk (decide (n < 0)) ds none none).integer? =
        if ofDigits ds ≤ maxUInt64 then some (ofDigits ds : Int) else none := by
      rw [decide_eq_false negative]
      rfl
    have within : n.natAbs ≤ maxUInt64 := by omega
    rw [same, value, if_pos within, Int.natAbs_of_nonneg (Int.not_lt.mp negative)]

/-- An integer within the bounds of the format is written as a literal that denotes it. -/
theorem exists_spelt_integer {n : Int} (low : minInt64 ≤ n) (high : n ≤ maxUInt64) :
    ∃ l : Literal, l.SpeltAs (writeInteger n) ∧ l.value? = some (.integer n) := by
  obtain ⟨ds, spelt, is_whole, value⟩ := exists_toDigits n.natAbs
  have written : (Literal.mk (decide (n < 0)) ds none none).SpeltAs (writeInteger n) := by
    rw [writeInteger_eq, spelt, ← List.append_nil (ds.map digitChar)]
    exact .intro is_whole .absent .absent
  refine ⟨_, written, ?_⟩
  rw [Literal.value?, Literal.integer?_of_natAbs low high value]

/-! ### Doubles -/

/-- A text is a literal without a sign and with a fraction or an exponent. -/
def IsUnsignedReal (cs : List Char) : Prop :=
  ∃ l : Literal, l.negative = false ∧ l.isWhole = false ∧ l.SpeltAs cs

theorem isUnsignedReal_of_fraction {whole fraction : List (Fin 10)} (is_whole : IsWholePart whole)
    (some_digit : fraction ≠ []) :
    IsUnsignedReal (whole.map digitChar ++ '.' :: fraction.map digitChar) := by
  refine ⟨⟨false, whole, some fraction, none⟩, rfl, rfl, ?_⟩
  rw [← List.append_nil ('.' :: fraction.map digitChar)]
  exact .intro is_whole (.digits some_digit) .absent

/-- A decimal that is written in a style that shows fractions is a literal without a sign and with a
fraction or an exponent. -/
theorem isUnsignedReal_digitsText {s : Style} (shows : s.showsFraction = true)
    {ds : List (Fin 10)} (is_whole : IsWholePart ds) {lead : Int} (zero : ds = [0] → lead = 0) :
    IsUnsignedReal (s.digitsText (ds.map digitChar) lead) := by
  have zeros (k : Nat) : List.replicate k '0' = (List.replicate k (0 : Fin 10)).map digitChar := by
    rw [List.map_replicate]
    rfl
  unfold Style.digitsText
  dsimp only
  rw [List.length_map]
  split
  · split
    · -- A point behind a zero.
      have fraction : List.replicate (-lead - 1).toNat 0 ++ ds ≠ [] :=
        List.append_ne_nil_of_right_ne_nil _ is_whole.some_digit
      have is_real := isUnsignedReal_of_fraction (isWholePart_singleton 0) fraction
      rwa [List.map_append, ← zeros] at is_real
    · split
      · -- A point behind all digits, with zeros between.
        have whole : IsWholePart (ds ++ List.replicate (lead.toNat + 1 - ds.length) 0) := by
          apply is_whole.append
          intro e
          rw [zero e, e]
          rfl
        have is_real := isUnsignedReal_of_fraction whole (List.cons_ne_nil 0 [])
        rwa [List.map_append, ← zeros] at is_real
      · -- A point among the digits.
        have fraction : ds.drop (lead.toNat + 1) ≠ [] := by
          rw [ne_eq, List.drop_eq_nil_iff]
          omega
        have is_real := isUnsignedReal_of_fraction (is_whole.take lead.toNat) fraction
        rwa [List.map_take, List.map_drop] at is_real
  · -- An exponent, and a point behind the first digit if there are others.
    obtain ⟨es, es_spelt, es_whole, -⟩ := exists_toDigits lead.natAbs
    have fraction : FractionSpelt (if ds.length ≤ 1 then none else some (ds.drop 1))
        (if ds.length ≤ 1 then [] else '.' :: (ds.map digitChar).drop 1) := by
      split
      · exact .absent
      · next several =>
        rw [← List.map_drop]
        apply FractionSpelt.digits
        rw [ne_eq, List.drop_eq_nil_iff]
        exact several
    have exponent : ExponentSpelt (some (decide (lead < 0), es))
        ('e' :: (if lead < 0 then '-' else '+') :: Nat.toDigits 10 lead.natAbs) := by
      rw [es_spelt]
      split
      · next negative =>
        rw [decide_eq_true negative]
        exact .minus (.inl rfl) es_whole.some_digit
      · next negative =>
        rw [decide_eq_false negative]
        exact .plus (.inl rfl) es_whole.some_digit
    have spelt := @Literal.SpeltAs.intro false _ _ _ _ _ (is_whole.take 0) fraction exponent
    rw [List.map_take] at spelt
    rw [List.append_assoc]
    refine ⟨_, ?_, ?_, spelt⟩
    · rfl
    · exact Bool.and_false _

/-- A finite double is neither an infinity nor what is no number. -/
theorem of_isFinite {x : Float} (finite : x.isFinite = true) :
    x.isNaN = false ∧ x.isInf = false := by
  change x.toModel.unpack.isFinite = true at finite
  change x.toModel.unpack.isNaN = false ∧ x.toModel.unpack.isInf = false
  cases unpacked : x.toModel.unpack with
  | notANumber | infinity =>
    rw [unpacked] at finite
    cases finite
  | _ => exact ⟨rfl, rfl⟩

/-- The shortest decimal of a double that is not zero is a literal without a sign and with a
fraction or an exponent. -/
theorem isUnsignedReal_shortest {s : Style} (shows : s.showsFraction = true) {m : Magnitude}
    (pos : 0 < m.mantissa) : IsUnsignedReal (s.digitsText (Nat.toDigits 10 m.shortest.digits)
      (m.shortest.exponent + (Nat.toDigits 10 m.shortest.digits).length - 1)) := by
  obtain ⟨ds, spelt, is_whole, value⟩ := exists_toDigits m.shortest.digits
  rw [spelt]
  apply isUnsignedReal_digitsText shows is_whole
  intro single
  have zero : m.shortest.digits = 0 := by
    rw [← value, single]
    rfl
  rw [Magnitude.exponent_shortest pos zero, single]
  rfl

/-- A literal with its sign in front. -/
theorem IsUnsignedReal.exists_signed {cs : List Char} (is_real : IsUnsignedReal cs)
    (negative : Bool) : ∃ l : Literal, l.SpeltAs (signText negative ++ cs) ∧ l.isWhole = false := by
  obtain ⟨l, no_sign, is_real, spelt⟩ := is_real
  cases spelt with
  | intro is_whole fraction exponent =>
    cases no_sign
    exact ⟨_, .intro is_whole fraction exponent, is_real⟩

/-- A finite double is written as a literal with a fraction or an exponent. -/
theorem exists_spelt_real {x : Float} (finite : x.isFinite = true) :
    ∃ l : Literal, l.SpeltAs (writeReal x) ∧ l.isWhole = false := by
  obtain ⟨number, bounded⟩ := of_isFinite finite
  have sign : (if 0x8000000000000000 ≤ x.toBits.toNat then ['-'] else []) =
      signText (decide (0x8000000000000000 ≤ x.toBits.toNat)) := by
    simp only [signText, decide_eq_true_eq]
  simp only [writeReal, finite, if_true, Style.text, number, bounded, Bool.false_eq_true, if_false,
    String.toList_ofList, sign]
  apply IsUnsignedReal.exists_signed
  split
  · exact isUnsignedReal_of_fraction (isWholePart_singleton 0) (List.cons_ne_nil 0 [])
  · next some_bit =>
    apply isUnsignedReal_shortest rfl
    exact Magnitude.mantissa_ofBits_pos some_bit (Nat.mod_lt _ (by decide))

end Quoteboard.Json
