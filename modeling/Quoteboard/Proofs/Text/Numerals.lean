import Mathlib.Data.List.Lex
import Quoteboard.Text.Numeral

/-!
# Numerals that are written out

The decimal digits of a number are read as that number.
-/

namespace Quoteboard.Text

/-- A character is a digit if it is how that digit is written. -/
theorem digit?_eq_some_iff {c : Char} {d : Fin 10} : digit? c = some d ↔ c = digitChar d := by
  constructor
  · intro h
    rw [digit?] at h
    split at h
    · next bounds =>
      obtain rfl := Option.some.inj h
      simp only [Bool.and_eq_true, decide_eq_true_eq, Char.le_def, UInt32.le_iff_toNat_le,
        Char.toNat_val] at bounds
      have zero : ('0' : Char).toNat = 48 := rfl
      have nine : ('9' : Char).toNat = 57 := rfl
      have small : (c.toNat - 48) % 10 = c.toNat - 48 := Nat.mod_eq_of_lt (by omega)
      have value : 48 + (c.toNat - 48) % 10 = c.toNat := by omega
      rw [digitChar, Fin.val_ofNat, zero, value, Char.ofNat_toNat]
    · cases h
  · rintro rfl
    exact digit?_digitChar d

private theorem digit?_digitChar_of_lt {n : Nat} (h : n < 10) :
    digit? n.digitChar = some ⟨n, h⟩ := by
  have each : ∀ d : Fin 10, digit? d.val.digitChar = some d := by decide
  exact each ⟨n, h⟩

/-- One more digit behind a row of digits. -/
theorem ofDigits_concat (ds : List (Fin 10)) (d : Fin 10) :
    ofDigits (ds ++ [d]) = ofDigits ds * 10 + d.val := by
  simp [ofDigits]

private theorem exists_mapM_toDigits (n : Nat) :
    ∃ ds, (Nat.toDigits 10 n).mapM digit? = some ds ∧ ofDigits ds = n := by
  induction n using Nat.strongRecOn with
  | ind n ih =>
    rcases Nat.lt_or_ge n 10 with small | large
    · refine ⟨[⟨n, small⟩], ?_, by simp [ofDigits]⟩
      simp [Nat.toDigits_of_lt_base small, digit?_digitChar_of_lt small]
    · obtain ⟨ds, read, value⟩ := ih (n / 10) (by omega)
      have last : n % 10 < 10 := Nat.mod_lt _ (by decide)
      refine ⟨ds ++ [⟨n % 10, last⟩], ?_, ?_⟩
      · simp [Nat.toDigits_of_base_le (by decide) large, List.mapM_append, read,
          digit?_digitChar_of_lt last]
      · rw [ofDigits_concat, value]
        exact Nat.div_add_mod' n 10

/-- A number that is written out is read as itself. -/
theorem natural?_toString (n : Nat) : natural? (toString n).toList = some n := by
  obtain ⟨ds, read, value⟩ := exists_mapM_toDigits n
  simp [natural?, read, value, Nat.toList_repr]

/-- Numbers that are written the same are the same. -/
theorem toString_nat_injective : Function.Injective (toString : Nat → String) := by
  intro m n same
  have read := natural?_toString m
  rw [same, natural?_toString] at read
  exact (Option.some.inj read).symm

private theorem toString_ne_plus_cons (n : Nat) (rest : List Char) :
    (toString n).toList ≠ '+' :: rest := by
  intro e
  have inside : '+' ∈ Nat.toDigits 10 n := by
    rw [← Nat.toList_repr]
    exact e ▸ List.mem_cons_self
  cases Nat.isDigit_of_mem_toDigits (by decide) (by decide) inside

/-- A number within bounds that is written out is read as itself. -/
theorem unsigned?_toString {bound n : Nat} (h : n ≤ bound) :
    unsigned? bound (toString n).toList = some n := by
  unfold unsigned?
  split
  · next rest e => exact absurd e (toString_ne_plus_cons n rest)
  · dsimp only
    rw [natural?_toString]
    simpa using h

/-! ### Numerals that are read -/

/-- Characters are read as digits if they are how these are written. -/
theorem mapM_digit?_eq_some_iff {cs : List Char} {ds : List (Fin 10)} :
    cs.mapM digit? = some ds ↔ cs = ds.map digitChar := by
  constructor
  · intro h
    induction cs generalizing ds with
    | nil =>
      obtain rfl : [] = ds := by simpa using h
      rfl
    | cons c cs ih =>
      obtain ⟨d, first, ds', rest, rfl⟩ : ∃ d, digit? c = some d ∧
          ∃ ds', cs.mapM digit? = some ds' ∧ d :: ds' = ds := by
        simpa [List.mapM_cons, Option.bind_eq_some_iff] using h
      rw [List.map_cons, ← ih rest, digit?_eq_some_iff.mp first]
  · rintro rfl
    induction ds with
    | nil => rfl
    | cons d ds ih => simp [List.mapM_cons, digit?_digitChar, ih]

/-- A text of digits is read as the number that they denote. -/
theorem natural?_eq_some_iff {cs : List Char} {n : Nat} :
    natural? cs = some n ↔ ∃ ds ≠ [], cs = ds.map digitChar ∧ ofDigits ds = n := by
  rw [natural?]
  split
  · next empty =>
    refine iff_of_false (by simp) ?_
    rintro ⟨ds, filled, rfl, -⟩
    simp [filled] at empty
  · next filled =>
    simp only [Option.map_eq_some_iff, mapM_digit?_eq_some_iff]
    constructor
    · rintro ⟨ds, rfl, value⟩
      exact ⟨ds, by simpa using filled, rfl, value⟩
    · rintro ⟨ds, -, spelt, value⟩
      exact ⟨ds, spelt, value⟩

/-- A text is a numeral of an integer: one or more digits, with a sign or without. -/
inductive IsNumeral : List Char → Int → Prop
  | unsigned {ds : List (Fin 10)} (filled : ds ≠ []) : IsNumeral (ds.map digitChar) (ofDigits ds)
  | plus {ds : List (Fin 10)} (filled : ds ≠ []) :
      IsNumeral ('+' :: ds.map digitChar) (ofDigits ds)
  | minus {ds : List (Fin 10)} (filled : ds ≠ []) :
      IsNumeral ('-' :: ds.map digitChar) (-ofDigits ds)

/-- A digit is not a sign. -/
theorem digitChar_ne_sign (d : Fin 10) : digitChar d ≠ '-' ∧ digitChar d ≠ '+' := by
  revert d
  decide

/-- A text is read as a signed integer if it is a numeral of it and the integer fits a word. -/
theorem signed?_eq_some_iff {cs : List Char} {n : Int} :
    signed? cs = some n ↔ IsNumeral cs n ∧ fitsInt64 n = true := by
  unfold signed?
  rw [Option.filter_eq_some_iff]
  refine and_congr_left' ⟨fun h ↦ ?_, fun numeral ↦ ?_⟩
  · have digits {body : List Char} {f : Int → Int}
        (h : Option.map f ((natural? body).bind fun n ↦ some (n : Int)) = some n) :
        ∃ ds ≠ [], body = ds.map digitChar ∧ f (ofDigits ds) = n := by
      obtain ⟨m, ⟨k, read, rfl⟩, rfl⟩ := by
        simpa only [Option.map_eq_some_iff, Option.bind_eq_some_iff, Option.some.injEq] using h
      obtain ⟨ds, filled, rfl, rfl⟩ := natural?_eq_some_iff.mp read
      exact ⟨ds, filled, rfl, rfl⟩
    split at h
    · obtain ⟨ds, filled, rfl, rfl⟩ := digits h
      exact .minus filled
    · obtain ⟨ds, filled, rfl, rfl⟩ := digits h
      exact .plus filled
    · obtain ⟨ds, filled, rfl, rfl⟩ := digits h
      exact .unsigned filled
  · have read {ds : List (Fin 10)} (filled : ds ≠ []) :
        natural? (ds.map digitChar) = some (ofDigits ds) :=
      natural?_eq_some_iff.mpr ⟨ds, filled, rfl, rfl⟩
    cases numeral with
    | plus filled | minus filled => simp [read filled]
    | @unsigned ds filled =>
      obtain ⟨d, ds, rfl⟩ := List.exists_cons_of_ne_nil filled
      obtain ⟨no_minus, no_plus⟩ := digitChar_ne_sign d
      have value := read filled
      rw [List.map_cons] at value ⊢
      simp [no_minus, no_plus, value]

/-- A text is no signed integer if it is the numeral of none that fits a word. -/
theorem signed?_eq_none_iff {cs : List Char} :
    signed? cs = none ↔ ∀ n, IsNumeral cs n → fitsInt64 n = false := by
  simp only [Option.eq_none_iff_forall_ne_some, ne_eq, signed?_eq_some_iff, not_and,
    Bool.not_eq_true]

/-- A text is read as an unsigned number if it is a numeral of it without a minus sign and the
number is within bounds. -/
theorem unsigned?_eq_some_iff {bound n : Nat} {cs : List Char} :
    unsigned? bound cs = some n ↔ IsNumeral cs n ∧ cs.head? ≠ some '-' ∧ n ≤ bound := by
  simp only [unsigned?, Option.filter_eq_some_iff, decide_eq_true_eq, ← and_assoc]
  apply and_congr_left'
  constructor
  · intro h
    split at h
    · obtain ⟨ds, filled, rfl, rfl⟩ := natural?_eq_some_iff.mp h
      exact ⟨.plus filled, by simp⟩
    · obtain ⟨ds, filled, rfl, rfl⟩ := natural?_eq_some_iff.mp h
      obtain ⟨d, ds, rfl⟩ := List.exists_cons_of_ne_nil filled
      exact ⟨.unsigned filled, by simp [(digitChar_ne_sign d).1]⟩
  · rintro ⟨numeral, no_minus⟩
    generalize value : (n : Int) = m at numeral
    cases numeral with
    | minus => simp at no_minus
    | @plus ds filled =>
      exact natural?_eq_some_iff.mpr ⟨ds, filled, rfl, (Int.ofNat.inj value).symm⟩
    | @unsigned ds filled =>
      obtain rfl := Int.ofNat.inj value
      obtain ⟨d, ds, rfl⟩ := List.exists_cons_of_ne_nil filled
      have read := natural?_eq_some_iff.mpr ⟨d :: ds, filled, rfl, rfl⟩
      rw [List.map_cons] at read ⊢
      simp [(digitChar_ne_sign d).2, read]

end Quoteboard.Text
