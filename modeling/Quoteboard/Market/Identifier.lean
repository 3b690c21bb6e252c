/-!
# Identifiers

Instruments and clients are named by a number or by a text. Numbers come before texts; numbers
are ordered by value and texts by their code points.
-/

namespace Quoteboard.Market

/-- The name of an instrument or a client. -/
inductive Identifier where
  | id (number : Int)
  | name (text : String)
  deriving DecidableEq, Repr

namespace Identifier

/-- The text shown for an identifier. -/
def display : Identifier → String
  | .id n => toString n
  | .name s => s

/-- Numbers come first, then texts. -/
protected def compare : Identifier → Identifier → Ordering
  | .id m, .id n => Ord.compare m n
  | .id _, .name _ => .lt
  | .name _, .id _ => .gt
  | .name s, .name t => Ord.compare s t

instance : Ord Identifier where
  compare := Identifier.compare

theorem compare_id_id (m n : Int) : compare (id m) (id n) = compare m n := rfl

theorem compare_name_name (s t : String) : compare (name s) (name t) = compare s t := rfl

theorem compare_id_name (m : Int) (t : String) : compare (id m) (name t) = .lt := rfl

theorem compare_name_id (s : String) (n : Int) : compare (name s) (id n) = .gt := rfl

instance : Std.TransOrd Identifier where
  eq_swap := by
    intro a b
    cases a <;> cases b
    · simp only [compare_id_id]
      exact Std.OrientedCmp.eq_swap
    · rfl
    · rfl
    · simp only [compare_name_name]
      exact Std.OrientedCmp.eq_swap
  isLE_trans := by
    intro a b c
    cases a <;> cases b <;> cases c
    · simp only [compare_id_id]
      exact Std.TransCmp.isLE_trans
    · simp [compare_id_name]
    · simp [compare_id_name, compare_name_id]
    · simp [compare_id_name]
    · simp [compare_name_id]
    · simp [compare_id_name, compare_name_id]
    · simp [compare_name_id]
    · simp only [compare_name_name]
      exact Std.TransCmp.isLE_trans

instance : Std.LawfulEqOrd Identifier where
  compare_self := by
    intro a
    cases a
    · rw [compare_id_id]
      exact Std.ReflCmp.compare_self
    · rw [compare_name_name]
      exact Std.ReflCmp.compare_self
  eq_of_compare := by
    intro a b h
    cases a <;> cases b
    · rw [compare_id_id] at h
      rw [Std.LawfulEqCmp.eq_of_compare h]
    · cases h
    · cases h
    · rw [compare_name_name] at h
      rw [Std.LawfulEqCmp.eq_of_compare h]

end Identifier

end Quoteboard.Market
