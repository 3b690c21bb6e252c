import Mathlib.Algebra.BigOperators.Group.List.Basic
import Mathlib.Data.List.Lex
import Mathlib.Data.String.Basic

/-!
# Texts in the order of their bytes

Comparing texts by their code points compares them by the bytes that encode them: a greater
character has the greater bytes, and no character's bytes begin those of another.
-/

namespace Quoteboard.Text

/-- The bytes of a text. -/
def bytes (s : String) : List UInt8 := s.toByteArray.data.toList

/-- The bytes of a text are those of its characters, one after another. -/
theorem bytes_eq (s : String) : bytes s = s.toList.flatMap String.utf8EncodeChar := by
  have whole : s.toByteArray = s.toList.utf8Encode := by
    rw [← String.toByteArray_ofList, String.ofList_toList]
  rw [bytes, whole, List.utf8Encode, List.data_toByteArray]

/-- A text has no more characters than bytes. -/
theorem length_le_utf8ByteSize (s : String) : s.toList.length ≤ s.utf8ByteSize := by
  have size : s.utf8ByteSize = (bytes s).length := rfl
  rw [size, bytes_eq, List.length_flatMap]
  have least : ∀ n ∈ s.toList.map fun c ↦ (String.utf8EncodeChar c).length, 1 ≤ n := by
    intro n hn
    obtain ⟨c, -, rfl⟩ := List.mem_map.mp hn
    exact List.length_pos_iff.mpr String.utf8EncodeChar_ne_nil
  simpa using List.length_le_sum_of_one_le _ least

/-! ### The bytes of one character -/

private theorem cons_lt_cons {a b : Nat} (hb : b < 256) (h : a < b) (l m : List UInt8) :
    UInt8.ofNat a :: l < UInt8.ofNat b :: m := by
  refine List.cons_lt_cons_iff.mpr (.inl ?_)
  rw [UInt8.lt_iff_toNat_lt, UInt8.toNat_ofNat', UInt8.toNat_ofNat']
  omega

private theorem cons_lt_cons_of_le {a b : Nat} {l m : List UInt8} (hb : b < 256) (h : a ≤ b)
    (rest : a = b → l < m) : UInt8.ofNat a :: l < UInt8.ofNat b :: m := by
  rcases Nat.lt_or_eq_of_le h with less | rfl
  · exact cons_lt_cons hb less l m
  · exact List.cons_lt_cons_iff.mpr (.inr ⟨rfl, rest rfl⟩)

/-- The bytes of a lesser character come first, whatever follows. -/
theorem utf8EncodeChar_append_lt {c d : Char} (h : c < d) (l m : List UInt8) :
    String.utf8EncodeChar c ++ l < String.utf8EncodeChar d ++ m := by
  have below : c.val.toNat < d.val.toNat := h
  have bound : d.val.toNat < 0x110000 := by
    rcases d.valid with small | ⟨-, large⟩
    · exact Nat.lt_trans small (by decide)
    · exact large
  simp only [String.utf8EncodeChar]
  generalize c.val.toNat = v at *
  generalize d.val.toNat = w at *
  -- The first byte tells how many there are, and more of them make the greater character; of as
  -- many, the first that differ decide.
  split_ifs
  all_goals simp only [List.cons_append, List.nil_append]
  · exact cons_lt_cons (by omega) (by omega) _ _
  · exact cons_lt_cons (by omega) (by omega) _ _
  · exact cons_lt_cons (by omega) (by omega) _ _
  · exact cons_lt_cons (by omega) (by omega) _ _
  · omega
  · exact cons_lt_cons_of_le (by omega) (by omega) fun _ ↦
      cons_lt_cons (by omega) (by omega) _ _
  · exact cons_lt_cons (by omega) (by omega) _ _
  · exact cons_lt_cons (by omega) (by omega) _ _
  · omega
  · omega
  · exact cons_lt_cons_of_le (by omega) (by omega) fun _ ↦
      cons_lt_cons_of_le (by omega) (by omega) fun _ ↦
      cons_lt_cons (by omega) (by omega) _ _
  · exact cons_lt_cons (by omega) (by omega) _ _
  · omega
  · omega
  · omega
  · exact cons_lt_cons_of_le (by omega) (by omega) fun _ ↦
      cons_lt_cons_of_le (by omega) (by omega) fun _ ↦
      cons_lt_cons_of_le (by omega) (by omega) fun _ ↦
      cons_lt_cons (by omega) (by omega) _ _

/-! ### The bytes of a text -/

private theorem flatMap_lt {cs ds : List Char} (h : cs < ds) :
    cs.flatMap String.utf8EncodeChar < ds.flatMap String.utf8EncodeChar := by
  induction cs generalizing ds with
  | nil =>
    cases ds with
    | nil => exact absurd h (List.lt_irrefl _)
    | cons d ds =>
      obtain ⟨first, rest, e⟩ := List.exists_cons_of_ne_nil (String.utf8EncodeChar_ne_nil (c := d))
      rw [List.flatMap_cons, e]
      exact List.nil_lt_cons _ _
  | cons c cs ih =>
    cases ds with
    | nil => exact absurd h (List.not_lt_nil _)
    | cons d ds =>
      rw [List.flatMap_cons, List.flatMap_cons]
      rcases List.cons_lt_cons_iff.mp h with less | ⟨rfl, less⟩
      · exact utf8EncodeChar_append_lt less _ _
      · exact List.append_left_lt (ih less)

/-- Texts stand in the order of their bytes. -/
theorem bytes_lt_iff {s t : String} : bytes s < bytes t ↔ s < t := by
  have forward {s t : String} (h : s < t) : bytes s < bytes t := by
    rw [bytes_eq, bytes_eq]
    exact flatMap_lt (String.lt_iff.mp h)
  refine ⟨fun h ↦ ?_, forward⟩
  rcases lt_trichotomy s t with less | rfl | greater
  · exact less
  · exact absurd h (List.lt_irrefl _)
  · exact absurd (forward greater) (List.lt_asymm h)

/-- Comparing texts compares their bytes. -/
theorem compare_eq_lt_iff {s t : String} : compare s t = .lt ↔ bytes s < bytes t := by
  rw [bytes_lt_iff, compare_lt_iff_lt]

end Quoteboard.Text
