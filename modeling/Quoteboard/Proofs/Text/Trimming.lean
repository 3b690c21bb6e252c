import Quoteboard.Text.Blank

/-!
# What trimming leaves

Trimming takes the blanks from both ends of a text. What is left is the one part of the text that
has nothing but blanks around it and neither begins nor ends with a blank.
-/

namespace Quoteboard.Text

/-- A text is a part of it with blanks around, and the part neither begins nor ends with a blank. -/
def TrimsTo (cs part : List Char) : Prop :=
  ∃ front back, cs = front ++ part ++ back ∧ isBlankText front = true ∧ isBlankText back = true ∧
    (∀ c ∈ part.head?, isBlank c = false) ∧ ∀ c ∈ part.getLast?, isBlank c = false

variable {cs part front back : List Char}

theorem isBlankText_append (cs ds : List Char) :
    isBlankText (cs ++ ds) = (isBlankText cs && isBlankText ds) :=
  List.all_append

private theorem dropWhile_of_head? (h : ∀ c ∈ cs.head?, isBlank c = false) :
    cs.dropWhile isBlank = cs := by
  cases cs with
  | nil => rfl
  | cons c cs => rw [List.dropWhile_cons_of_neg (by simp [h c rfl])]

/-- Blanks at the end are dropped, and no more. -/
theorem trimEnd_append (h : ∀ c ∈ part.getLast?, isBlank c = false)
    (blank : isBlankText back = true) : trimEnd (part ++ back) = part := by
  have all_blank : ∀ c ∈ back.reverse, isBlank c = true := by
    simpa [isBlankText] using blank
  have stop : part.reverse.dropWhile isBlank = part.reverse :=
    dropWhile_of_head? (by simpa using h)
  rw [trimEnd, List.reverse_append, List.dropWhile_append_of_pos all_blank, stop,
    List.reverse_reverse]

private theorem not_isBlank_of_mem_head? {c : Char} (h : c ∈ (cs.dropWhile isBlank).head?) :
    isBlank c = false := by
  have stops := List.head?_dropWhile_not isBlank cs
  rw [h] at stops
  exact stops

/-- What is dropped at the end is blank, and all blanks there are. -/
theorem exists_trimEnd (cs : List Char) : ∃ back, cs = trimEnd cs ++ back ∧
    isBlankText back = true ∧ ∀ c ∈ (trimEnd cs).getLast?, isBlank c = false := by
  refine ⟨(cs.reverse.takeWhile isBlank).reverse, ?_, ?_, ?_⟩
  · rw [trimEnd, ← List.reverse_append, List.takeWhile_append_dropWhile, List.reverse_reverse]
  · simp [isBlankText]
  · intro c hc
    rw [trimEnd, List.getLast?_reverse] at hc
    exact not_isBlank_of_mem_head? hc

/-- Trimming leaves the part that neither begins nor ends with a blank. -/
theorem trimsTo_iff : TrimsTo cs part ↔ trim cs = part := by
  constructor
  · rintro ⟨front, back, rfl, blank_front, blank_back, first, last⟩
    rw [List.append_assoc, trim_append_left blank_front]
    cases part with
    | nil => exact (trim_eq_nil_iff _).mpr blank_back
    | cons c part =>
      rw [trim, dropWhile_of_head? (by simpa using first), trimEnd_append last blank_back]
  · rintro rfl
    obtain ⟨back, split, blank_back, last⟩ := exists_trimEnd (cs.dropWhile isBlank)
    refine ⟨cs.takeWhile isBlank, back, ?_, by simp [isBlankText], blank_back, ?_, last⟩
    · rw [List.append_assoc, trim, ← split, List.takeWhile_append_dropWhile]
    · intro c hc
      have first : (trimEnd (cs.dropWhile isBlank)).head? = some c := hc
      apply not_isBlank_of_mem_head?
      rw [split, List.head?_append, first]
      rfl

/-- A text trims to what trimming leaves of it. -/
theorem trimsTo_trim (cs : List Char) : TrimsTo cs (trim cs) := trimsTo_iff.mpr rfl

/-- Trimming takes nothing but blanks. -/
theorem mem_trim_iff {c : Char} (h : isBlank c = false) : c ∈ trim cs ↔ c ∈ cs := by
  obtain ⟨front, back, split, blank_front, blank_back, -⟩ := trimsTo_trim cs
  have absent {pad : List Char} (blank : isBlankText pad = true) : c ∉ pad := fun inside ↦
    nomatch h.symm.trans (List.all_eq_true.mp blank c inside)
  conv => rhs; rw [split]
  simp [absent blank_front, absent blank_back]

/-- A blank text has no character that is not blank. -/
theorem not_mem_of_blank {c : Char} (h : isBlank c = false) (blank : isBlankText cs = true) :
    c ∉ cs :=
  fun inside ↦ nomatch h.symm.trans (List.all_eq_true.mp blank c inside)

/-- Blanks around a text do not change what trimming leaves of it. -/
theorem trim_append_append (blank_front : isBlankText front = true)
    (blank_back : isBlankText back = true) : trim (front ++ cs ++ back) = trim cs := by
  obtain ⟨before, behind, split, blank_before, blank_behind, first, last⟩ := trimsTo_trim cs
  refine trimsTo_iff.mp ⟨front ++ before, behind ++ back, ?_, ?_, ?_, first, last⟩
  · conv => lhs; rw [split]
    simp only [List.append_assoc]
  · rw [isBlankText_append, blank_front, blank_before]
    rfl
  · rw [isBlankText_append, blank_behind, blank_back]
    rfl

/-- A text is as blank as with blanks around it. -/
theorem isBlankText_append_append (cs : List Char) (blank_front : isBlankText front = true)
    (blank_back : isBlankText back = true) :
    isBlankText (front ++ cs ++ back) = isBlankText cs := by
  simp [isBlankText_append, blank_front, blank_back]

end Quoteboard.Text
