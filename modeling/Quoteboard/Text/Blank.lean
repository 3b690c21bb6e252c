/-!
# Blank characters and trimming

The characters with the Unicode property `White_Space`, and the part of a text
between its first and its last character that is not blank.
-/

namespace Quoteboard.Text

/-- The characters with the Unicode property `White_Space`. -/
def isBlank (c : Char) : Bool :=
  ('\t' ≤ c && c ≤ '\x0d') || c = ' ' || c = '\u0085' || c = '\u00a0' || c = '\u1680'
    || ('\u2000' ≤ c && c ≤ '\u200a') || c = '\u2028' || c = '\u2029' || c = '\u202f'
    || c = '\u205f' || c = '\u3000'

/-- Every character that core counts as white space is blank. -/
theorem isBlank_of_isWhitespace {c : Char} (h : c.isWhitespace = true) : isBlank c = true := by
  simp only [Char.isWhitespace, Bool.or_eq_true, decide_eq_true_eq] at h
  rcases h with ((rfl | rfl) | rfl) | rfl <;> decide

/-- Drop the blank characters at the end. -/
def trimEnd (cs : List Char) : List Char :=
  (cs.reverse.dropWhile isBlank).reverse

/-- Drop the blank characters at both ends. -/
def trim (cs : List Char) : List Char :=
  trimEnd (cs.dropWhile isBlank)

/-- Whether nothing is left after trimming. -/
def isBlankText (cs : List Char) : Bool :=
  cs.all isBlank

/-- Trim a string at both ends. -/
def trimString (s : String) : String :=
  String.ofList (trim s.toList)

private theorem dropWhile_eq_nil {p : Char → Bool} {cs : List Char} :
    cs.dropWhile p = [] ↔ cs.all p = true := by
  induction cs with
  | nil => simp
  | cons c cs ih =>
    by_cases h : p c = true
    · simp [List.dropWhile, h, ih]
    · simp [List.dropWhile, h]

private theorem all_dropWhile_iff {p : Char → Bool} {cs : List Char} :
    (cs.dropWhile p).all p = true ↔ cs.all p = true := by
  induction cs with
  | nil => simp
  | cons c cs ih =>
    by_cases h : p c = true
    · simp [List.dropWhile, h, ih]
    · simp [List.dropWhile, h]

/-- Trimming leaves nothing exactly of a text whose characters are all blank. -/
theorem trim_eq_nil_iff (cs : List Char) : trim cs = [] ↔ isBlankText cs = true := by
  rw [trim, trimEnd, List.reverse_eq_nil_iff, dropWhile_eq_nil, List.all_reverse,
    all_dropWhile_iff, isBlankText]

/-- Blank characters in front do not change the trimmed text. -/
theorem trim_append_left {pad cs : List Char} (h : isBlankText pad = true) :
    trim (pad ++ cs) = trim cs := by
  have drop : (pad ++ cs).dropWhile isBlank = cs.dropWhile isBlank := by
    induction pad with
    | nil => rfl
    | cons c pad ih =>
      simp only [isBlankText, List.all_cons, Bool.and_eq_true] at h
      simp [h.1, ih h.2]
  rw [trim, trim, drop]

end Quoteboard.Text
