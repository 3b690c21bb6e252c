import Mathlib.Data.List.DropRight
import Quoteboard.Json.Value
import Quoteboard.Proofs.Json.Grammar
import Quoteboard.Proofs.Text.Numerals

/-!
# Scanning numbers, strings and keywords

The scanner takes from the front of a text what the grammar spells there: as many digits as there
are, a string up to its closing quote, a keyword in full. What may stand behind a number does not go
on with it, so the scanner does not read further than the grammar says.
-/

namespace Quoteboard.Json

open Quoteboard.Text

/-! ### Outcomes -/

section

variable {ε α β : Type} {x : Except ε α} {b : β}

/-- A result that is changed comes from a result. -/
theorem map_eq_ok_iff {f : α → β} : x.map f = .ok b ↔ ∃ a, x = .ok a ∧ f a = b := by
  cases x <;> simp [Except.map]

/-- A result of two steps comes from a result of each. -/
theorem bind_eq_ok_iff {f : α → Except ε β} :
    x >>= f = .ok b ↔ ∃ a, x = .ok a ∧ f a = .ok b := by
  cases x <;> simp [bind, Except.bind]

end

variable {cs rest : List Char}

/-! ### Blanks -/

/-- Blanks in front are dropped. -/
theorem skipSpace_append {ws : List Char} (h : AllSpace ws) (cs : List Char) :
    skipSpace (ws ++ cs) = skipSpace cs := by
  induction ws with
  | nil => rfl
  | cons w ws ih =>
    have blank : isSpace w = true := h w List.mem_cons_self
    have rest := ih fun c hc ↦ h c (List.mem_cons_of_mem _ hc)
    rw [skipSpace] at rest ⊢
    rw [List.cons_append, List.dropWhile_cons, if_pos blank, rest, skipSpace]

/-- A character that is not blank stays in front. -/
theorem skipSpace_cons {c : Char} (h : isSpace c = false) (cs : List Char) :
    skipSpace (c :: cs) = c :: cs := by
  rw [skipSpace, List.dropWhile_cons, if_neg (Bool.eq_false_iff.mp h)]

/-- What is dropped is blank. -/
theorem exists_skipSpace (cs : List Char) : ∃ ws, AllSpace ws ∧ cs = ws ++ skipSpace cs := by
  refine ⟨cs.takeWhile isSpace, ?_, List.takeWhile_append_dropWhile.symm⟩
  intro c hc
  exact List.mem_takeWhile_imp hc

/-- Nothing is left of a text of blanks. -/
theorem skipSpace_eq_nil_iff : skipSpace cs = [] ↔ AllSpace cs := by
  rw [skipSpace, List.dropWhile_eq_nil_iff]
  rfl

/-! ### Numbers

Each part of a number has two lemmas: the scanner takes the part from the front of a text if it is
spelt there, and what the scanner has taken is spelt so. -/

/-- What does not go on with a number: it begins with no digit, no point and no exponent. -/
def EndsNumber (cs : List Char) : Prop :=
  ∀ c ∈ cs.head?, digit? c = none ∧ c ≠ '.' ∧ c ≠ 'e' ∧ c ≠ 'E'

/-- What does not go on with digits. -/
def EndsDigits (cs : List Char) : Prop := ∀ c ∈ cs.head?, digit? c = none

theorem scanDigits_append (ds : List (Fin 10)) (h : EndsDigits rest) :
    scanDigits (ds.map digitChar ++ rest) = (ds, rest) := by
  induction ds with
  | nil =>
    cases rest with
    | nil => rfl
    | cons c rest =>
      have stop := h c rfl
      simp [scanDigits, stop]
  | cons d ds ih => simp [scanDigits, digit?_digitChar, ih]

theorem eq_of_scanDigits {ds : List (Fin 10)} (h : scanDigits cs = (ds, rest)) :
    cs = ds.map digitChar ++ rest := by
  fun_induction scanDigits cs generalizing ds with
  | case1 => simp_all
  | case2 c cs d hd ds' after he ih =>
    obtain ⟨rfl, rfl⟩ := h
    rw [List.map_cons, List.cons_append, ← ih he, digit?_eq_some_iff.mp hd]
  | case3 c cs hd =>
    obtain ⟨rfl, rfl⟩ := h
    rfl

theorem scanSomeDigits_append {ds : List (Fin 10)} (some_digit : ds ≠ []) (h : EndsDigits rest) :
    scanSomeDigits (ds.map digitChar ++ rest) = .ok (ds, rest) := by
  rw [scanSomeDigits, scanDigits_append ds h]
  cases ds with
  | nil => exact absurd rfl some_digit
  | cons d ds => rfl

theorem of_scanSomeDigits {ds : List (Fin 10)} (h : scanSomeDigits cs = .ok (ds, rest)) :
    ds ≠ [] ∧ cs = ds.map digitChar ++ rest := by
  rw [scanSomeDigits] at h
  split at h
  · cases h
  · cases h
  · next ds' after no_end no_other scanned =>
    cases h
    refine ⟨?_, eq_of_scanDigits scanned⟩
    rintro rfl
    cases rest with
    | nil => exact no_end rfl rfl
    | cons c rest => exact no_other c rest rfl rfl

theorem scanWhole_append {ds : List (Fin 10)} (is_whole : IsWholePart ds) (h : EndsDigits rest) :
    scanWhole (ds.map digitChar ++ rest) = .ok (ds, rest) := by
  obtain ⟨some_digit, no_zero⟩ := is_whole
  simp only [scanWhole, scanSomeDigits_append some_digit h, bind, Except.bind]
  split
  · exact absurd (no_zero _ rfl) (List.cons_ne_nil _ _)
  · rfl

theorem of_scanWhole {ds : List (Fin 10)} (h : scanWhole cs = .ok (ds, rest)) :
    IsWholePart ds ∧ cs = ds.map digitChar ++ rest := by
  rw [scanWhole, bind_eq_ok_iff] at h
  obtain ⟨⟨ds', after⟩, scanned, h⟩ := h
  obtain ⟨some_digit, rfl⟩ := of_scanSomeDigits scanned
  dsimp only at h
  split at h
  · cases h
  · next no_zero =>
    cases h
    refine ⟨⟨some_digit, fun more e ↦ ?_⟩, rfl⟩
    cases more with
    | nil => rfl
    | cons d more => exact absurd e (no_zero d more)

theorem scanFraction_append {f : Option (List (Fin 10))} {fs : List Char}
    (spelt : FractionSpelt f fs) (h : EndsDigits rest) (no_point : ∀ c ∈ rest.head?, c ≠ '.') :
    scanFraction (fs ++ rest) = .ok (f, rest) := by
  cases spelt with
  | absent =>
    rw [List.nil_append]
    unfold scanFraction
    split
    · exact absurd rfl (no_point '.' rfl)
    · rfl
  | digits some_digit => simp [scanFraction, scanSomeDigits_append some_digit h, Except.map]

theorem of_scanFraction {f : Option (List (Fin 10))} (h : scanFraction cs = .ok (f, rest)) :
    ∃ fs, FractionSpelt f fs ∧ cs = fs ++ rest := by
  unfold scanFraction at h
  split at h
  · obtain ⟨⟨ds, after⟩, scanned, e⟩ := map_eq_ok_iff.mp h
    obtain ⟨some_digit, rfl⟩ := of_scanSomeDigits scanned
    cases e
    exact ⟨_, .digits some_digit, rfl⟩
  · cases h
    exact ⟨[], .absent, rfl⟩

private theorem scanExponent_of_digit {e : Char} (letter : e = 'e' ∨ e = 'E') (d : Fin 10)
    (cs : List Char) : scanExponent (e :: digitChar d :: cs)
      = (scanSomeDigits (digitChar d :: cs)).map fun (ds, after) ↦ (some (false, ds), after) := by
  obtain ⟨no_minus, no_plus⟩ := digitChar_ne_sign d
  simp [scanExponent, letter, no_minus, no_plus]

theorem scanExponent_append {e : Option (Bool × List (Fin 10))} {es : List Char}
    (spelt : ExponentSpelt e es) (h : EndsNumber rest) :
    scanExponent (es ++ rest) = .ok (e, rest) := by
  have digits_end : EndsDigits rest := fun c hc ↦ (h c hc).1
  cases spelt with
  | absent =>
    rw [List.nil_append]
    cases rest with
    | nil => rfl
    | cons c rest =>
      obtain ⟨-, -, small, great⟩ := h c rfl
      simp [scanExponent, small, great]
  | @bare letter ds is_letter some_digit =>
    obtain ⟨d, ds, rfl⟩ := List.exists_cons_of_ne_nil some_digit
    have scanned := scanSomeDigits_append some_digit digits_end
    rw [List.map_cons, List.cons_append] at scanned
    rw [List.map_cons, List.cons_append, List.cons_append, scanExponent_of_digit is_letter, scanned]
    rfl
  | plus is_letter some_digit =>
    simp [scanExponent, is_letter, scanSomeDigits_append some_digit digits_end, Except.map]
  | minus is_letter some_digit =>
    simp [scanExponent, is_letter, scanSomeDigits_append some_digit digits_end, Except.map]

theorem of_scanExponent {e : Option (Bool × List (Fin 10))} (h : scanExponent cs = .ok (e, rest)) :
    ∃ es, ExponentSpelt e es ∧ cs = es ++ rest := by
  unfold scanExponent at h
  split at h
  · next c inside =>
    split at h
    · next letter =>
      simp only [Bool.or_eq_true, decide_eq_true_eq] at letter
      dsimp only at h
      split at h
      all_goals
        obtain ⟨⟨ds, after⟩, scanned, e⟩ := map_eq_ok_iff.mp h
        obtain ⟨some_digit, rfl⟩ := of_scanSomeDigits scanned
        cases e
      · exact ⟨_, .minus letter some_digit, rfl⟩
      · exact ⟨_, .plus letter some_digit, rfl⟩
      · exact ⟨_, .bare letter some_digit, rfl⟩
    · cases h
      exact ⟨[], .absent, rfl⟩
  · cases h
    exact ⟨[], .absent, rfl⟩

private theorem exponent_head {e : Option (Bool × List (Fin 10))} {es : List Char}
    (spelt : ExponentSpelt e es) (h : EndsNumber rest) :
    ∀ c ∈ (es ++ rest).head?, digit? c = none ∧ c ≠ '.' := by
  intro c hc
  cases spelt with
  | absent => exact ⟨(h c hc).1, (h c hc).2.1⟩
  | bare letter | plus letter | minus letter =>
    obtain rfl := Option.some.inj hc
    rcases letter with rfl | rfl <;> decide

private theorem fraction_head {f : Option (List (Fin 10))} {fs : List Char}
    (spelt : FractionSpelt f fs) (h : EndsDigits rest) : EndsDigits (fs ++ rest) := by
  cases spelt with
  | absent => exact h
  | digits =>
    intro c hc
    obtain rfl := Option.some.inj hc
    decide

theorem scanNumber_append (negative : Bool) {whole : List (Fin 10)}
    {fraction : Option (List (Fin 10))} {exponent : Option (Bool × List (Fin 10))}
    {fs es : List Char} (is_whole : IsWholePart whole) (fraction_spelt : FractionSpelt fraction fs)
    (exponent_spelt : ExponentSpelt exponent es) (h : EndsNumber rest) :
    scanNumber negative (whole.map digitChar ++ (fs ++ (es ++ rest)))
      = .ok (⟨negative, whole, fraction, exponent⟩, rest) := by
  have behind := exponent_head exponent_spelt h
  have no_digit : EndsDigits (es ++ rest) := fun c hc ↦ (behind c hc).1
  have no_point : ∀ c ∈ (es ++ rest).head?, c ≠ '.' := fun c hc ↦ (behind c hc).2
  rw [scanNumber, scanWhole_append is_whole (fraction_head fraction_spelt no_digit)]
  simp only [bind, Except.bind, scanFraction_append fraction_spelt no_digit no_point,
    scanExponent_append exponent_spelt h]
  rfl

theorem of_scanNumber {l : Literal} {negative : Bool} (h : scanNumber negative cs = .ok (l, rest)) :
    ∃ body, l.negative = negative ∧ l.SpeltAs (signText negative ++ body) ∧ cs = body ++ rest := by
  rw [scanNumber, bind_eq_ok_iff] at h
  obtain ⟨⟨whole, cs₁⟩, scanned_whole, h⟩ := h
  obtain ⟨⟨fraction, cs₂⟩, scanned_fraction, h⟩ := bind_eq_ok_iff.mp h
  obtain ⟨⟨exponent, cs₃⟩, scanned_exponent, h⟩ := bind_eq_ok_iff.mp h
  cases h
  obtain ⟨is_whole, rfl⟩ := of_scanWhole scanned_whole
  obtain ⟨fs, fraction_spelt, rfl⟩ := of_scanFraction scanned_fraction
  obtain ⟨es, exponent_spelt, rfl⟩ := of_scanExponent scanned_exponent
  exact ⟨_, rfl, .intro is_whole fraction_spelt exponent_spelt, by simp⟩

/-! ### Strings -/

/-- One element is read at a time. -/
theorem scan_piece {p : Piece} (spelt : p.SpeltAs cs) (rest : List Char) :
    RawText.scan (cs ++ rest)
      = ((RawText.scan rest).1.cons p, (RawText.scan rest).2) := by
  cases spelt with
  | @plain c no_quote no_backslash no_control =>
    rw [List.singleton_append, RawText.scan, if_neg no_control]
    all_goals simp [no_quote, no_backslash]
  | @named c e names =>
    have no_unit : c ≠ 'u' := by
      rintro rfl
      cases names
    simp [RawText.scan, names]
  | @unit a b c d n digits =>
    have long : hasFourBytes (a :: b :: c :: d :: rest) = true := by
      have := a.utf8Size_pos
      have := b.utf8Size_pos
      have := c.utf8Size_pos
      have := d.utf8Size_pos
      simp [hasFourBytes]
      omega
    simp [RawText.scan, long, digits]

/-- A string is read up to its closing quote. -/
theorem scan_pieces {ps : List Piece} (spelt : PiecesSpelt ps cs) (rest : List Char) :
    RawText.scan (cs ++ '"' :: rest) = (⟨ps, .closed⟩, rest) := by
  induction spelt with
  | nil => simp [RawText.scan]
  | cons first _ ih =>
    rw [List.append_assoc, scan_piece first, ih]
    rfl

/-- What is read as a closed string is spelt so. -/
theorem of_scan_closed {t : RawText} (h : RawText.scan cs = (t, rest))
    (closed : t.ending = .closed) :
    ∃ inside, PiecesSpelt t.pieces inside ∧ cs = inside ++ '"' :: rest := by
  fun_induction RawText.scan cs generalizing t rest with
  | case1 | case4 | case5 | case6 | case8 | case9 | case10 =>
    cases h
    cases closed
  | case2 more =>
    cases h
    exact ⟨[], .nil, rfl⟩
  | case3 a b c d more n digits t' after scanned long ih =>
    cases h
    obtain ⟨inside, spelt, rfl⟩ := ih scanned closed
    exact ⟨_, .cons (.unit digits) spelt, rfl⟩
  | case7 c more no_unit e names t' after scanned ih =>
    cases h
    obtain ⟨inside, spelt, rfl⟩ := ih scanned closed
    exact ⟨_, .cons (.named names) spelt, rfl⟩
  | case11 c more no_quote no_unit no_escape no_end no_control t' after scanned ih =>
    cases h
    have no_backslash : c ≠ '\\' := by
      intro e
      cases more with
      | nil => exact no_end e rfl
      | cons d more => exact no_escape d more e rfl
    obtain ⟨inside, spelt, rfl⟩ := ih scanned closed
    exact ⟨_, .cons (.plain no_quote no_backslash no_control) spelt, rfl⟩

/-- A string is read from behind its opening quote. -/
theorem scan_text {t : RawText} (spelt : t.SpeltAs cs) (rest : List Char) :
    ∃ inside, cs = '"' :: inside ∧ RawText.scan (inside ++ rest) = (t, rest) := by
  obtain ⟨closed, pieces⟩ := spelt
  refine ⟨_, rfl, ?_⟩
  rw [List.append_assoc, List.singleton_append, scan_pieces pieces, ← closed]

/-- A string is passed over if it ends as it should. -/
theorem RawText.skip_eq_ok_iff {t : RawText} : t.skip = .ok () ↔ t.ending = .closed := by
  rw [RawText.skip]
  cases t.ending <;> simp [TextEnd.error?]

/-! ### Values that hold no others -/

/-- A keyword is read in full. -/
theorem scanKeyword_eq_ok_iff {ks : List Char} :
    scanKeyword ks cs = .ok rest ↔ cs = ks ++ rest := by
  induction ks generalizing cs with
  | nil => simp [scanKeyword]
  | cons k ks ih =>
    cases cs with
    | nil => simp [scanKeyword]
    | cons c cs =>
      rw [scanKeyword]
      split
      · next same => simp [same, ih]
      · next differ => simp [Ne.symm differ]

/-- A number begins with a character that begins no other value and ends none. -/
theorem Literal.SpeltAs.exists_cons {l : Literal} (spelt : l.SpeltAs cs) : ∃ c tail,
    cs = c :: tail ∧ isSpace c = false ∧ c ≠ ']' ∧ c ≠ '[' ∧ c ≠ '\x7b' := by
  cases spelt with
  | @intro negative whole fraction exponent fs es is_whole =>
    cases negative with
    | true => exact ⟨'-', _, rfl, by decide⟩
    | false =>
      obtain ⟨d, ds, rfl⟩ := List.exists_cons_of_ne_nil is_whole.1
      refine ⟨digitChar d, _, rfl, ?_⟩
      clear is_whole
      revert d
      decide

/-- A value begins with a character that is neither blank nor the end of an array. -/
theorem Node.SpeltAs.exists_cons {node : Node} (spelt : node.SpeltAs cs) :
    ∃ c tail, cs = c :: tail ∧ isSpace c = false ∧ c ≠ ']' := by
  cases spelt with
  | number spelt =>
    obtain ⟨c, tail, rfl, blank, no_end, -⟩ := spelt.exists_cons
    exact ⟨c, tail, rfl, blank, no_end⟩
  | text spelt =>
    cases spelt
    exact ⟨_, _, rfl, by decide, by decide⟩
  | _ => exact ⟨_, _, rfl, by decide, by decide⟩

private theorem scanScalar_digit (d : Fin 10) (cs : List Char) :
    Node.scanScalar (digitChar d :: cs)
      = Node.ofScan .number (scanNumber false (digitChar d :: cs)) := by
  have other : digitChar d ≠ 'n' ∧ digitChar d ≠ 't' ∧ digitChar d ≠ 'f' ∧ digitChar d ≠ '"' ∧
      digitChar d ≠ '-' := by
    revert d
    decide
  obtain ⟨no_null, no_true, no_false, no_quote, no_minus⟩ := other
  rw [Node.scanScalar, digit?_digitChar]
  · rfl
  all_goals assumption

theorem scanScalar_number {l : Literal} (spelt : l.SpeltAs cs) (h : EndsNumber rest) :
    Node.scanScalar (cs ++ rest) = (.number l, rest) := by
  cases spelt with
  | @intro negative whole fraction exponent fs es is_whole fraction_spelt exponent_spelt =>
    have scanned := scanNumber_append negative is_whole fraction_spelt exponent_spelt h
    cases negative with
    | true => simp [signText, Node.scanScalar, scanned, Node.ofScan]
    | false =>
      obtain ⟨d, ds, rfl⟩ := List.exists_cons_of_ne_nil is_whole.1
      simp only [List.map_cons, List.cons_append] at scanned
      simp [signText, scanScalar_digit, scanned, Node.ofScan]

theorem scanScalar_text {t : RawText} (spelt : t.SpeltAs cs) (rest : List Char) :
    Node.scanScalar (cs ++ rest) = (.text t, rest) := by
  obtain ⟨inside, rfl, scanned⟩ := scan_text spelt rest
  simp [Node.scanScalar, scanned]

private theorem of_ofScan {α : Type} {f : α → Node} {x : Except Flaw (α × List Char)} {node : Node}
    (h : Node.ofScan f x = (node, rest)) (flawless : node.skip = .ok ()) :
    ∃ a, x = .ok (a, rest) ∧ f a = node := by
  cases x with
  | error flaw =>
    cases h
    cases flawless
  | ok found =>
    cases h
    exact ⟨_, rfl, rfl⟩

private theorem of_keyword {ks : List Char} {c : Char} {u : Unit}
    (h : (scanKeyword ks cs).map ((), ·) = .ok (u, rest)) : c :: cs = c :: ks ++ rest := by
  obtain ⟨after, scanned, e⟩ := map_eq_ok_iff.mp h
  cases e
  rw [scanKeyword_eq_ok_iff.mp scanned]
  rfl

/-- What is read without a flaw where neither an array nor an object begins is spelt so. -/
theorem of_scanScalar {node : Node} (h : Node.scanScalar cs = (node, rest))
    (flawless : node.skip = .ok ()) : ∃ body, node.SpeltAs body ∧ cs = body ++ rest := by
  unfold Node.scanScalar at h
  split at h
  · cases h
    cases flawless
  · obtain ⟨_, scanned, rfl⟩ := of_ofScan h flawless
    exact ⟨_, .null, of_keyword scanned⟩
  · obtain ⟨_, scanned, rfl⟩ := of_ofScan h flawless
    exact ⟨_, .yes, of_keyword scanned⟩
  · obtain ⟨_, scanned, rfl⟩ := of_ofScan h flawless
    exact ⟨_, .no, of_keyword scanned⟩
  · next inside =>
    cases scanned : RawText.scan inside with
    | mk t after =>
      rw [scanned] at h
      cases h
      have closed : t.ending = .closed := RawText.skip_eq_ok_iff.mp flawless
      obtain ⟨body, spelt, rfl⟩ := of_scan_closed scanned closed
      exact ⟨_, .text (.intro closed spelt), by simp⟩
  · obtain ⟨l, scanned, rfl⟩ := of_ofScan h flawless
    obtain ⟨body, -, spelt, rfl⟩ := of_scanNumber scanned
    exact ⟨_, .number spelt, rfl⟩
  · split at h
    · obtain ⟨l, scanned, rfl⟩ := of_ofScan h flawless
      obtain ⟨body, -, spelt, found⟩ := of_scanNumber scanned
      exact ⟨body, .number spelt, found⟩
    · cases h
      cases flawless

end Quoteboard.Json
