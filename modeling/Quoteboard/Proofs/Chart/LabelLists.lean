import Mathlib.Data.List.TakeWhile
import Mathlib.Data.Set.Card
import Mathlib.Data.String.Basic
import Mathlib.Logic.Relation
import Quoteboard.Chart.Labels
import Quoteboard.Proofs.Text.Numerals
import Quoteboard.Proofs.Text.Trimming

/-!
# What a list of labels says

A list of labels is read piece by piece. Here it is told of a piece, without the reader, whether it
gives a label, which and to what, or what is wrong with it; and of a list, which labels its pieces
give together, or which of them is the first at fault.
-/

namespace Quoteboard.Chart.Labels

open Quoteboard.Market Quoteboard.Text

/-- A piece is in two parts, before and after its first `=`. -/
structure Splits (piece before after : List Char) : Prop where
  eq_append : piece = before ++ '=' :: after
  first : '=' ∉ before

/-- A key denotes a number if it is a numeral of a signed 64-bit integer; any other is a name. -/
def Denotes (key : List Char) : Identifier → Prop
  | .id n => IsNumeral key n ∧ fitsInt64 n = true
  | .name s => s.toList = key ∧ ∀ n, IsNumeral key n → fitsInt64 n = false

/-- A piece gives a label to an instrument. -/
def Gives (piece : List Char) (k : Identifier) (label : String) : Prop :=
  ∃ before after key, Splits piece before after ∧ TrimsTo before key ∧ key ≠ [] ∧ Denotes key k ∧
    TrimsTo after label.toList ∧ label ≠ ""

/-- A piece may stand in a list: it is blank, or there is something on both sides of its first
`=`. -/
def IsProper (piece : List Char) : Prop :=
  isBlankText piece = true ∨
    ∃ before after, Splits piece before after ∧ isBlankText before = false ∧
      isBlankText after = false

/-- What is wrong with a piece. -/
inductive Offends (piece : List Char) : LabelError → Prop
  | missingSeparator {text : String} (trimmed : TrimsTo piece text.toList) (filled : text ≠ "")
      (unsplit : '=' ∉ piece) : Offends piece (.missingSeparator text)
  | emptyPart {text : String} {before after : List Char} (trimmed : TrimsTo piece text.toList)
      (splits : Splits piece before after)
      (blank : isBlankText before = true ∨ isBlankText after = true) :
      Offends piece (.emptyPart text)

/-- The labels are those that pieces give. -/
structure AreGiven (labels : Labels) (pieces : List (List Char)) : Prop where
  /-- The last piece that gives an instrument a label counts. -/
  label_of_last : ∀ front piece back k label, pieces = front ++ piece :: back →
    Gives piece k label → (∀ p ∈ back, ∀ other, ¬ Gives p k other) → labels.label k = label
  label_of_none : ∀ k, (∀ p ∈ pieces, ∀ label, ¬ Gives p k label) → labels.label k = k.display
  encard_eq : {k | ∃ p ∈ pieces, ∃ label, Gives p k label}.encard = labels.size

/-- Pieces with more blanks: a blank piece more, or blanks around a piece or around its parts. -/
inductive Spaced : List (List Char) → List (List Char) → Prop
  | piece {front back : List (List Char)} {piece : List Char} (blank : isBlankText piece = true) :
      Spaced (front ++ back) (front ++ piece :: back)
  | around {front back : List (List Char)} {piece left right : List Char}
      (blank_left : isBlankText left = true) (blank_right : isBlankText right = true) :
      Spaced (front ++ piece :: back) (front ++ (left ++ piece ++ right) :: back)
  | parts {front back : List (List Char)} {piece before after left right left' right' : List Char}
      (splits : Splits piece before after)
      (blank_left : isBlankText left = true) (blank_right : isBlankText right = true)
      (blank_left' : isBlankText left' = true) (blank_right' : isBlankText right' = true) :
      Spaced (front ++ piece :: back)
        (front ++ (left ++ before ++ right ++ '=' :: (left' ++ after ++ right')) :: back)

/-- How a list of labels is read. -/
structure Reads (spec : String) : Prop where
  exists_ok_iff : (∃ labels, ofText spec = .ok labels) ↔
    ∀ piece ∈ spec.toList.splitOn ',', IsProper piece
  areGiven : ∀ labels, ofText spec = .ok labels → AreGiven labels (spec.toList.splitOn ',')
  /-- The first piece that offends is what is told of. -/
  error_iff : ∀ e, ofText spec = .error e ↔
    ∃ front piece back, spec.toList.splitOn ',' = front ++ piece :: back ∧
      (∀ p ∈ front, IsProper p) ∧ Offends piece e
  /-- More blanks do not change the labels. -/
  ok_of_spaced : ∀ labels, ofText spec = .ok labels → ∀ spec' : String,
    Relation.ReflTransGen Spaced (spec.toList.splitOn ',') (spec'.toList.splitOn ',') →
      ofText spec' = .ok labels

variable {piece before after before' after' left right key : List Char} {k : Identifier}
  {label : String} {e : LabelError} {ps qs : List (List Char)}

/-! ### One piece -/

/-- The pieces are those that the library splits a list into. -/
theorem pieces_eq_splitOn (separator : Char) (cs : List Char) :
    pieces separator cs = cs.splitOn separator := by
  induction cs with
  | nil => rfl
  | cons c cs ih =>
    rw [pieces, ih, List.splitOn, List.splitOn, List.splitOnP_cons_eq_if_modifyHead]
    by_cases same : c = separator
    · simp [same]
    · obtain ⟨first, rest, e⟩ := List.exists_cons_of_ne_nil
        (List.splitOnP_ne_nil (· == separator) cs)
      simp [same, e]

/-- A piece with an `=` has two parts. -/
theorem exists_splits (h : '=' ∈ piece) : ∃ before after, Splits piece before after := by
  obtain ⟨before, after, e, first⟩ := List.eq_append_cons_of_mem h
  exact ⟨before, after, e, first⟩

theorem Splits.mem (h : Splits piece before after) : '=' ∈ piece := by
  rw [h.eq_append]
  simp

theorem Splits.ne_of_mem (h : Splits piece before after) :
    ∀ c ∈ before, decide (c ≠ '=') = true :=
  fun _ hc ↦ decide_eq_true fun same ↦ h.first (same ▸ hc)

theorem Splits.takeWhile_eq (h : Splits piece before after) :
    piece.takeWhile (· ≠ '=') = before := by
  rw [h.eq_append, List.takeWhile_append_of_pos h.ne_of_mem]
  simp

theorem Splits.dropWhile_eq (h : Splits piece before after) :
    piece.dropWhile (· ≠ '=') = '=' :: after := by
  rw [h.eq_append, List.dropWhile_append_of_pos h.ne_of_mem]
  simp

/-- A piece has its two parts in one way only. -/
theorem Splits.unique (h : Splits piece before after) (h' : Splits piece before' after') :
    before' = before ∧ after' = after := by
  refine ⟨h'.takeWhile_eq.symm.trans h.takeWhile_eq, ?_⟩
  exact (List.cons.inj (h'.dropWhile_eq.symm.trans h.dropWhile_eq)).2

/-- Blanks are not `=`. -/
theorem not_mem_of_isBlankText (h : isBlankText left = true) : '=' ∉ left := by
  intro inside
  exact absurd (List.all_eq_true.mp h _ inside) (by decide)

/-- Blanks around a piece are blanks around its parts. -/
theorem Splits.pad (h : Splits piece before after) (blank : isBlankText left = true) :
    Splits (left ++ piece ++ right) (left ++ before) (after ++ right) where
  eq_append := by
    rw [h.eq_append]
    simp
  first := by simp [h.first, not_mem_of_isBlankText blank]

/-- The parts of a piece without the blanks around it are, up to blanks, those of the piece. -/
theorem Splits.exists_trim (h : Splits piece before after) : ∃ before' after',
    Splits (trim piece) before' after' ∧ trim before' = trim before ∧
      trim after' = trim after := by
  obtain ⟨left, right, split, blank_left, blank_right, -, -⟩ := trimsTo_trim piece
  have inside : '=' ∈ trim piece := (mem_trim_iff (by decide)).mpr h.mem
  obtain ⟨before', after', within⟩ := exists_splits inside
  have around : Splits (left ++ trim piece ++ right) (left ++ before') (after' ++ right) :=
    within.pad blank_left
  rw [← split] at around
  obtain ⟨rfl, rfl⟩ := h.unique around
  refine ⟨before', after', within, (trim_append_left blank_left).symm, ?_⟩
  have padded : trim ([] ++ after' ++ right) = trim after' := trim_append_append rfl blank_right
  exact padded.symm

/-- The identifier of a key is what the key denotes. -/
theorem identifierOf_eq_iff : identifierOf key = k ↔ Denotes key k := by
  cases k with
  | id n =>
    rw [Denotes, ← signed?_eq_some_iff, identifierOf]
    cases signed? key <;> simp
  | name s =>
    rw [Denotes, ← signed?_eq_none_iff, identifierOf]
    cases signed? key <;> simp [← String.ofList_eq, eq_comm]

/-- What is made of a piece in two parts. -/
theorem Splits.entry_trim (h : Splits piece before after) : entry (trim piece) =
    if isBlankText before || isBlankText after then
      .error (.emptyPart (String.ofList (trim piece)))
    else .ok (identifierOf (trim before), String.ofList (trim after)) := by
  obtain ⟨before', after', within, same_key, same_label⟩ := h.exists_trim
  have blank (cs : List Char) : (trim cs).isEmpty = isBlankText cs := by
    rw [Bool.eq_iff_iff, List.isEmpty_iff, trim_eq_nil_iff]
  rw [entry, within.dropWhile_eq]
  simp only [within.takeWhile_eq, same_key, same_label, blank]

/-- What is made of a piece without a separator. -/
theorem entry_trim_of_not_mem (h : '=' ∉ piece) :
    entry (trim piece) = .error (.missingSeparator (String.ofList (trim piece))) := by
  have absent : '=' ∉ trim piece := fun inside ↦ h ((mem_trim_iff (by decide)).mp inside)
  have nothing : (trim piece).dropWhile (· ≠ '=') = [] := by
    rw [List.dropWhile_eq_nil_iff]
    intro c hc
    exact decide_eq_true fun same ↦ absent (same ▸ hc)
  rw [entry, nothing]

/-- What a piece in two parts gives. -/
theorem Splits.gives_iff (h : Splits piece before after) : Gives piece k label ↔
    isBlankText before = false ∧ isBlankText after = false ∧ identifierOf (trim before) = k ∧
      String.ofList (trim after) = label := by
  simp only [Bool.eq_false_iff, ← trim_eq_nil_iff, ne_eq, identifierOf_eq_iff, String.ofList_eq]
  constructor
  · rintro ⟨before', after', key, splits, trims, filled, denotes, trims', filled'⟩
    obtain ⟨rfl, rfl⟩ := h.unique splits
    obtain rfl := trimsTo_iff.mp trims
    have label_eq := trimsTo_iff.mp trims'
    exact ⟨filled, by simpa [label_eq] using filled', denotes, label_eq⟩
  · rintro ⟨filled, filled', denotes, label_eq⟩
    refine ⟨before, after, trim before, h, trimsTo_trim _, filled, denotes,
      trimsTo_iff.mpr label_eq, ?_⟩
    rintro rfl
    exact filled' label_eq

/-- A piece in two parts is proper if neither is blank. -/
theorem Splits.isProper_iff (h : Splits piece before after) : IsProper piece ↔
    isBlankText before = false ∧ isBlankText after = false := by
  constructor
  · rintro (blank | ⟨before', after', splits, filled⟩)
    · exact absurd h.mem (not_mem_of_isBlankText blank)
    · obtain ⟨rfl, rfl⟩ := h.unique splits
      exact filled
  · exact fun filled ↦ .inr ⟨before, after, h, filled⟩

/-- A piece in two parts offends if one is blank. -/
theorem Splits.offends_iff (h : Splits piece before after) : Offends piece e ↔
    (isBlankText before = true ∨ isBlankText after = true) ∧
      LabelError.emptyPart (String.ofList (trim piece)) = e := by
  constructor
  · rintro (⟨-, -, unsplit⟩ | ⟨trimmed, splits, blank⟩)
    · exact absurd h.mem unsplit
    · obtain ⟨rfl, rfl⟩ := h.unique splits
      rw [trimsTo_iff.mp trimmed, String.ofList_toList]
      exact ⟨blank, rfl⟩
  · rintro ⟨blank, rfl⟩
    refine .emptyPart ?_ h blank
    rw [String.toList_ofList]
    exact trimsTo_trim _

/-- A piece in one part offends if it is not blank. -/
theorem offends_iff_of_not_mem (h : '=' ∉ piece) : Offends piece e ↔
    isBlankText piece = false ∧
      LabelError.missingSeparator (String.ofList (trim piece)) = e := by
  rw [Bool.eq_false_iff, ne_eq, ← trim_eq_nil_iff]
  constructor
  · rintro (⟨trimmed, filled, -⟩ | ⟨-, splits, -⟩)
    · rw [trimsTo_iff.mp trimmed, String.ofList_toList]
      exact ⟨by simpa using filled, rfl⟩
    · exact absurd splits.mem h
  · rintro ⟨filled, rfl⟩
    refine .missingSeparator ?_ ?_ h
    · rw [String.toList_ofList]
      exact trimsTo_trim _
    · rw [ne_eq, String.ofList_eq]
      exact filled

/-- What a piece gives is made of it. -/
theorem entry_trim_eq_ok_iff : entry (trim piece) = .ok (k, label) ↔ Gives piece k label := by
  by_cases inside : '=' ∈ piece
  · obtain ⟨before, after, splits⟩ := exists_splits inside
    rw [splits.entry_trim, splits.gives_iff]
    cases isBlankText before <;> cases isBlankText after <;> simp
  · rw [entry_trim_of_not_mem inside]
    refine iff_of_false (by simp) ?_
    rintro ⟨before, after, key, splits, -⟩
    exact inside splits.mem

/-- What is wrong with a piece that is not blank is found. -/
theorem entry_trim_eq_error_iff (filled : isBlankText piece = false) :
    entry (trim piece) = .error e ↔ Offends piece e := by
  by_cases inside : '=' ∈ piece
  · obtain ⟨before, after, splits⟩ := exists_splits inside
    rw [splits.entry_trim, splits.offends_iff]
    cases isBlankText before <;> cases isBlankText after <;> simp
  · rw [entry_trim_of_not_mem inside, offends_iff_of_not_mem inside, and_iff_right filled,
      Except.error.injEq]

/-- Of a piece that is not blank something is made if it is proper. -/
theorem entry_trim_cases (filled : isBlankText piece = false) :
    (∃ k label, entry (trim piece) = .ok (k, label) ∧ IsProper piece) ∨
      ∃ e, entry (trim piece) = .error e ∧ ¬ IsProper piece := by
  by_cases inside : '=' ∈ piece
  · obtain ⟨before, after, splits⟩ := exists_splits inside
    rw [splits.entry_trim, splits.isProper_iff]
    cases isBlankText before <;> cases isBlankText after <;> simp
  · refine .inr ⟨_, entry_trim_of_not_mem inside, ?_⟩
    rintro (blank | ⟨before, after, splits, -⟩)
    · exact nomatch filled.symm.trans blank
    · exact inside splits.mem

/-- Nothing is wrong with a piece that may stand in a list. -/
theorem Offends.not_isProper (h : Offends piece e) : ¬ IsProper piece := by
  rintro (blank | ⟨before, after, splits, filled⟩)
  · have unsplit := not_mem_of_isBlankText blank
    rw [offends_iff_of_not_mem unsplit] at h
    exact nomatch h.1.symm.trans blank
  · rw [splits.offends_iff] at h
    simp [filled] at h

/-! ### All pieces -/

/-- The entries that pieces make, one after another. -/
def entries (ps : List (List Char)) : Except LabelError (List (Identifier × String)) :=
  ((ps.map trim).filter (!·.isEmpty)).mapM entry

/-- What a piece gives. -/
def given? (piece : List Char) : Option (Identifier × String) :=
  (entry (trim piece)).toOption

theorem ofText_eq (spec : String) :
    ofText spec = (entries (spec.toList.splitOn ',')).map Table.ofList := by
  rw [ofText, pairs, pieces_eq_splitOn, entries]

theorem given?_eq_some_iff : given? piece = some (k, label) ↔ Gives piece k label := by
  rw [← entry_trim_eq_ok_iff, given?]
  cases entry (trim piece) <;> simp [Except.toOption]

theorem given?_of_isBlankText (blank : isBlankText piece = true) : given? piece = none := by
  rw [given?, (trim_eq_nil_iff piece).mpr blank]
  rfl

theorem entries_cons_of_isBlankText (blank : isBlankText piece = true) :
    entries (piece :: ps) = entries ps := by
  simp [entries, (trim_eq_nil_iff piece).mpr blank]

theorem entries_cons_of_ok {first : Identifier × String} (filled : isBlankText piece = false)
    (made : entry (trim piece) = .ok first) :
    entries (piece :: ps) = (entries ps).map (first :: ·) := by
  have kept : trim piece ≠ [] := by simp [trim_eq_nil_iff, filled]
  rw [entries, List.map_cons, List.filter_cons_of_pos (by simpa using kept), List.mapM_cons, made,
    ← entries]
  cases entries ps <;> rfl

theorem entries_cons_of_error (filled : isBlankText piece = false)
    (made : entry (trim piece) = .error e) : entries (piece :: ps) = .error e := by
  have kept : trim piece ≠ [] := by simp [trim_eq_nil_iff, filled]
  rw [entries, List.map_cons, List.filter_cons_of_pos (by simpa using kept), List.mapM_cons, made]
  rfl

/-- Entries are made of pieces that are all proper, in their order. -/
theorem entries_eq_ok_iff {es : List (Identifier × String)} :
    entries ps = .ok es ↔ (∀ p ∈ ps, IsProper p) ∧ ps.filterMap given? = es := by
  induction ps generalizing es with
  | nil => simp [entries, pure, Except.pure]
  | cons piece ps ih =>
    rw [List.forall_mem_cons]
    cases blank : isBlankText piece with
    | true =>
      have proper : IsProper piece := .inl blank
      rw [entries_cons_of_isBlankText blank, ih,
        List.filterMap_cons_none (given?_of_isBlankText blank), and_iff_right proper]
    | false =>
      rcases entry_trim_cases blank with ⟨k, label, made, proper⟩ | ⟨e, made, improper⟩
      · have given : given? piece = some (k, label) := by
          rw [given?, made]
          rfl
        rw [entries_cons_of_ok blank made, List.filterMap_cons_some given, and_iff_right proper]
        constructor
        · intro all_made
          cases rest_made : entries ps with
          | error => rw [rest_made] at all_made; cases all_made
          | ok rest =>
            rw [rest_made] at all_made
            cases all_made
            obtain ⟨all_proper, rfl⟩ := ih.mp rest_made
            exact ⟨all_proper, rfl⟩
        · rintro ⟨all_proper, rfl⟩
          rw [ih.mpr ⟨all_proper, rfl⟩]
          rfl
      · rw [entries_cons_of_error blank made]
        exact iff_of_false (nomatch ·) fun h ↦ improper h.1.1

/-- The first member of a list that has a property, and what stands before it. -/
private theorem exists_first_cons {α : Type} {p q : α → Prop} {a : α} {l : List α} :
    (∃ front b back, a :: l = front ++ b :: back ∧ (∀ c ∈ front, p c) ∧ q b) ↔
      q a ∨ (p a ∧ ∃ front b back, l = front ++ b :: back ∧ (∀ c ∈ front, p c) ∧ q b) := by
  constructor
  · rintro ⟨front, b, back, split, before, has⟩
    cases front with
    | nil =>
      obtain ⟨rfl, rfl⟩ := List.cons.inj split
      exact .inl has
    | cons c front =>
      obtain ⟨rfl, rfl⟩ := List.cons.inj split
      obtain ⟨here, before⟩ := List.forall_mem_cons.mp before
      exact .inr ⟨here, front, b, back, rfl, before, has⟩
  · rintro (has | ⟨here, front, b, back, rfl, before, has⟩)
    · exact ⟨[], a, l, rfl, by simp, has⟩
    · exact ⟨a :: front, b, back, rfl, List.forall_mem_cons.mpr ⟨here, before⟩, has⟩

/-- No entries are made if a piece offends, and the first that does is told of. -/
theorem entries_eq_error_iff : entries ps = .error e ↔
    ∃ front piece back, ps = front ++ piece :: back ∧ (∀ p ∈ front, IsProper p) ∧
      Offends piece e := by
  induction ps with
  | nil => simp [entries, pure, Except.pure]
  | cons piece ps ih =>
    rw [exists_first_cons, ← ih]
    cases blank : isBlankText piece with
    | true =>
      have proper : IsProper piece := .inl blank
      rw [entries_cons_of_isBlankText blank, and_iff_right proper,
        or_iff_right fun h ↦ h.not_isProper proper]
    | false =>
      rcases entry_trim_cases blank with ⟨k, label, made, proper⟩ | ⟨e', made, improper⟩
      · rw [entries_cons_of_ok blank made, and_iff_right proper,
          or_iff_right fun h ↦ h.not_isProper proper]
        cases entries ps <;> simp [Except.map]
      · rw [entries_cons_of_error blank made, or_iff_left fun h ↦ improper h.1,
          ← entry_trim_eq_error_iff blank, made, Except.error.injEq, Except.error.injEq]

/-! ### More blanks -/

/-- Blanks around a piece leave what it gives. -/
theorem given?_pad (blank_left : isBlankText left = true) (blank_right : isBlankText right = true) :
    given? (left ++ piece ++ right) = given? piece := by
  rw [given?, trim_append_append blank_left blank_right, given?]

/-- Blanks around a piece that may stand in a list leave it so. -/
theorem IsProper.pad (h : IsProper piece) (blank_left : isBlankText left = true)
    (blank_right : isBlankText right = true) : IsProper (left ++ piece ++ right) := by
  rcases h with blank | ⟨before, after, splits, filled, filled'⟩
  · exact .inl ((isBlankText_append_append _ blank_left blank_right).trans blank)
  · refine .inr ⟨_, _, splits.pad blank_left, ?_, ?_⟩
    · rw [isBlankText_append, filled, Bool.and_false]
    · rw [isBlankText_append, filled', Bool.false_and]

/-- What a piece in two parts gives, if it gives anything. -/
theorem Splits.given?_eq (h : Splits piece before after) : given? piece =
    if isBlankText before || isBlankText after then none
    else some (identifierOf (trim before), String.ofList (trim after)) := by
  rw [given?, h.entry_trim]
  split <;> rfl

/-- Another piece in place of one leaves what all give if it gives the same. -/
theorem filterMap_given?_congr {piece' : List Char} (same : given? piece' = given? piece)
    (front back : List (List Char)) : (front ++ piece' :: back).filterMap given? =
      (front ++ piece :: back).filterMap given? := by
  rw [List.filterMap_append, List.filterMap_append, List.filterMap_cons, List.filterMap_cons, same]

/-- More blanks around pieces that are all proper leave what they give. -/
theorem Spaced.keeps (h : Spaced ps qs) (proper : ∀ p ∈ ps, IsProper p) :
    (∀ p ∈ qs, IsProper p) ∧ qs.filterMap given? = ps.filterMap given? := by
  cases h with
  | @piece front back piece blank =>
    rw [List.forall_mem_append] at proper
    refine ⟨?_, ?_⟩
    · rw [List.forall_mem_append, List.forall_mem_cons]
      exact ⟨proper.1, .inl blank, proper.2⟩
    · rw [List.filterMap_append, List.filterMap_cons_none (given?_of_isBlankText blank),
        List.filterMap_append]
  | @around front back piece left right blank_left blank_right =>
    rw [List.forall_mem_append, List.forall_mem_cons] at proper ⊢
    obtain ⟨proper_front, here, proper_back⟩ := proper
    exact ⟨⟨proper_front, here.pad blank_left blank_right, proper_back⟩,
      filterMap_given?_congr (given?_pad blank_left blank_right) front back⟩
  | @parts front back piece before after left right left' right' splits blank_left blank_right
      blank_left' blank_right' =>
    rw [List.forall_mem_append, List.forall_mem_cons] at proper ⊢
    obtain ⟨proper_front, here, proper_back⟩ := proper
    have apart : Splits (left ++ before ++ right ++ '=' :: (left' ++ after ++ right'))
        (left ++ before ++ right) (left' ++ after ++ right') := by
      refine ⟨rfl, ?_⟩
      simp [splits.first, not_mem_of_isBlankText blank_left, not_mem_of_isBlankText blank_right]
    have same_blank := isBlankText_append_append before blank_left blank_right
    have same_blank' := isBlankText_append_append after blank_left' blank_right'
    refine ⟨⟨proper_front, ?_, proper_back⟩, filterMap_given?_congr ?_ front back⟩
    · rw [apart.isProper_iff, same_blank, same_blank', ← splits.isProper_iff]
      exact here
    · rw [apart.given?_eq, same_blank, same_blank', trim_append_append blank_left blank_right,
        trim_append_append blank_left' blank_right', ← splits.given?_eq]

/-- A text without a separator in front of a list goes to its first piece. -/
theorem pieces_append_left {separator : Char} (h : separator ∉ left) (cs : List Char) :
    pieces separator (left ++ cs) = (pieces separator cs).modifyHead (left ++ ·) := by
  obtain ⟨piece, more, split⟩ := List.exists_cons_of_ne_nil
    (pieces_eq_splitOn separator cs ▸ List.splitOn_ne_nil separator cs)
  rw [split]
  induction left with
  | nil => exact split
  | cons c left ih =>
    obtain ⟨differs, absent⟩ := not_or.mp (mt List.mem_cons.mpr h)
    rw [List.cons_append, pieces, if_neg (Ne.symm differs), ih absent]
    rfl

/-- A text without a separator behind a list goes to its last piece. -/
theorem exists_pieces_append {separator : Char} (h : separator ∉ right) (cs : List Char) :
    ∃ front last, pieces separator cs = front ++ [last] ∧
      pieces separator (cs ++ right) = front ++ [last ++ right] := by
  induction cs with
  | nil =>
    have alone := pieces_append_left h []
    rw [List.append_nil] at alone
    exact ⟨[], [], rfl, by simpa [pieces] using alone⟩
  | cons c cs ih =>
    obtain ⟨front, last, split, split_right⟩ := ih
    rw [List.cons_append, pieces, pieces, split, split_right]
    by_cases same : c = separator
    · exact ⟨[] :: front, last, by simp [same], by simp [same]⟩
    · cases front with
      | nil => exact ⟨[], c :: last, by simp [same], by simp [same]⟩
      | cons piece front => exact ⟨(c :: piece) :: front, last, by simp [same], by simp [same]⟩

/-- Blanks around a whole list leave its pairs. -/
theorem pairs_append_append (cs : List Char) (blank_left : isBlankText left = true)
    (blank_right : isBlankText right = true) : pairs (left ++ cs ++ right) = pairs cs := by
  have comma : isBlank ',' = false := by decide
  have trims_left : (pieces ',' (left ++ cs)).map trim = (pieces ',' cs).map trim := by
    rw [pieces_append_left (not_mem_of_blank comma blank_left)]
    cases pieces ',' cs with
    | nil => rfl
    | cons piece more => simp [trim_append_left blank_left]
  obtain ⟨front, last, split, split_right⟩ :=
    exists_pieces_append (not_mem_of_blank comma blank_right) (left ++ cs)
  have trims_right : trim ([] ++ last ++ right) = trim last := trim_append_append rfl blank_right
  rw [List.nil_append] at trims_right
  rw [pairs, pairs, ← trims_left, split, split_right, List.map_append, List.map_append,
    List.map_singleton, List.map_singleton, trims_right]

/-- Blanks around a whole list do not change how it is read. -/
theorem ofText_trimString (spec : String) : ofText (trimString spec) = ofText spec := by
  obtain ⟨left, right, split, blank_left, blank_right, -, -⟩ := trimsTo_trim spec.toList
  rw [ofText, ofText, trimString, String.toList_ofList,
    ← pairs_append_append _ blank_left blank_right, ← split]

/-! ### The labels of a list -/

/-- The instruments of what pieces give. -/
theorem mem_keys_ofList_given?_iff : k ∈ (Table.ofList (ps.filterMap given?)).keys ↔
    ∃ p ∈ ps, ∃ label, Gives p k label := by
  simp only [Table.mem_keys_ofList_iff, List.mem_filterMap, given?_eq_some_iff]
  constructor
  · rintro ⟨label, p, hp, gives⟩
    exact ⟨p, hp, label, gives⟩
  · rintro ⟨p, hp, label, gives⟩
    exact ⟨label, p, hp, gives⟩

/-- The labels made of what pieces give are those that the pieces give. -/
theorem areGiven_ofList (ps : List (List Char)) :
    AreGiven (Table.ofList (ps.filterMap given?)) ps where
  label_of_last front piece back k label split gives last := by
    have fresh : ∀ e ∈ back.filterMap given?, e.1 ≠ k := by
      rintro ⟨j, other⟩ he rfl
      obtain ⟨p, hp, given⟩ := List.mem_filterMap.mp he
      exact last p hp other (given?_eq_some_iff.mp given)
    have found := (Table.get?_ofList (ps.filterMap given?) k label).mpr
      ⟨front.filterMap given?, back.filterMap given?, by
        rw [split, List.filterMap_append,
          List.filterMap_cons_some (given?_eq_some_iff.mpr gives)], fresh⟩
    rw [Labels.label, found, Option.getD_some]
  label_of_none k none := by
    have absent : k ∉ (Table.ofList (ps.filterMap given?)).keys := by
      rw [mem_keys_ofList_given?_iff]
      rintro ⟨p, hp, label, gives⟩
      exact none p hp label gives
    rw [Table.mem_keys_iff, Option.not_isSome_iff_eq_none] at absent
    rw [Labels.label, absent, Option.getD_none]
  encard_eq := by
    have keys_eq : {k | ∃ p ∈ ps, ∃ label, Gives p k label} =
        ((Table.ofList (ps.filterMap given?)).keys.toFinset : Set Identifier) := by
      ext k
      rw [List.coe_toFinset, Set.mem_ofPred_eq, Set.mem_ofPred_eq, mem_keys_ofList_given?_iff]
    rw [keys_eq, Set.encard_coe_eq_coe_finsetCard,
      List.toFinset_card_of_nodup (Table.nodup_keys _), Table.keys, List.length_map, Table.size]

/-- A list of labels is read if all its pieces are proper, and has the labels that they give. -/
theorem ofText_eq_ok_iff {spec : String} {labels : Labels} : ofText spec = .ok labels ↔
    (∀ p ∈ spec.toList.splitOn ',', IsProper p) ∧
      Table.ofList ((spec.toList.splitOn ',').filterMap given?) = labels := by
  rw [ofText_eq]
  constructor
  · intro made
    cases entries_made : entries (spec.toList.splitOn ',') with
    | error =>
      rw [entries_made] at made
      cases made
    | ok es =>
      rw [entries_made] at made
      cases made
      obtain ⟨proper, rfl⟩ := entries_eq_ok_iff.mp entries_made
      exact ⟨proper, rfl⟩
  · rintro ⟨proper, rfl⟩
    rw [entries_eq_ok_iff.mpr ⟨proper, rfl⟩]
    rfl

/-- A list of labels is refused for the first piece that offends. -/
theorem ofText_eq_error_iff {spec : String} : ofText spec = .error e ↔
    ∃ front piece back, spec.toList.splitOn ',' = front ++ piece :: back ∧
      (∀ p ∈ front, IsProper p) ∧ Offends piece e := by
  rw [ofText_eq, ← entries_eq_error_iff]
  cases entries (spec.toList.splitOn ',') <;> simp [Except.map]

/-- However many blanks more there are, pieces stay proper and what they give stays the same. -/
theorem keeps_of_spaced (h : Relation.ReflTransGen Spaced ps qs) (proper : ∀ p ∈ ps, IsProper p) :
    (∀ p ∈ qs, IsProper p) ∧ qs.filterMap given? = ps.filterMap given? := by
  induction h with
  | refl => exact ⟨proper, rfl⟩
  | tail _ spaced ih =>
    obtain ⟨proper_between, same_between⟩ := ih
    obtain ⟨proper_after, same_after⟩ := spaced.keeps proper_between
    exact ⟨proper_after, same_after.trans same_between⟩

/-- A list of labels is read as its pieces say: if none of them offends, the labels are those that
they give, whatever blanks there are; else it is told what is wrong with the first that does. -/
theorem reads_ofText (spec : String) : Reads spec where
  exists_ok_iff := by
    simp [ofText_eq_ok_iff]
  areGiven labels made := by
    obtain ⟨-, rfl⟩ := ofText_eq_ok_iff.mp made
    exact areGiven_ofList _
  error_iff e := by
    rw [ofText_eq, ← entries_eq_error_iff]
    cases entries (spec.toList.splitOn ',') <;> simp [Except.map]
  ok_of_spaced labels made spec' spaced := by
    obtain ⟨proper, rfl⟩ := ofText_eq_ok_iff.mp made
    obtain ⟨proper', same⟩ := keeps_of_spaced spaced proper
    rw [ofText_eq_ok_iff, same]
    exact ⟨proper', rfl⟩

/-- Two keys of one number, and a blank piece. -/
example : (ofText "+1=A, ES = S&P ,, 01 = B").map (·.toList) =
    .ok [(.id 1, "B"), (.name "ES", "S&P")] := rfl

end Quoteboard.Chart.Labels
