import Quoteboard.Proofs.Json.Lexemes

/-!
# Scanning follows the grammar

The scanner makes a tree without flaws out of a text exactly if the grammar spells that tree as the
text. In one direction the recursion of the scanner is followed with what the grammar spells; in the
other every branch that leaves no flaw is shown to have read something the grammar spells. Both are
inductions on the scanner's fuel, of which there is enough because every step takes a character.
-/

namespace Quoteboard.Json

variable {cs rest : List Char}

/-! ### Values that hold others -/

/-- Blanks are dropped but once. -/
theorem skipSpace_skipSpace (cs : List Char) : skipSpace (skipSpace cs) = skipSpace cs :=
  List.dropWhile_idempotent isSpace cs

/-- Blanks in front of a value do not matter. -/
theorem Node.scan_skipSpace (fuel : Nat) (cs : List Char) :
    Node.scan fuel (skipSpace cs) = Node.scan fuel cs := by
  cases fuel with
  | zero => rfl
  | succ fuel => rw [Node.scan, Node.scan, skipSpace_skipSpace]

/-- Blanks in front of an item do not matter. -/
theorem Items.scan_skipSpace (fuel : Nat) (cs : List Char) :
    Items.scan fuel (skipSpace cs) = Items.scan fuel cs := by
  cases fuel with
  | zero => rfl
  | succ fuel => rw [Items.scan, Items.scan, Node.scan_skipSpace]

/-- An array with items does not end where it begins. -/
theorem Items.SpeltAs.exists_skipSpace {items : Items} (spelt : items.SpeltAs cs)
    (rest : List Char) : ∃ c tail, skipSpace (cs ++ rest) = c :: tail ∧ c ≠ ']' := by
  cases spelt with
  | last padded behind | more padded behind =>
    obtain ⟨before, spelt⟩ := padded
    obtain ⟨c, tail, rfl, blank, no_end⟩ := spelt.exists_cons
    simp only [List.append_assoc, skipSpace_append before, List.cons_append, skipSpace_cons blank]
    exact ⟨c, _, rfl, no_end⟩

/-- An object with members begins with a key. -/
theorem Members.SpeltAs.exists_skipSpace {members : Members} (spelt : members.SpeltAs cs)
    (rest : List Char) : ∃ tail, skipSpace (cs ++ rest) = '"' :: tail := by
  cases spelt with
  | last before key_spelt | more before key_spelt =>
    obtain ⟨inside, rfl, -⟩ := scan_text key_spelt []
    simp only [List.append_assoc, skipSpace_append before, List.cons_append]
    exact ⟨_, skipSpace_cons (by decide) _⟩

variable {fuel : Nat} {front back : List Char}

private theorem endsNumber_of_head
    (h : ∀ c ∈ cs.head?, isSpace c = true ∨ c = ',' ∨ c = ']' ∨ c = '\x7d') : EndsNumber cs := by
  intro c hc
  have ends := h c hc
  simp only [isSpace, Bool.or_eq_true, decide_eq_true_eq] at ends
  rcases ends with (((rfl | rfl) | rfl) | rfl) | rfl | rfl | rfl <;> decide

private theorem endsNumber_back (behind : AllSpace back) {c : Char}
    (closing : c = ',' ∨ c = ']' ∨ c = '\x7d') (rest : List Char) :
    EndsNumber (back ++ c :: rest) := by
  apply endsNumber_of_head
  intro d hd
  cases back with
  | nil =>
    obtain rfl := Option.some.inj hd
    exact .inr closing
  | cons b back =>
    obtain rfl := Option.some.inj hd
    exact .inl (behind _ List.mem_cons_self)

/-- A scalar is read where neither an array nor an object begins. -/
theorem Node.scan_of_scalar (before : AllSpace front) {c : Char} (blank : isSpace c = false)
    (no_array : c ≠ '[') (no_object : c ≠ '\x7b') (fuel : Nat) (tail : List Char) :
    Node.scan (fuel + 1) (front ++ c :: tail) = Node.scanScalar (c :: tail) := by
  rw [Node.scan, skipSpace_append before, skipSpace_cons blank]
  split
  · next e => exact absurd (List.cons.inj e).1 no_array
  · next e => exact absurd (List.cons.inj e).1 no_object
  · rfl

/-- The scanner reads what the grammar spells, up to this fuel. -/
structure Reads (fuel : Nat) : Prop where
  value : ∀ {node : Node} {vs rest : List Char}, Padded node vs → EndsNumber rest →
    vs.length ≤ fuel → Node.scan fuel (vs ++ rest) = (node, rest)
  items : ∀ {items : Items} {cs : List Char}, items.SpeltAs cs → cs.length < fuel →
    ∀ rest, Items.scan fuel (cs ++ ']' :: rest) = (items, rest)
  members : ∀ {members : Members} {cs : List Char}, members.SpeltAs cs → cs.length < fuel →
    ∀ rest, Members.scan fuel (skipSpace (cs ++ '\x7d' :: rest)) = (members, rest)

namespace Reads

/-- A value is read with the fuel for what is inside it, and one more. -/
theorem value_succ (h : Reads fuel) {node : Node} {vs rest : List Char} (padded : Padded node vs)
    (ends : EndsNumber rest) (bound : vs.length ≤ fuel + 1) :
    Node.scan (fuel + 1) (vs ++ rest) = (node, rest) := by
  obtain ⟨before, spelt⟩ := padded
  rw [List.append_assoc]
  cases spelt with
  | null | yes | no =>
    exact Node.scan_of_scalar before (by decide) (by decide) (by decide) fuel _
  | number spelt =>
    rw [← scanScalar_number spelt ends]
    obtain ⟨c, tail, rfl, blank, -, no_array, no_object⟩ := spelt.exists_cons
    exact Node.scan_of_scalar before blank no_array no_object fuel _
  | text spelt =>
    rw [← scanScalar_text spelt rest]
    obtain ⟨inside, rfl, -⟩ := scan_text spelt rest
    exact Node.scan_of_scalar before (by decide) (by decide) (by decide) fuel _
  | emptyArray blank =>
    rw [Node.scan, skipSpace_append before, List.cons_append, skipSpace_cons (by decide)]
    simp [skipSpace_append blank, skipSpace_cons (show isSpace ']' = false by decide)]
  | @array items cs spelt =>
    -- The brackets are not part of the items, which leaves more fuel than they need.
    have inner : cs.length < fuel := by
      simp at bound
      omega
    obtain ⟨c, tail, begins, no_end⟩ := spelt.exists_skipSpace (']' :: rest)
    have read := h.items spelt inner rest
    rw [← Items.scan_skipSpace, begins] at read
    rw [Node.scan, skipSpace_append before, List.cons_append, skipSpace_cons (by decide)]
    simp [begins, no_end, read]
  | emptyObject blank =>
    rw [Node.scan, skipSpace_append before, List.cons_append, skipSpace_cons (by decide)]
    simp [skipSpace_append blank, skipSpace_cons (show isSpace '\x7d' = false by decide)]
  | @object members cs spelt =>
    have inner : cs.length < fuel := by
      simp at bound
      omega
    obtain ⟨tail, begins⟩ := spelt.exists_skipSpace ('\x7d' :: rest)
    have read := h.members spelt inner rest
    rw [begins] at read
    rw [Node.scan, skipSpace_append before, List.cons_append, skipSpace_cons (by decide)]
    simp [begins, read]

/-- Items are read with the fuel for the first and the others, and one more. -/
theorem items_succ (h : Reads fuel) {items : Items} (spelt : items.SpeltAs cs)
    (bound : cs.length < fuel + 1) (rest : List Char) :
    Items.scan (fuel + 1) (cs ++ ']' :: rest) = (items, rest) := by
  cases spelt with
  | @last item vs back padded behind =>
    have room : vs.length ≤ fuel := by
      simp at bound
      omega
    have read := h.value padded (endsNumber_back behind (.inr (.inl rfl)) rest) room
    rw [List.append_assoc, Items.scan, read]
    simp [skipSpace_append behind, skipSpace_cons (show isSpace ']' = false by decide)]
  | @more item items vs back more padded behind others =>
    have room : vs.length ≤ fuel ∧ more.length < fuel := by
      simp at bound
      omega
    have read := h.value padded (endsNumber_back behind (.inl rfl) (more ++ ']' :: rest)) room.1
    have read_more := h.items others room.2 rest
    obtain ⟨c, tail, begins, no_end⟩ := others.exists_skipSpace (']' :: rest)
    rw [← Items.scan_skipSpace, begins] at read_more
    rw [List.append_assoc, List.append_assoc, List.cons_append, Items.scan, read]
    simp [skipSpace_append behind, skipSpace_cons (show isSpace ',' = false by decide), begins,
      no_end, read_more]

/-- Members are read with the fuel for the first and the others, and one more. -/
theorem members_succ (h : Reads fuel) {members : Members} (spelt : members.SpeltAs cs)
    (bound : cs.length < fuel + 1) (rest : List Char) :
    Members.scan (fuel + 1) (skipSpace (cs ++ '\x7d' :: rest)) = (members, rest) := by
  cases spelt with
  | @last key value front ks middle vs back before key_spelt between padded behind =>
    have room : vs.length ≤ fuel := by
      simp at bound
      omega
    have read := h.value padded (endsNumber_back behind (.inr (.inr rfl)) rest) room
    obtain ⟨inside, rfl, read_key⟩ :=
      scan_text key_spelt (middle ++ ':' :: (vs ++ (back ++ '\x7d' :: rest)))
    simp only [List.append_assoc, List.cons_append, skipSpace_append before,
      skipSpace_cons (show isSpace '"' = false by decide)]
    simp [Members.scan, read_key, key_spelt.closed, skipSpace_append between,
      skipSpace_cons (show isSpace ':' = false by decide), read, skipSpace_append behind,
      skipSpace_cons (show isSpace '\x7d' = false by decide)]
  | @more key value members front ks middle vs back more before key_spelt between padded behind
      others =>
    have room : vs.length ≤ fuel ∧ more.length < fuel := by
      simp at bound
      omega
    have read := h.value padded (endsNumber_back behind (.inl rfl) (more ++ '\x7d' :: rest)) room.1
    have read_more := h.members others room.2 rest
    obtain ⟨tail, begins⟩ := others.exists_skipSpace ('\x7d' :: rest)
    rw [begins] at read_more
    obtain ⟨inside, rfl, read_key⟩ :=
      scan_text key_spelt (middle ++ ':' :: (vs ++ (back ++ ',' :: (more ++ '\x7d' :: rest))))
    simp only [List.append_assoc, List.cons_append, skipSpace_append before,
      skipSpace_cons (show isSpace '"' = false by decide)]
    simp [Members.scan, read_key, key_spelt.closed, skipSpace_append between,
      skipSpace_cons (show isSpace ':' = false by decide), read, skipSpace_append behind,
      skipSpace_cons (show isSpace ',' = false by decide), begins, read_more]

end Reads

/-- The scanner reads what the grammar spells. -/
theorem reads (fuel : Nat) : Reads fuel := by
  induction fuel with
  | zero =>
    refine ⟨?_, ?_, ?_⟩
    · intro node vs rest padded _ bound
      obtain ⟨before, spelt⟩ := padded
      obtain ⟨c, tail, rfl, -⟩ := spelt.exists_cons
      simp at bound
    · intro items cs _ bound
      exact absurd bound (Nat.not_lt_zero _)
    · intro members cs _ bound
      exact absurd bound (Nat.not_lt_zero _)
  | succ fuel ih => exact ⟨ih.value_succ, ih.items_succ, ih.members_succ⟩

/-- More blanks may stand in front of members. -/
theorem Members.SpeltAs.pad {members : Members} (spelt : members.SpeltAs cs)
    (blank : AllSpace front) : members.SpeltAs (front ++ cs) := by
  have both {front' : List Char} (before : AllSpace front') : AllSpace (front ++ front') := by
    intro c hc
    exact (List.mem_append.mp hc).elim (blank c) (before c)
  cases spelt with
  | last before key_spelt between padded behind =>
    rw [← List.append_assoc]
    exact .last (both before) key_spelt between padded behind
  | more before key_spelt between padded behind others =>
    rw [← List.append_assoc]
    exact .more (both before) key_spelt between padded behind others

/-- Items are passed over one by one. -/
theorem Items.skip_more {item : Node} {items : Items} :
    (Items.more item items).skip = .ok () ↔ item.skip = .ok () ∧ items.skip = .ok () := by
  rw [Items.skip, bind_eq_ok_iff]
  exact ⟨fun ⟨_, h⟩ ↦ h, fun h ↦ ⟨(), h⟩⟩

/-- Members are passed over one by one. -/
theorem Members.skip_more {key : RawText} {value : Node} {members : Members} :
    (Members.more key value members).skip = .ok () ↔
      value.skip = .ok () ∧ members.skip = .ok () := by
  rw [Members.skip, bind_eq_ok_iff]
  exact ⟨fun ⟨_, h⟩ ↦ h, fun h ↦ ⟨(), h⟩⟩

/-- Items end with the closing bracket. -/
theorem Items.skip_stop {ending : ItemsEnd} :
    (Items.stop ending).skip = .ok () ↔ ending = .closed := by
  cases ending <;> simp [Items.skip, ItemsEnd.skipError?, ItemsEnd.error?, demand]

/-- Members end with the closing brace, or with a key that ends as it should, which the scanner
never gives. -/
theorem Members.skip_stop {ending : MembersEnd} : (Members.stop ending).skip = .ok () ↔
    ending = .closed ∨ ∃ key, ending = .badKey key ∧ key.ending = .closed := by
  cases ending with
  | badKey key =>
    simp only [Members.skip, MembersEnd.skipError?, MembersEnd.error?]
    cases e : key.ending <;> simp [TextEnd.error?, demand, e]
  | _ => simp [Members.skip, MembersEnd.skipError?, MembersEnd.error?, demand]

/-- How items without a flaw go on behind the first. -/
theorem Items.of_scan_succ {items : Items} (scanned : Items.scan (fuel + 1) cs = (items, rest))
    (flawless : items.skip = .ok ()) : ∃ item after, Node.scan fuel cs = (item, after) ∧
      ((skipSpace after = ']' :: rest ∧ items = .more item (.stop .closed)) ∨
        ∃ more items', skipSpace after = ',' :: more ∧ Items.scan fuel more = (items', rest) ∧
          items = .more item items') := by
  cases read : Node.scan fuel cs with
  | mk item after =>
    refine ⟨item, after, rfl, ?_⟩
    rw [Items.scan, read] at scanned
    dsimp only at scanned
    split at scanned
    · cases scanned
      simp [Items.skip_more, Items.skip_stop] at flawless
    · next ended =>
      cases scanned
      exact .inl ⟨ended, rfl⟩
    · next more comma =>
      split at scanned
      · cases scanned
        simp [Items.skip_more, Items.skip_stop] at flawless
      · rw [Items.scan_skipSpace] at scanned
        cases scanned
        exact .inr ⟨more, _, comma, rfl, rfl⟩
    · cases scanned
      simp [Items.skip_more, Items.skip_stop] at flawless

/-- How members without a flaw go on behind the first. -/
theorem Members.of_scan_succ {members : Members}
    (scanned : Members.scan (fuel + 1) cs = (members, rest)) (flawless : members.skip = .ok ()) :
    ∃ inside key after value_text value behind, cs = '"' :: inside ∧
      RawText.scan inside = (key, after) ∧ key.ending = .closed ∧
      skipSpace after = ':' :: value_text ∧ Node.scan fuel value_text = (value, behind) ∧
      ((skipSpace behind = '\x7d' :: rest ∧ members = .more key value (.stop .closed)) ∨
        ∃ more members', skipSpace behind = ',' :: more ∧
          Members.scan fuel (skipSpace more) = (members', rest) ∧
          members = .more key value members') := by
  unfold Members.scan at scanned
  split at scanned
  · next inside =>
    cases read_key : RawText.scan inside with
    | mk key after =>
    rw [read_key] at scanned
    dsimp only at scanned
    split at scanned
    · next closed =>
      split at scanned
      · cases scanned
        cases flawless
      · next value_text colon =>
        refine ⟨inside, key, after, value_text, _, _, rfl, read_key, closed, colon, rfl, ?_⟩
        split at scanned
        · cases scanned
          simp [Members.skip_more, Members.skip_stop] at flawless
        · next ended =>
          cases scanned
          exact .inl ⟨ended, rfl⟩
        · next more comma =>
          split at scanned
          · cases scanned
            simp [Members.skip_more, Members.skip_stop] at flawless
          · cases scanned
            simp [Members.skip_more, Members.skip_stop] at flawless
          · cases scanned
            exact .inr ⟨more, _, comma, rfl, rfl⟩
        · cases scanned
          simp [Members.skip_more, Members.skip_stop] at flawless
      · cases scanned
        cases flawless
    · next open_key =>
      cases scanned
      simp [Members.skip_stop, open_key] at flawless
  · cases scanned
    cases flawless

/-- What the scanner reads without a flaw, up to this fuel, is what the grammar spells. -/
structure ReadsOnly (fuel : Nat) : Prop where
  value : ∀ {cs rest : List Char} {node : Node}, Node.scan fuel cs = (node, rest) →
    node.skip = .ok () → ∃ vs, Padded node vs ∧ cs = vs ++ rest
  items : ∀ {cs rest : List Char} {items : Items}, Items.scan fuel cs = (items, rest) →
    items.skip = .ok () → ∃ body, items.SpeltAs body ∧ cs = body ++ ']' :: rest
  members : ∀ {cs rest : List Char} {members : Members}, Members.scan fuel cs = (members, rest) →
    members.skip = .ok () → ∃ body, members.SpeltAs body ∧ cs = body ++ '\x7d' :: rest

namespace ReadsOnly

theorem value_succ (h : ReadsOnly fuel) {node : Node}
    (scanned : Node.scan (fuel + 1) cs = (node, rest)) (flawless : node.skip = .ok ()) :
    ∃ vs, Padded node vs ∧ cs = vs ++ rest := by
  obtain ⟨front, before, split_front⟩ := exists_skipSpace cs
  rw [Node.scan] at scanned
  split at scanned
  · next inside begins =>
    obtain ⟨blanks, blank, split_inside⟩ := exists_skipSpace inside
    rw [begins] at split_front
    split at scanned
    · cases scanned
      cases flawless
    · next ended =>
      cases scanned
      rw [ended] at split_inside
      exact ⟨_, .intro before (.emptyArray blank), by simp [split_front, split_inside]⟩
    · rw [Items.scan_skipSpace] at scanned
      cases found : Items.scan fuel inside with
      | mk items after =>
        rw [found] at scanned
        cases scanned
        obtain ⟨body, spelt, rfl⟩ := h.items found flawless
        exact ⟨_, .intro before (.array spelt), by simp [split_front]⟩
  · next inside begins =>
    obtain ⟨blanks, blank, split_inside⟩ := exists_skipSpace inside
    rw [begins] at split_front
    split at scanned
    · cases scanned
      cases flawless
    · next ended =>
      cases scanned
      rw [ended] at split_inside
      exact ⟨_, .intro before (.emptyObject blank), by simp [split_front, split_inside]⟩
    · cases found : Members.scan fuel (skipSpace inside) with
      | mk members after =>
        rw [found] at scanned
        cases scanned
        obtain ⟨body, spelt, ended⟩ := h.members found flawless
        rw [ended] at split_inside
        exact ⟨_, .intro before (.object (spelt.pad blank)), by simp [split_front, split_inside]⟩
  · obtain ⟨body, spelt, found⟩ := of_scanScalar scanned flawless
    refine ⟨_, .intro before spelt, ?_⟩
    rw [List.append_assoc, ← found]
    exact split_front

theorem items_succ (h : ReadsOnly fuel) {items : Items}
    (scanned : Items.scan (fuel + 1) cs = (items, rest)) (flawless : items.skip = .ok ()) :
    ∃ body, items.SpeltAs body ∧ cs = body ++ ']' :: rest := by
  obtain ⟨item, after, read, ends | goes_on⟩ := Items.of_scan_succ scanned flawless
  all_goals obtain ⟨back, behind, split_back⟩ := exists_skipSpace after
  · obtain ⟨ended, rfl⟩ := ends
    obtain ⟨vs, padded, rfl⟩ := h.value read (Items.skip_more.mp flawless).1
    rw [ended] at split_back
    exact ⟨_, .last padded behind, by simp [split_back]⟩
  · obtain ⟨more, items, comma, found, rfl⟩ := goes_on
    obtain ⟨flawless_item, flawless⟩ := Items.skip_more.mp flawless
    obtain ⟨vs, padded, rfl⟩ := h.value read flawless_item
    obtain ⟨body, spelt, rfl⟩ := h.items found flawless
    rw [comma] at split_back
    exact ⟨_, .more padded behind spelt, by simp [split_back]⟩

theorem members_succ (h : ReadsOnly fuel) {members : Members}
    (scanned : Members.scan (fuel + 1) cs = (members, rest)) (flawless : members.skip = .ok ()) :
    ∃ body, members.SpeltAs body ∧ cs = body ++ '\x7d' :: rest := by
  obtain ⟨inside, key, after, value_text, value, behind_value, rfl, read_key, closed, colon, read,
    ends | goes_on⟩ := Members.of_scan_succ scanned flawless
  all_goals
    obtain ⟨ks, pieces, rfl⟩ := of_scan_closed read_key closed
    have key_spelt := RawText.SpeltAs.intro closed pieces
    have nothing : AllSpace [] := fun _ hc ↦ absurd hc List.not_mem_nil
    obtain ⟨middle, between, split_middle⟩ := exists_skipSpace after
    obtain ⟨back, behind, split_back⟩ := exists_skipSpace behind_value
    rw [colon] at split_middle
  · obtain ⟨ended, rfl⟩ := ends
    obtain ⟨vs, padded, rfl⟩ := h.value read (Members.skip_more.mp flawless).1
    rw [ended] at split_back
    exact ⟨_, .last nothing key_spelt between padded behind, by simp [split_middle, split_back]⟩
  · obtain ⟨more, members, comma, found, rfl⟩ := goes_on
    obtain ⟨flawless_value, flawless⟩ := Members.skip_more.mp flawless
    obtain ⟨vs, padded, rfl⟩ := h.value read flawless_value
    obtain ⟨body, spelt, split_more⟩ := h.members found flawless
    obtain ⟨blanks, blank, split_blanks⟩ := exists_skipSpace more
    rw [comma] at split_back
    rw [split_more] at split_blanks
    exact ⟨_, .more nothing key_spelt between padded behind (spelt.pad blank),
      by simp [split_middle, split_back, split_blanks]⟩

end ReadsOnly

/-- The scanner reads only what the grammar spells. -/
theorem readsOnly (fuel : Nat) : ReadsOnly fuel := by
  induction fuel with
  | zero =>
    refine ⟨?_, ?_, ?_⟩
    all_goals
      intro cs rest found scanned flawless
      cases scanned
      cases flawless
  | succ fuel ih => exact ⟨ih.value_succ, ih.items_succ, ih.members_succ⟩

mutual

/-- A whole value is passed over. -/
theorem Node.IsWhole.skip : {node : Node} → node.IsWhole → node.skip = .ok ()
  | .null, _ | .bool _, _ | .number _, _ => rfl
  | .text _, closed => RawText.skip_eq_ok_iff.mpr closed
  | .array _, whole => Items.IsWhole.skip whole
  | .object _, whole => Members.IsWhole.skip whole
  | .flawed _, whole => whole.elim

/-- Whole items are passed over. -/
theorem Items.IsWhole.skip : {items : Items} → items.IsWhole → items.skip = .ok ()
  | .stop _, closed => Items.skip_stop.mpr closed
  | .more _ _, ⟨whole, others⟩ =>
    Items.skip_more.mpr ⟨Node.IsWhole.skip whole, Items.IsWhole.skip others⟩

/-- Whole members are passed over. -/
theorem Members.IsWhole.skip : {members : Members} → members.IsWhole → members.skip = .ok ()
  | .stop _, closed => Members.skip_stop.mpr (.inl closed)
  | .more _ _ _, ⟨_, whole, others⟩ =>
    Members.skip_more.mpr ⟨Node.IsWhole.skip whole, Members.IsWhole.skip others⟩

end

/-- A text is a document exactly if the scanner finds no flaw in it and nothing behind it. -/
theorem isDocument_iff {node : Node} : IsDocument node cs ↔
    (Document.scan cs).root = node ∧ (Document.scan cs).trailing = false ∧ node.skip = .ok () := by
  simp only [Document.scan, Bool.not_eq_false', List.isEmpty_iff, skipSpace_eq_nil_iff]
  constructor
  · rintro ⟨body, back, padded, behind, rfl⟩
    have ends : EndsNumber back :=
      endsNumber_of_head fun c hc ↦ .inl (behind c (List.mem_of_mem_head? hc))
    have room : body.length ≤ 2 * (body ++ back).length + 2 := by
      rw [List.length_append]
      omega
    rw [(reads _).value padded ends room]
    exact ⟨rfl, behind, padded.isWhole.skip⟩
  · rintro ⟨rfl, behind, flawless⟩
    obtain ⟨body, padded, found⟩ := (readsOnly _).value rfl flawless
    exact ⟨body, _, padded, behind, found⟩

end Quoteboard.Json
