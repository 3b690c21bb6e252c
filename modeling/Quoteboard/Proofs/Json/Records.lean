import Mathlib.Data.List.Nodup
import Quoteboard.Proofs.Json.Reading

/-!
# What a record is

A record is an object or an array. The reader of a schema takes an object member by member and an
array item by item; here both are told by one relation, which goes through the fields in the order
of their declaration and takes for each the one value that the record gives it, wherever that value
stands. That the order of the members does not show rests on the fields of the schema being
independent of one another.
-/

namespace Quoteboard.Json

/-! ### The fields of a record -/

/-- The string that is written, if it denotes one. -/
def RawText.name? (t : RawText) : Option String := t.decode.toOption

/-- A key has the name that it denotes. -/
theorem RawText.name?_eq_some_iff {t : RawText} {s : String} : t.name? = some s ↔ t.Denotes s := by
  rw [← RawText.decode_eq_ok_iff, RawText.name?]
  cases t.decode <;> simp [Except.toOption]

/-- The values of the members with this name, in order. -/
def Members.named (name : String) : Members → List Node
  | .stop _ => []
  | .more key value rest =>
    if key.name? = some name then value :: rest.named name else rest.named name

/-- The item in the place that a name has among the names of the fields, if there is one. -/
def Items.inPlace (names : List String) (items : Items) (name : String) : List Node :=
  items.toList[names.idxOf name]?.toList

/-- The values that a record with these fields gives to one of them: those of the members with its
name, or the item in its place. -/
def Node.valuesOf (names : List String) (node : Node) (name : String) : List Node :=
  match node with
  | .object members => members.named name
  | .array items => items.inPlace names name
  | _ => []

/-- There is one value, and it is such. -/
def Only (values : List Node) (such : Node → Prop) : Prop := ∃ value, values = [value] ∧ such value

/-- The only value is such if it is. -/
theorem only_singleton_iff {value : Node} {such : Node → Prop} :
    Only [value] such ↔ such value := by
  constructor
  · rintro ⟨_, ⟨⟩, h⟩
    exact h
  · intro h
    exact ⟨value, rfl, h⟩

/-- What the only value is, is one thing at most. -/
theorem Only.unique {α : Type} {values : List Node} {p : Node → α → Prop} {a b : α}
    (h : Only values (p · a)) (h' : Only values (p · b))
    (one : ∀ value, p value a → p value b → b = a) : b = a := by
  obtain ⟨value, rfl, here⟩ := h
  exact one value here (only_singleton_iff.mp h')

/-- The values with a name in a whole object are whole. -/
theorem Members.IsWhole.of_mem_named {members : Members} (whole : members.IsWhole) {name : String}
    {value : Node} (h : value ∈ members.named name) : value.IsWhole := by
  fun_induction Members.toList members with
  | case1 => cases h
  | case2 key node rest ih =>
    rw [Members.named] at h
    split at h
    · rcases List.mem_cons.mp h with rfl | h
      · exact whole.2.1
      · exact ih whole.2.2 h
    · exact ih whole.2.2 h

/-- The values of the fields of a whole record are whole. -/
theorem Node.IsWhole.of_mem_valuesOf {node : Node} (whole : node.IsWhole) {names : List String}
    {name : String} {value : Node} (h : value ∈ node.valuesOf names name) : value.IsWhole := by
  cases node with
  | object members => exact Members.IsWhole.of_mem_named whole h
  | array items => exact Items.IsWhole.of_mem whole (List.mem_of_getElem? (Option.mem_toList.mp h))
  | _ => cases h

/-- Whether a value can stand for a record with these fields: an object, or an array that is not
longer than the fields. -/
def Node.IsRecord (names : List String) : Node → Prop
  | .object _ => True
  | .array items => items.toList.length ≤ names.length
  | _ => False

/-- Whether every name in a record denotes a string, those of members that are passed over
included. -/
def Node.HasNames : Node → Prop
  | .object members => ∀ member ∈ members.toList, ∃ name, member.1.Denotes name
  | _ => True

/-! ### Drafts -/

section

variable {δ α : Type} {room : Nat} {values values' : String → List Node} {s : Schema δ α}
  {f : Field δ} {fs : List (Field δ)} {d d' : δ}

/-- A draft is filled by taking, field by field, the one value that there is for it, if there is
one. -/
inductive Fills (room : Nat) (values : String → List Node) : List (Field δ) → δ → δ → Prop
  | nil {d : δ} : Fills room values [] d d
  | absent {f : Field δ} {fs : List (Field δ)} {d d' : δ} (none_left : values f.name = [])
      (others : Fills room values fs d d') : Fills room values (f :: fs) d d'
  | present {f : Field δ} {fs : List (Field δ)} {d d' : δ} {value : Node} {set : δ → δ}
      (one : values f.name = [value]) (read : f.read room value = .ok set)
      (others : Fills room values fs (set d) d') : Fills room values (f :: fs) d d'

/-- The names of the fields in the order of their declaration. -/
def Schema.names (s : Schema δ α) : List String := s.fields.map (·.name)

/-- The fields of a schema do not interfere with one another. -/
structure Schema.IsLawful (s : Schema δ α) : Prop where
  nodup : s.names.Nodup
  thorough : ∀ f ∈ s.fields, Thorough f.read
  /-- The blank draft holds no field. -/
  isSet_blank : ∀ f ∈ s.fields, f.isSet s.blank = false
  /-- Reading a field sets that field and no other. -/
  isSet_read : ∀ f ∈ s.fields, ∀ g ∈ s.fields, ∀ {room : Nat} {node : Node} {set : δ → δ} (d : δ),
    f.read room node = .ok set → g.isSet (set d) = (g.isSet d || decide (g.name = f.name))
  /-- Two fields may be read in either order. -/
  comm : ∀ f ∈ s.fields, ∀ g ∈ s.fields, f.name ≠ g.name →
    ∀ {room : Nat} {node node' : Node} {set set' : δ → δ} (d : δ), f.read room node = .ok set →
    g.read room node' = .ok set' → set (set' d) = set' (set d)

/-- Only the values of the fields matter. -/
theorem Fills.congr (same : ∀ f ∈ fs, values f.name = values' f.name)
    (fills : Fills room values fs d d') : Fills room values' fs d d' := by
  induction fills with
  | nil => exact .nil
  | absent none_left _ ih =>
    exact .absent ((same _ List.mem_cons_self).symm.trans none_left)
      (ih fun f hf ↦ same f (List.mem_cons_of_mem _ hf))
  | present one read _ ih =>
    exact .present ((same _ List.mem_cons_self).symm.trans one) read
      (ih fun f hf ↦ same f (List.mem_cons_of_mem _ hf))

/-- A field that has a value has just one, and it is read. -/
theorem Fills.of_mem (fills : Fills room values fs d d') (hf : f ∈ fs)
    (some_value : values f.name ≠ []) :
    ∃ value set, values f.name = [value] ∧ f.read room value = .ok set := by
  induction fills with
  | nil => cases hf
  | absent none_left _ ih =>
    rcases List.mem_cons.mp hf with rfl | hf
    · exact absurd none_left some_value
    · exact ih hf
  | present one read _ ih =>
    rcases List.mem_cons.mp hf with rfl | hf
    · exact ⟨_, _, one, read⟩
    · exact ih hf

/-- Nothing is filled in where there are no values. -/
theorem fills_nothing_iff (nothing : ∀ f ∈ fs, values f.name = []) :
    Fills room values fs d d' ↔ d' = d := by
  constructor
  · intro fills
    induction fills with
    | nil => rfl
    | absent _ _ ih => exact ih fun f hf ↦ nothing f (List.mem_cons_of_mem _ hf)
    | present one => rw [nothing _ List.mem_cons_self] at one; cases one
  · rintro rfl
    induction fs with
    | nil => exact .nil
    | cons f fs ih =>
      exact .absent (nothing f List.mem_cons_self)
        (ih fun f hf ↦ nothing f (List.mem_cons_of_mem _ hf))

/-- A field may be read first that is otherwise read in its turn. -/
theorem fills_first_iff (lawful : s.IsLawful) (within : ∀ g ∈ fs, g ∈ s.fields)
    (nodup : (fs.map (·.name)).Nodup) (hf : f ∈ fs) {value : Node} {set : δ → δ}
    (read : f.read room value = .ok set) (none_left : values f.name = [])
    (one : values' f.name = [value]) (same : ∀ name ≠ f.name, values' name = values name) :
    Fills room values fs (set d) d' ↔ Fills room values' fs d d' := by
  -- The fields in front of the one that is read first change places with it, one after another.
  induction fs generalizing d with
  | nil => cases hf
  | cons g fs ih =>
    obtain ⟨fresh, nodup⟩ := List.nodup_cons.mp nodup
    rcases List.mem_cons.mp hf with rfl | hf
    · have others : ∀ g ∈ fs, values' g.name = values g.name := by
        intro g hg
        exact same g.name fun e ↦ fresh (List.mem_map.mpr ⟨g, hg, e⟩)
      constructor
      · intro fills
        cases fills with
        | absent _ rest => exact .present one read (rest.congr fun g hg ↦ (others g hg).symm)
        | present found => rw [none_left] at found; cases found
      · intro fills
        cases fills with
        | absent found => rw [one] at found; cases found
        | present found read' rest =>
          cases one.symm.trans found
          cases read.symm.trans read'
          exact .absent none_left (rest.congr others)
    · have differ : g.name ≠ f.name := fun e ↦ fresh (List.mem_map.mpr ⟨f, hf, e.symm⟩)
      have tail {d : δ} : Fills room values fs (set d) d' ↔ Fills room values' fs d d' :=
        ih (fun g hg ↦ within g (List.mem_cons_of_mem _ hg)) nodup hf
      have swap {value' : Node} {set' : δ → δ} (read' : g.read room value' = .ok set') :
          set' (set d) = set (set' d) :=
        lawful.comm g (within g List.mem_cons_self) f (within f (List.mem_cons_of_mem _ hf)) differ
          d read' read
      constructor
      · intro fills
        cases fills with
        | absent found rest => exact .absent ((same _ differ).trans found) (tail.mp rest)
        | present found read' rest =>
          rw [swap read'] at rest
          exact .present ((same _ differ).trans found) read' (tail.mp rest)
      · intro fills
        cases fills with
        | absent found rest => exact .absent ((same _ differ).symm.trans found) (tail.mpr rest)
        | present found read' rest =>
          refine .present ((same _ differ).symm.trans found) read' ?_
          rw [swap read']
          exact tail.mpr rest

/-! ### Objects -/

/-- The field with a name is refused if it is set already. -/
theorem Schema.field?_eq_ok_iff {name : String} {found : Option (Field δ)} :
    s.field? d name = .ok found ↔ s.fields.find? (·.name = name) = found ∧
      ∀ f, found = some f → f.isSet d = false := by
  rw [Schema.field?]
  cases s.fields.find? (·.name = name) with
  | none =>
    constructor
    · rintro ⟨⟩
      exact ⟨rfl, fun _ e ↦ nomatch e⟩
    · rintro ⟨rfl, -⟩
      rfl
  | some f =>
    dsimp only
    constructor
    · intro h
      split at h
      · cases h
      · next unset =>
        cases h
        refine ⟨rfl, ?_⟩
        rintro _ ⟨⟩
        exact Bool.eq_false_iff.mpr unset
    · rintro ⟨rfl, unset⟩
      rw [unset f rfl]
      rfl

/-- A member that is in front counts under the name of its key. -/
theorem Members.named_more {key : RawText} {value : Node} {rest : Members} {name : String}
    (denotes : key.Denotes name) (other : String) : (Members.more key value rest).named other
      = if other = name then value :: rest.named other else rest.named other := by
  rw [Members.named, RawText.name?_eq_some_iff.mpr denotes]
  simp [eq_comm]

/-- What members make of a draft: they name no field that the draft holds already, and fill in the
others. -/
def Schema.Takes (s : Schema δ α) (room : Nat) (members : Members) (d d' : δ) : Prop :=
  (∀ f ∈ s.fields, f.isSet d = true → members.named f.name = []) ∧
    Fills room (members.named ·) s.fields d d'

/-- A member that is passed over changes nothing. -/
theorem Schema.takes_more_of_unknown {key : RawText} {value : Node} {rest : Members} {name : String}
    (denotes : key.Denotes name) (unknown : s.fields.find? (·.name = name) = none) :
    s.Takes room (.more key value rest) d d' ↔ s.Takes room rest d d' := by
  have same : ∀ f ∈ s.fields, (Members.more key value rest).named f.name = rest.named f.name := by
    intro f hf
    have differ : f.name ≠ name := by simpa using List.find?_eq_none.mp unknown f hf
    rw [Members.named_more denotes, if_neg differ]
  constructor
  · rintro ⟨unset, fills⟩
    exact ⟨fun f hf set ↦ (same f hf).symm.trans (unset f hf set), fills.congr same⟩
  · rintro ⟨unset, fills⟩
    exact ⟨fun f hf set ↦ (same f hf).trans (unset f hf set),
      fills.congr fun f hf ↦ (same f hf).symm⟩

/-- A member that is read sets its field, which must not have been set before or after. -/
theorem Schema.takes_more_of_known (lawful : s.IsLawful) {key : RawText} {value : Node}
    {rest : Members} (denotes : key.Denotes f.name) (hf : f ∈ s.fields)
    (unset : f.isSet d = false) :
    s.Takes room (.more key value rest) d d' ↔
      ∃ set, f.read room value = .ok set ∧ s.Takes room rest (set d) d' := by
  have here : (Members.more key value rest).named f.name = value :: rest.named f.name := by
    rw [Members.named_more denotes, if_pos rfl]
  have elsewhere : ∀ other ≠ f.name, (Members.more key value rest).named other = rest.named other :=
    fun other differ ↦ by rw [Members.named_more denotes, if_neg differ]
  constructor
  · rintro ⟨unset_all, fills⟩
    obtain ⟨v, set, one, read⟩ := fills.of_mem hf (by simp [here])
    rw [here] at one
    obtain ⟨rfl, none_left⟩ := List.cons.inj one
    refine ⟨set, read, fun g hg was_set ↦ ?_, ?_⟩
    · by_cases same : g.name = f.name
      · rw [same, none_left]
      · rw [lawful.isSet_read f hf g hg d read, decide_eq_false same, Bool.or_false] at was_set
        rw [← elsewhere _ same]
        exact unset_all g hg was_set
    · exact (fills_first_iff lawful (fun _ hg ↦ hg) lawful.nodup hf read none_left
        (here.trans (by rw [none_left])) elsewhere).mpr fills
  · rintro ⟨set, read, unset_rest, fills⟩
    have none_left : rest.named f.name = [] := by
      apply unset_rest f hf
      rw [lawful.isSet_read f hf f hf d read, decide_eq_true rfl, Bool.or_true]
    refine ⟨fun g hg was_set ↦ ?_, ?_⟩
    · have differ : g.name ≠ f.name := by
        intro same
        obtain rfl : g = f := List.inj_on_of_nodup_map lawful.nodup hg hf same
        rw [unset] at was_set
        cases was_set
      rw [elsewhere _ differ]
      apply unset_rest g hg
      rw [lawful.isSet_read f hf g hg d read, was_set, Bool.true_or]
    · exact (fills_first_iff lawful (fun _ hg ↦ hg) lawful.nodup hf read none_left
        (here.trans (by rw [none_left])) elsewhere).mp fills

/-- What the members of an object make of a draft. -/
theorem Schema.readMembers_eq_ok_iff (lawful : s.IsLawful) {members : Members}
    (whole : members.IsWhole) : s.readMembers room d members = .ok d' ↔
      (∀ member ∈ members.toList, ∃ name, member.1.Denotes name) ∧ s.Takes room members d d' := by
  fun_induction Members.toList members generalizing d with
  | case1 ending =>
    obtain rfl : ending = .closed := whole
    rw [Schema.Takes, fills_nothing_iff fun _ _ ↦ rfl]
    constructor
    · rintro ⟨⟩
      exact ⟨fun _ hm ↦ absurd hm List.not_mem_nil, fun _ _ _ ↦ rfl, rfl⟩
    · rintro ⟨-, -, rfl⟩
      rfl
  | case2 key value rest ih =>
    obtain ⟨closed, whole, others⟩ := whole
    have go_on {d : δ} := ih (d := d) others
    rw [List.forall_mem_cons, Schema.readMembers, bind_eq_ok_iff]
    simp only [RawText.decode_eq_ok_iff, bind_eq_ok_iff, Schema.field?_eq_ok_iff]
    constructor
    · rintro ⟨name, denotes, found, ⟨found_eq, unset⟩, read⟩
      cases found with
      | none =>
        obtain ⟨_, -, read⟩ := bind_eq_ok_iff.mp read
        obtain ⟨names, takes⟩ := go_on.mp read
        exact ⟨⟨⟨name, denotes⟩, names⟩, (Schema.takes_more_of_unknown denotes found_eq).mpr takes⟩
      | some f =>
        obtain ⟨set, read_value, read⟩ := bind_eq_ok_iff.mp read
        obtain ⟨names, takes⟩ := go_on.mp read
        have hf := List.mem_of_find?_eq_some found_eq
        obtain rfl : f.name = name := by simpa using List.find?_some found_eq
        exact ⟨⟨⟨_, denotes⟩, names⟩, (Schema.takes_more_of_known lawful denotes hf
          (unset f rfl)).mpr ⟨set, read_value, takes⟩⟩
    · rintro ⟨⟨⟨name, denotes⟩, names⟩, takes⟩
      cases found : s.fields.find? (·.name = name) with
      | none =>
        have rest_takes := (Schema.takes_more_of_unknown denotes found).mp takes
        refine ⟨name, denotes, none, ⟨found, ?_⟩, bind_eq_ok_iff.mpr ?_⟩
        · rintro _ ⟨⟩
        · exact ⟨(), whole.skip, go_on.mpr ⟨names, rest_takes⟩⟩
      | some f =>
        have hf := List.mem_of_find?_eq_some found
        obtain rfl : f.name = name := by simpa using List.find?_some found
        have unset : f.isSet d = false := by
          apply Bool.eq_false_iff.mpr
          intro was_set
          have nothing := takes.1 f hf was_set
          rw [Members.named_more denotes, if_pos rfl] at nothing
          cases nothing
        obtain ⟨set, read_value, rest_takes⟩ :=
          (Schema.takes_more_of_known lawful denotes hf unset).mp takes
        refine ⟨_, denotes, some f, ⟨found, ?_⟩, bind_eq_ok_iff.mpr ?_⟩
        · rintro _ ⟨⟩
          exact unset
        · exact ⟨set, read_value, go_on.mpr ⟨names, rest_takes⟩⟩

/-! ### Arrays -/

/-- What the items of an array make of a draft. -/
theorem Schema.readFields_eq_ok_iff {items : Items} (whole : items.IsWhole)
    (nodup : (fs.map (·.name)).Nodup) : s.readFields room d fs items = .ok d' ↔
      items.toList.length ≤ fs.length ∧
      (∀ f, fs[items.toList.length]? = some f → f.mayEndBefore = true) ∧
      Fills room (items.inPlace (fs.map (·.name))) fs d d' := by
  induction fs generalizing items d with
  | nil =>
    cases items with
    | stop ending =>
      obtain rfl : ending = .closed := whole
      rw [fills_nothing_iff fun _ _ ↦ rfl]
      constructor
      · rintro ⟨⟩
        exact ⟨Nat.le_refl _, by simp, rfl⟩
      · rintro ⟨-, -, rfl⟩
        rfl
    | more value rest =>
      refine ⟨fun read ↦ ?_, fun ⟨bound, _⟩ ↦ absurd bound (Nat.not_succ_le_zero _)⟩
      obtain ⟨_, read, -⟩ := map_eq_ok_iff.mp read
      cases read
  | cons f fs ih =>
    obtain ⟨fresh, nodup⟩ := List.nodup_cons.mp nodup
    cases items with
    | stop ending =>
      obtain rfl : ending = .closed := whole
      rw [fills_nothing_iff fun _ _ ↦ rfl]
      simp only [Schema.readFields, ItemsEnd.error?, demand, bind, Except.bind]
      constructor
      · intro read
        split at read
        · next may_end =>
          cases read
          exact ⟨Nat.zero_le _, by rintro _ ⟨⟩; exact may_end, rfl⟩
        · cases read
      · rintro ⟨-, may_end, rfl⟩
        rw [if_pos (may_end f rfl)]
        rfl
    | more value rest =>
      have here : (Items.more value rest).inPlace ((f :: fs).map (·.name)) f.name = [value] := by
        simp [Items.inPlace, Items.toList]
      have elsewhere : ∀ g ∈ fs, (Items.more value rest).inPlace ((f :: fs).map (·.name)) g.name
          = rest.inPlace (fs.map (·.name)) g.name := by
        intro g hg
        have differ : f.name ≠ g.name := fun e ↦ fresh (List.mem_map.mpr ⟨g, hg, e.symm⟩)
        simp [Items.inPlace, Items.toList, List.idxOf_cons_ne _ differ]
      have go_on {d : δ} := ih (d := d) whole.2 nodup
      rw [Schema.readFields, bind_eq_ok_iff]
      simp only [go_on, Items.toList, List.length_cons, Nat.add_le_add_iff_right,
        List.getElem?_cons_succ]
      constructor
      · rintro ⟨set, read, bound, may_end, fills⟩
        exact ⟨bound, may_end, .present here read (fills.congr fun g hg ↦ (elsewhere g hg).symm)⟩
      · rintro ⟨bound, may_end, fills⟩
        cases fills with
        | absent none_left => rw [here] at none_left; cases none_left
        | present one read others =>
          cases here.symm.trans one
          exact ⟨_, read, bound, may_end, others.congr elsewhere⟩

/-! ### Records -/

/-- Whether a record may end where it does: an object always, an array behind its last field or
before one that may be missing. -/
def Schema.MayEnd (s : Schema δ α) : Node → Prop
  | .array items => ∀ f, s.fields[items.toList.length]? = some f → f.mayEndBefore = true
  | _ => True

/-- What is read as a record: each field is filled in with the value that the record gives it. -/
theorem Schema.read_eq_ok_iff (lawful : s.IsLawful) {node : Node} (whole : node.IsWhole) {a : α} :
    s.read room node = .ok a ↔ node.IsRecord s.names ∧ node.HasNames ∧ s.MayEnd node ∧
      ∃ below d, room = below + 1 ∧ Fills below (node.valuesOf s.names) s.fields s.blank d ∧
        s.finish d = .ok a := by
  cases node with
  | object members =>
    cases room with
    | zero =>
      constructor
      · rintro ⟨⟩
      · rintro ⟨-, -, -, below, d, ⟨⟩, -⟩
    | succ below =>
      simp only [Schema.read, bind_eq_ok_iff, Schema.readMembers_eq_ok_iff lawful whole]
      constructor
      · rintro ⟨d, ⟨names, -, fills⟩, finish⟩
        exact ⟨trivial, names, trivial, below, d, rfl, fills, finish⟩
      · rintro ⟨-, names, -, below, d, ⟨⟩, fills, finish⟩
        refine ⟨d, ⟨names, fun f hf was_set ↦ ?_, fills⟩, finish⟩
        rw [lawful.isSet_blank f hf] at was_set
        cases was_set
  | array items =>
    have level : s.names.length = s.fields.length := List.length_map ..
    cases room with
    | zero =>
      constructor
      · rintro ⟨⟩
      · rintro ⟨-, -, -, below, d, ⟨⟩, -⟩
    | succ below =>
      simp only [Schema.read, bind_eq_ok_iff, Schema.readFields_eq_ok_iff whole lawful.nodup]
      constructor
      · rintro ⟨d, ⟨bound, may_end, fills⟩, finish⟩
        exact ⟨bound.trans_eq level.symm, trivial, may_end, below, d, rfl, fills, finish⟩
      · rintro ⟨bound, -, may_end, below, d, ⟨⟩, fills, finish⟩
        exact ⟨d, ⟨bound.trans_eq level, may_end, fills⟩, finish⟩
  | _ => simp [Schema.read, Node.mismatch_ne_ok, Node.IsRecord]

/-- Only the end of an array is read behind the last field. -/
theorem skip_of_readArrayEnd {items : Items} (read : Schema.readArrayEnd items = .ok ()) :
    items.skip = .ok () := by
  unfold Schema.readArrayEnd at read
  split at read
  · rfl
  all_goals cases read

theorem Schema.readFields_skip (thorough : ∀ f ∈ fs, Thorough f.read) {items : Items}
    (read : s.readFields room d fs items = .ok d') : items.skip = .ok () := by
  induction fs generalizing items d with
  | nil =>
    obtain ⟨_, ended, -⟩ := map_eq_ok_iff.mp read
    exact skip_of_readArrayEnd ended
  | cons f fs ih =>
    cases items with
    | stop ending =>
      cases ending with
      | closed => rfl
      | _ => cases read
    | more value rest =>
      obtain ⟨set, read_value, read⟩ := bind_eq_ok_iff.mp read
      exact Items.skip_more.mpr ⟨thorough f List.mem_cons_self read_value,
        ih (fun g hg ↦ thorough g (List.mem_cons_of_mem _ hg)) read⟩

theorem Schema.readMembers_skip (thorough : ∀ f ∈ s.fields, Thorough f.read) {members : Members}
    (read : s.readMembers room d members = .ok d') : members.skip = .ok () := by
  fun_induction Members.toList members generalizing d with
  | case1 ending =>
    apply MembersEnd.skip_of_demand
    unfold Schema.readMembers at read
    split at read
    · obtain ⟨_, -, read⟩ := bind_eq_ok_iff.mp read
      obtain ⟨_, -, read⟩ := bind_eq_ok_iff.mp read
      obtain ⟨_, demanded, -⟩ := bind_eq_ok_iff.mp read
      exact demanded
    · obtain ⟨_, demanded, -⟩ := bind_eq_ok_iff.mp read
      exact demanded
  | case2 key value rest ih =>
    obtain ⟨name, -, read⟩ := bind_eq_ok_iff.mp read
    obtain ⟨found, found_eq, read⟩ := bind_eq_ok_iff.mp read
    cases found with
    | none =>
      obtain ⟨_, passed, read⟩ := bind_eq_ok_iff.mp read
      exact Members.skip_more.mpr ⟨passed, ih read⟩
    | some f =>
      obtain ⟨set, read_value, read⟩ := bind_eq_ok_iff.mp read
      have hf := List.mem_of_find?_eq_some (Schema.field?_eq_ok_iff.mp found_eq).1
      exact Members.skip_more.mpr ⟨thorough f hf read_value, ih read⟩

/-- A record is read thoroughly if its fields are. -/
theorem Schema.read_thorough (thorough : ∀ f ∈ s.fields, Thorough f.read) : Thorough s.read := by
  intro room node a read
  cases node with
  | object members =>
    cases room with
    | zero => cases read
    | succ room =>
      obtain ⟨d, read_members, -⟩ := bind_eq_ok_iff.mp read
      exact Schema.readMembers_skip thorough read_members
  | array items =>
    cases room with
    | zero => cases read
    | succ room =>
      obtain ⟨d, read_fields, -⟩ := bind_eq_ok_iff.mp read
      exact Schema.readFields_skip thorough read_fields
  | _ => exact absurd read Node.mismatch_ne_ok

/-- A field that is set in the end was set at first or has a value. -/
theorem Fills.values_ne_nil (lawful : s.IsLawful) (within : ∀ g ∈ fs, g ∈ s.fields)
    (fills : Fills room values fs d d') (hf : f ∈ s.fields) (unset : f.isSet d = false)
    (set_in_the_end : f.isSet d' = true) : values f.name ≠ [] := by
  intro nothing
  induction fills with
  | nil =>
    rw [unset] at set_in_the_end
    cases set_in_the_end
  | absent _ _ ih =>
    exact ih (fun g hg ↦ within g (List.mem_cons_of_mem _ hg)) unset set_in_the_end
  | @present g gs d d' value set one read _ ih =>
    refine ih (fun g hg ↦ within g (List.mem_cons_of_mem _ hg)) ?_ set_in_the_end
    have differ : f.name ≠ g.name := by
      intro same
      rw [← same, nothing] at one
      cases one
    rw [lawful.isSet_read g (within g List.mem_cons_self) f hf d read, unset, Bool.false_or]
    exact decide_eq_false differ

/-- A field that is set in the end has a value, as the draft was blank at first. -/
theorem Schema.IsLawful.values_ne_nil (lawful : s.IsLawful)
    (fills : Fills room values s.fields s.blank d) :
    ∀ f ∈ s.fields, f.isSet d = true → values f.name ≠ [] :=
  fun f hf ↦ fills.values_ne_nil lawful (fun _ hg ↦ hg) hf (lawful.isSet_blank f hf)

section

variable {β : Type} {reader : Reader β} {put : β → δ → δ}
  (reads : f.read = fun room node ↦ (reader room node).map put)

include reads

/-- A field that has a value is filled in with what is read of it. -/
theorem Fills.first (fills : Fills room values (f :: fs) d d') (some_value : values f.name ≠ []) :
    ∃ b, Only (values f.name) (reader room · = .ok b) ∧ Fills room values fs (put b d) d' := by
  cases fills with
  | absent none_left => exact absurd none_left some_value
  | present one read others =>
    rw [reads] at read
    obtain ⟨b, read_value, rfl⟩ := map_eq_ok_iff.mp read
    exact ⟨b, ⟨_, one, read_value⟩, others⟩

/-- What is read of the only value of a field is filled in. -/
theorem Fills.only {b : β} (only : Only (values f.name) (reader room · = .ok b))
    (others : Fills room values fs (put b d) d') : Fills room values (f :: fs) d d' := by
  obtain ⟨value, one, read_value⟩ := only
  refine .present one ?_ others
  rw [reads]
  exact map_eq_ok_iff.mpr ⟨b, read_value, rfl⟩

end

end

/-- What is read as a document is one, and its value is read. -/
theorem readDocument_eq_ok_iff {α : Type} {value : Reader α} (thorough : Thorough value)
    {text : String} {a : α} : readDocument value text = .ok a ↔
      ∃ node, IsDocument node text.toList ∧ value maxNesting node = .ok a := by
  rw [readDocument, bind_eq_ok_iff]
  constructor
  · rintro ⟨b, read, ended⟩
    split at ended
    · cases ended
    · next nothing_behind =>
      cases ended
      have flawless := thorough read
      exact ⟨_, isDocument_iff.mpr ⟨rfl, Bool.eq_false_iff.mpr nothing_behind, flawless⟩, read⟩
  · rintro ⟨node, is_document, read⟩
    obtain ⟨rfl, nothing_behind, -⟩ := isDocument_iff.mp is_document
    refine ⟨a, read, ?_⟩
    rw [nothing_behind]
    rfl

end Quoteboard.Json
