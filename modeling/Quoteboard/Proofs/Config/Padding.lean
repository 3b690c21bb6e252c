import Quoteboard.Proofs.Config.Reading

/-!
# Blanks around the values of variables

Blanks around the value of a variable do not change the settings that are read, with one exception:
the path is taken as it stands, so that its blanks get into the address of the source.
-/

namespace Quoteboard.Config

open Quoteboard.Chart Quoteboard.Text

/-- Variables of which one is set to its value with other text around it. -/
def Lookup.pad (lookup : Lookup) (v : Variable) (front back : String) : Lookup := fun key ↦
  if key = v.key then (lookup key).map fun text ↦ front ++ text ++ back else lookup key

/-- The path is set, and not to blanks. -/
def HasOwnPath (lookup : Lookup) (text : String) : Prop :=
  lookup Variable.viewerSourcePath.key = some text ∧ isBlankText text.toList = false

/-- What text around the value of a variable does to the settings that are read. -/
structure Settings.Pads (lookup : Lookup) (v : Variable) (front back : String) : Prop where
  /-- Around the value of any variable but the path it does nothing. -/
  eq_of_ne : v ≠ .viewerSourcePath → ofLookup (lookup.pad v front back) = ofLookup lookup
  eq_of_no_path : (∀ text, ¬ HasOwnPath lookup text) →
    ofLookup (lookup.pad v front back) = ofLookup lookup
  /-- Around the path it gets into the settings, if these are accepted. -/
  of_path : ∀ text, v = .viewerSourcePath → HasOwnPath lookup text →
    ofLookup (lookup.pad v front back) = (ofLookup lookup).map fun s ↦
      { s with viewer := { s.viewer with sourcePath := front ++ text ++ back } }
  eq_iff : ofLookup (lookup.pad v front back) = ofLookup lookup ↔
    v ≠ .viewerSourcePath ∨ (∀ text, ¬ HasOwnPath lookup text) ∨ (front = "" ∧ back = "") ∨
      ∃ e, ofLookup lookup = .error e

variable {lookup : Lookup} {u v : Variable} {front back : String}

/-- Variables with one name are the same. -/
theorem Variable.key_injective : Function.Injective Variable.key := by
  intro u v same
  cases u <;> cases v <;> first | rfl | exact absurd same (by decide)

/-- Text around the value of one variable leaves the others. -/
theorem Lookup.pad_of_ne (differs : u ≠ v) :
    lookup.pad v front back u.key = lookup u.key := by
  rw [pad, if_neg (Variable.key_injective.ne differs)]

theorem Lookup.pad_self : lookup.pad v front back v.key =
    (lookup v.key).map fun text ↦ front ++ text ++ back := by
  rw [pad, if_pos rfl]

theorem Lookup.pad_empty : lookup.pad v "" "" = lookup := by
  funext key
  simp [pad]

/-- Blanks around the value of one variable leave all values without the blanks around them. -/
theorem Lookup.trimmed_pad (blank_front : isBlankText front.toList = true)
    (blank_back : isBlankText back.toList = true) (u : Variable) :
    (lookup.pad v front back).trimmed u = lookup.trimmed u := by
  by_cases same : u = v
  · subst same
    rw [trimmed, pad_self, trimmed]
    cases lookup u.key with
    | none => rfl
    | some text =>
      simp only [Option.map_some, trimString, String.toList_append,
        trim_append_append blank_front blank_back]
  · exact trimmed_congr (pad_of_ne same)

/-- A path that is set, and not to blanks, is taken as it stands. -/
theorem readPath_of_hasOwnPath {text : String} (h : HasOwnPath lookup text) :
    ViewerSettings.readPath lookup = text := by
  obtain ⟨set, filled⟩ := h
  simp [ViewerSettings.readPath, set, Option.filter, filled]

/-- Without such a path the default counts. -/
theorem readPath_of_forall_not (h : ∀ text, ¬ HasOwnPath lookup text) :
    ViewerSettings.readPath lookup = ViewerSettings.default.sourcePath := by
  rcases hasPath_readPath lookup with own | ⟨-, default⟩
  · exact absurd own (h _)
  · exact default

/-- With blanks around it, a path that is set and not to blanks stays so. -/
theorem hasOwnPath_pad_iff (blank_front : isBlankText front.toList = true)
    (blank_back : isBlankText back.toList = true) {text : String} :
    HasOwnPath (lookup.pad .viewerSourcePath front back) text ↔
      ∃ inner, HasOwnPath lookup inner ∧ front ++ inner ++ back = text := by
  simp only [HasOwnPath, Lookup.pad_self, Option.map_eq_some_iff]
  constructor
  · rintro ⟨⟨inner, set, rfl⟩, filled⟩
    refine ⟨inner, ⟨set, ?_⟩, rfl⟩
    simpa [isBlankText_append, blank_front, blank_back] using filled
  · rintro ⟨inner, ⟨set, filled⟩, rfl⟩
    exact ⟨⟨inner, set, rfl⟩, by simp [isBlankText_append, filled]⟩

namespace Settings

/-- Blanks around a value change nothing but the path. -/
theorem ofLookup_pad (blank_front : isBlankText front.toList = true)
    (blank_back : isBlankText back.toList = true) :
    ofLookup (lookup.pad v front back) = (ofLookup lookup).map fun s ↦
      { s with viewer := { s.viewer with
          sourcePath := ViewerSettings.readPath (lookup.pad v front back) } } := by
  have trimmed (u : Variable) : (lookup.pad v front back).trimmed u = lookup.trimmed u :=
    Lookup.trimmed_pad blank_front blank_back u
  have refusals : refusal? (lookup.pad v front back) = refusal? lookup :=
    funext fun u ↦ refusal?_congr (trimmed u)
  rw [ofLookup_eq, ofLookup_eq, refusals, eq_withField_path trimmed]
  generalize checkedVariables.findSome? (refusal? lookup) = refusal
  cases refusal <;> rfl

/-- If the path stays, nothing changes. -/
theorem ofLookup_pad_of_readPath (blank_front : isBlankText front.toList = true)
    (blank_back : isBlankText back.toList = true)
    (same : ViewerSettings.readPath (lookup.pad v front back) = ViewerSettings.readPath lookup) :
    ofLookup (lookup.pad v front back) = ofLookup lookup := by
  rw [ofLookup_pad blank_front blank_back, same, ofLookup_eq]
  generalize checkedVariables.findSome? (refusal? lookup) = refusal
  cases refusal <;> rfl

/-- Text around a path that stays the same path is empty. -/
theorem eq_empty_of_append_eq {text : String} (h : front ++ text ++ back = text) :
    front = "" ∧ back = "" := by
  have lengths := congrArg String.length h
  rw [String.length_append, String.length_append] at lengths
  constructor <;> apply String.length_eq_zero_iff.mp <;> omega

/-- Blanks around the value of a variable leave the settings that are read, unless settings are
accepted that have a path of their own and the blanks stand around that path. -/
theorem pads_ofLookup (lookup : Lookup) (v : Variable) (front back : String)
    (blank_front : isBlankText front.toList = true) (blank_back : isBlankText back.toList = true) :
    Pads lookup v front back := by
  have of_ne (differs : v ≠ .viewerSourcePath) :
      ofLookup (lookup.pad v front back) = ofLookup lookup := by
    apply ofLookup_pad_of_readPath blank_front blank_back
    rw [ViewerSettings.readPath, Lookup.pad_of_ne (Ne.symm differs), ← ViewerSettings.readPath]
  have of_no_path (absent : ∀ text, ¬ HasOwnPath lookup text) :
      ofLookup (lookup.pad v front back) = ofLookup lookup := by
    by_cases path : v = .viewerSourcePath
    · subst path
      apply ofLookup_pad_of_readPath blank_front blank_back
      rw [readPath_of_forall_not absent, readPath_of_forall_not]
      intro text own
      obtain ⟨inner, inner_own, -⟩ := (hasOwnPath_pad_iff blank_front blank_back).mp own
      exact absent inner inner_own
    · exact of_ne path
  have of_path (text : String) (path : v = .viewerSourcePath) (own : HasOwnPath lookup text) :
      ofLookup (lookup.pad v front back) = (ofLookup lookup).map fun s ↦
        { s with viewer := { s.viewer with sourcePath := front ++ text ++ back } } := by
    subst path
    have padded := (hasOwnPath_pad_iff blank_front blank_back).mpr ⟨text, own, rfl⟩
    rw [ofLookup_pad blank_front blank_back, readPath_of_hasOwnPath padded]
  refine ⟨of_ne, of_no_path, of_path, ?_, ?_⟩
  · intro same
    by_contra! h
    obtain ⟨path, ⟨text, own⟩, around, accepted⟩ := h
    cases read : ofLookup lookup with
    | error e => exact accepted e read
    | ok s =>
      rw [of_path text path own, read] at same
      have path_eq := congrArg (·.viewer.sourcePath) (Except.ok.inj same)
      obtain ⟨-, rfl⟩ := ofLookup_eq_ok_iff.mp read
      have unchanged : front ++ text ++ back = text :=
        path_eq.trans (readPath_of_hasOwnPath own)
      obtain ⟨empty_front, empty_back⟩ := eq_empty_of_append_eq unchanged
      exact around empty_front empty_back
  · rintro (differs | absent | ⟨rfl, rfl⟩ | ⟨e, refused⟩)
    · exact of_ne differs
    · exact of_no_path absent
    · rw [Lookup.pad_empty]
    · rw [ofLookup_pad blank_front blank_back, refused]
      rfl

end Settings

/-- Variables of which only one is set. -/
def onlySet (v : Variable) (text : String) : Lookup :=
  fun key ↦ if key = v.key then some text else none

/-- Blanks of several kinds around a list of labels. -/
theorem pads_labels :
    isBlankText "\u3000\t".toList = true ∧ isBlankText "\u2028 ".toList = true ∧
      Settings.Pads (onlySet .labels " 7 = CU") .labels "\u3000\t" "\u2028 " :=
  ⟨by decide, by decide, Settings.pads_ofLookup _ _ _ _ (by decide) (by decide)⟩

/-- A blank in front of a path gets into the address of the source. -/
theorem not_pads_of_path :
    isBlankText " ".toList = true ∧
      Settings.ofLookup ((onlySet .viewerSourcePath "/feed").pad .viewerSourcePath " " "") ≠
        Settings.ofLookup (onlySet .viewerSourcePath "/feed") ∧
      (Settings.ofLookup (onlySet .viewerSourcePath "/feed")).map (·.viewer.sourceUrl) =
        .ok "ws://localhost:3000/feed" ∧
      (Settings.ofLookup ((onlySet .viewerSourcePath "/feed").pad .viewerSourcePath " " "")).map
        (·.viewer.sourceUrl) = .ok "ws://localhost:3000/ /feed" := by
  have address : (Settings.ofLookup (onlySet .viewerSourcePath "/feed")).map (·.viewer.sourceUrl) =
      .ok "ws://localhost:3000/feed" := by rfl
  have padded : (Settings.ofLookup ((onlySet .viewerSourcePath "/feed").pad .viewerSourcePath " "
      "")).map (·.viewer.sourceUrl) = .ok "ws://localhost:3000/ /feed" := by rfl
  refine ⟨rfl, ?_, address, padded⟩
  intro same
  rw [same, address] at padded
  exact absurd (Except.ok.inj padded) (by decide)

end Quoteboard.Config
