import Quoteboard.Proofs.Chart.LabelLists
import Quoteboard.Proofs.Config.Windows

/-!
# What settings are read from variables

Each of the twelve variables is told here, without the reader, when its value makes no sense and
which setting it gives otherwise. Settings are refused for the first variable, in a fixed order,
whose value makes no sense, and are else what the variables give one by one. So no other variable
matters, and each matters for its own setting only.
-/

namespace Quoteboard.Config

open Quoteboard.Chart Quoteboard.Connection Quoteboard.Text Quoteboard.Transport

/-- A variable is set to a number of at most `bound`: but for the blanks around it, its value is a
numeral of the number, without a minus sign. -/
def IsSetTo (lookup : Lookup) (v : Variable) (bound n : Nat) : Prop :=
  ∃ text numeral, lookup v.key = some text ∧ TrimsTo text.toList numeral ∧ IsNumeral numeral n ∧
    numeral.head? ≠ some '-' ∧ n ≤ bound

/-- The number of a variable is the one that it is set to or, where it is set to none, the
default. -/
def HasNumber (lookup : Lookup) (v : Variable) (bound fallback n : Nat) : Prop :=
  IsSetTo lookup v bound n ∨ (∀ m, ¬ IsSetTo lookup v bound m) ∧ n = fallback

/-- The host of a variable is its value without the blanks around it or, where it has none, the
default. -/
def HasHost (lookup : Lookup) (v : Variable) (fallback host : String) : Prop :=
  (∃ text, lookup v.key = some text ∧ TrimsTo text.toList host.toList) ∨
    lookup v.key = none ∧ host = fallback

/-- The path is the value of its variable or, where that is blank or absent, the default. -/
def HasPath (lookup : Lookup) (path : String) : Prop :=
  (lookup Variable.viewerSourcePath.key = some path ∧ isBlankText path.toList = false) ∨
    (∀ text, lookup Variable.viewerSourcePath.key = some text → isBlankText text.toList = true) ∧
      path = ViewerSettings.default.sourcePath

/-- The labels are those that the list in their variable gives or, where there is none, the default
ones. -/
def HasLabels (lookup : Lookup) (labels : Labels) : Prop :=
  (∃ text, lookup Variable.labels.key = some text ∧
    Labels.AreGiven labels (text.toList.splitOn ',')) ∨
    lookup Variable.labels.key = none ∧ labels = ViewerSettings.default.labels

/-- The variables that hold the number of an endpoint. -/
def portVariables : List Variable := [.relayPort, .healthPort, .relaySourcePort, .viewerSourcePort]

/-- The variables that hold a host. -/
def hostVariables : List Variable := [.relaySourceHost, .viewerSourceHost]

/-- A variable has a value that makes no sense. -/
inductive Offends (lookup : Lookup) : Variable → ConfigError → Prop
  | zeroPort {v : Variable} (port : v ∈ portVariables) (zero : IsSetTo lookup v maxUInt16 0) :
      Offends lookup v (.zeroPort v)
  | blankHost {v : Variable} {text : String} (host : v ∈ hostVariables)
      (set : lookup v.key = some text) (blank : isBlankText text.toList = true) :
      Offends lookup v (.blankHost v)
  | zeroWindow (zero : IsSetTo lookup .window maxUInt64 0) : Offends lookup .window .zeroWindow
  /-- A list of labels makes no sense if a piece is at fault; the first such piece counts. -/
  | badLabels {text : String} {front back : List (List Char)} {piece : List Char}
      {cause : LabelError} (set : lookup Variable.labels.key = some text)
      (split : text.toList.splitOn ',' = front ++ piece :: back)
      (proper : ∀ p ∈ front, Labels.IsProper p) (offends : Labels.Offends piece cause) :
      Offends lookup .labels (.badLabels cause)

/-- The variables whose values can be refused, in the order in which they are looked at. -/
def checkedVariables : List Variable :=
  [.relayPort, .healthPort, .relaySourceHost, .relaySourcePort, .window, .labels,
    .viewerSourceHost, .viewerSourcePort]

/-- The variable that a refusal is about. -/
def ConfigError.culprit : ConfigError → Variable
  | .blankHost v => v
  | .zeroPort v => v
  | .zeroWindow => .window
  | .badLabels _ => .labels

/-- A host is some text without blanks around it. -/
def IsHost (host : String) : Prop := host ≠ "" ∧ TrimsTo host.toList host.toList

namespace Settings

/-- Each setting is what its own variable gives. -/
structure AreRead (lookup : Lookup) (s : Settings) : Prop where
  relayPort : HasNumber lookup .relayPort maxUInt16 RelaySettings.default.relayPort.toNat
    s.relay.relayPort.toNat
  healthPort : HasNumber lookup .healthPort maxUInt16 RelaySettings.default.healthPort.toNat
    s.relay.healthPort.toNat
  relaySourceHost :
    HasHost lookup .relaySourceHost RelaySettings.default.sourceHost s.relay.sourceHost
  relaySourcePort : HasNumber lookup .relaySourcePort maxUInt16
    RelaySettings.default.sourcePort.toNat s.relay.sourcePort.toNat
  connectTimeout : ∃ millis, s.relay.connectTimeout = .ofMillis millis ∧
    HasNumber lookup .relayConnectTimeout maxUInt64 RelaySettings.default.connectTimeout.millis
      millis
  viewerSourceHost :
    HasHost lookup .viewerSourceHost ViewerSettings.default.sourceHost s.viewer.sourceHost
  viewerSourcePort : HasNumber lookup .viewerSourcePort maxUInt16
    ViewerSettings.default.sourcePort.toNat s.viewer.sourcePort.toNat
  path : HasPath lookup s.viewer.sourcePath
  maxAttempts : HasNumber lookup .maxAttempts maxUInt32 ViewerSettings.default.retry.maxAttempts
    s.viewer.retry.maxAttempts
  retryDelay : HasNumber lookup .retryDelay maxUInt64 ViewerSettings.default.retry.delayMillis
    s.viewer.retry.delayMillis
  window : HasNumber lookup .window maxUInt64 ViewerSettings.default.window s.viewer.window
  labels : HasLabels lookup s.viewer.labels

/-- What all settings that are accepted have in common. -/
structure AreSound (s : Settings) : Prop where
  relayPort : s.relay.relayPort ≠ 0
  healthPort : s.relay.healthPort ≠ 0
  relaySourceHost : IsHost s.relay.sourceHost
  relaySourcePort : s.relay.sourcePort ≠ 0
  viewerSourceHost : IsHost s.viewer.sourceHost
  viewerSourcePort : s.viewer.sourcePort ≠ 0
  window : 1 ≤ s.viewer.window
  path : isBlankText s.viewer.sourcePath.toList = false
  /-- The address of the source is its host and port, and the path with one slash in front. -/
  sourceUrl : ∃ rest, s.viewer.sourceUrl = "ws://" ++ s.viewer.sourceHost ++ ":" ++
      toString s.viewer.sourcePort.toNat ++ ("/" ++ rest) ∧
    (s.viewer.sourcePath = "/" ++ rest ∨
      s.viewer.sourcePath = rest ∧ rest.toList.head? ≠ some '/')

/-- Settings of which the one that a variable is for is taken from others. -/
def withField (s other : Settings) : Variable → Settings
  | .relayPort => { s with relay := { s.relay with relayPort := other.relay.relayPort } }
  | .healthPort => { s with relay := { s.relay with healthPort := other.relay.healthPort } }
  | .relaySourceHost => { s with relay := { s.relay with sourceHost := other.relay.sourceHost } }
  | .relaySourcePort => { s with relay := { s.relay with sourcePort := other.relay.sourcePort } }
  | .relayConnectTimeout =>
    { s with relay := { s.relay with connectTimeout := other.relay.connectTimeout } }
  | .viewerSourceHost =>
    { s with viewer := { s.viewer with sourceHost := other.viewer.sourceHost } }
  | .viewerSourcePort =>
    { s with viewer := { s.viewer with sourcePort := other.viewer.sourcePort } }
  | .viewerSourcePath =>
    { s with viewer := { s.viewer with sourcePath := other.viewer.sourcePath } }
  | .maxAttempts => { s with viewer := { s.viewer with
      retry := { s.viewer.retry with maxAttempts := other.viewer.retry.maxAttempts } } }
  | .retryDelay => { s with viewer := { s.viewer with
      retry := { s.viewer.retry with delayMillis := other.viewer.retry.delayMillis } } }
  | .window => { s with viewer := { s.viewer with window := other.viewer.window } }
  | .labels => { s with viewer := { s.viewer with labels := other.viewer.labels } }

/-- From one outcome to another, what a variable is for changes and nothing else. -/
structure DifferAt (v : Variable) (outcome outcome' : Except ConfigError Settings) : Prop where
  of_ok : ∀ s s', outcome = .ok s → outcome' = .ok s' → s' = s.withField s' v
  /-- A refusal stays unless it is for this variable, or one for this variable comes before it. -/
  of_error : ∀ e, outcome = .error e → e.culprit ≠ v →
    ∃ e', outcome' = .error e' ∧ (e' = e ∨ e'.culprit = v)

/-- How settings are read from variables. -/
structure Reads (lookup : Lookup) : Prop where
  exists_error_iff : (∃ e, ofLookup lookup = .error e) ↔ ∃ v e, Offends lookup v e
  /-- The first variable that offends is what is told of. -/
  error_iff : ∀ e, ofLookup lookup = .error e ↔
    ∃ front v back, checkedVariables = front ++ v :: back ∧
      (∀ u ∈ front, ∀ e', ¬ Offends lookup u e') ∧ Offends lookup v e
  areRead : ∀ s, ofLookup lookup = .ok s → AreRead lookup s
  areSound : ∀ s, ofLookup lookup = .ok s → AreSound s
  congr : ∀ lookup' : Lookup, (∀ v : Variable, lookup' v.key = lookup v.key) →
    ofLookup lookup' = ofLookup lookup
  differAt : ∀ (v : Variable) (lookup' : Lookup),
    (∀ u : Variable, u ≠ v → lookup' u.key = lookup u.key) →
      DifferAt v (ofLookup lookup) (ofLookup lookup')

end Settings

variable {lookup lookup' : Lookup} {v : Variable} {bound fallback n : Nat} {e : ConfigError}

/-! ### Numbers, hosts, path and labels -/

/-- A number is read if the variable is set to it. -/
theorem number?_eq_some_iff : number? lookup v bound = some n ↔ IsSetTo lookup v bound n := by
  rw [number?, Option.bind_eq_some_iff]
  simp only [unsigned?_eq_some_iff]
  constructor
  · rintro ⟨text, set, numeral⟩
    exact ⟨text, _, set, trimsTo_trim _, numeral⟩
  · rintro ⟨text, numeral, set, trims, is_numeral⟩
    rw [← trimsTo_iff.mp trims] at is_numeral
    exact ⟨text, set, is_numeral⟩

/-- What is read is the number of the variable. -/
theorem hasNumber_number (lookup : Lookup) (v : Variable) (bound fallback : Nat) :
    HasNumber lookup v bound fallback (number lookup v bound fallback) := by
  rw [number]
  cases found : number? lookup v bound with
  | some n => exact .inl (number?_eq_some_iff.mp found)
  | none =>
    refine .inr ⟨fun m set ↦ ?_, rfl⟩
    cases found.symm.trans (number?_eq_some_iff.mpr set)

/-- A number whose default is not zero is zero if the variable is set to zero. -/
theorem number_eq_zero_iff (some_default : fallback ≠ 0) :
    number lookup v bound fallback = 0 ↔ IsSetTo lookup v bound 0 := by
  rw [← number?_eq_some_iff, number]
  cases number? lookup v bound <;> simp [some_default]

/-- What is read as the number of an endpoint where it is not refused. -/
def portOr (lookup : Lookup) (v : Variable) (fallback : UInt16) : UInt16 :=
  UInt16.ofNat (number lookup v maxUInt16 fallback.toNat)

/-- It is the number of its variable. -/
theorem toNat_portOr (lookup : Lookup) (v : Variable) (fallback : UInt16) :
    (portOr lookup v fallback).toNat = number lookup v maxUInt16 fallback.toNat := by
  have small : number lookup v maxUInt16 fallback.toNat ≤ maxUInt16 :=
    number_le (Nat.le_of_lt_succ fallback.toNat_lt)
  exact UInt16.toNat_ofNat_of_lt' (Nat.lt_succ_of_le small)

/-- The value of a variable without the blanks around it. -/
def Lookup.trimmed (lookup : Lookup) (v : Variable) : Option String :=
  (lookup v.key).map trimString

/-- What is read as a host where it is not refused. -/
def hostOr (lookup : Lookup) (v : Variable) (fallback : String) : String :=
  (lookup.trimmed v).getD fallback

/-- It is the host of its variable. -/
theorem hasHost_hostOr (lookup : Lookup) (v : Variable) (fallback : String) :
    HasHost lookup v fallback (hostOr lookup v fallback) := by
  rw [hostOr, Lookup.trimmed]
  cases set : lookup v.key with
  | none => exact .inr ⟨set, rfl⟩
  | some text =>
    refine .inl ⟨text, set, ?_⟩
    simpa [trimString] using trimsTo_trim text.toList

/-- The path that is read is that of its variable. -/
theorem hasPath_readPath (lookup : Lookup) : HasPath lookup (ViewerSettings.readPath lookup) := by
  rw [ViewerSettings.readPath]
  cases set : lookup Variable.viewerSourcePath.key with
  | none => exact .inr ⟨by simp [set], rfl⟩
  | some text =>
    cases blank : isBlankText text.toList with
    | true => exact .inr ⟨by simp [set, blank], by simp [Option.filter, blank]⟩
    | false => exact .inl (by simp [set, Option.filter, blank])

/-- What is read as labels where they are not refused. -/
def labelsOr (lookup : Lookup) : Labels :=
  (ViewerSettings.readLabels lookup).toOption.getD ViewerSettings.default.labels

/-- Labels that are not refused are those of their variable. -/
theorem hasLabels_of_readLabels {labels : Labels}
    (read : ViewerSettings.readLabels lookup = .ok labels) : HasLabels lookup labels := by
  rw [ViewerSettings.readLabels] at read
  split at read
  · next absent =>
    cases read
    exact .inr ⟨absent, rfl⟩
  · next text set =>
    cases made : Labels.ofText text with
    | error cause =>
      rw [made] at read
      cases read
    | ok labels' =>
      rw [made] at read
      cases read
      obtain ⟨-, rfl⟩ := Labels.ofText_eq_ok_iff.mp made
      exact .inl ⟨text, set, Labels.areGiven_ofList _⟩

/-! ### Refusals -/

section

variable {α β : Type}

/-- The refusal that an outcome is, if it is one. -/
def refusalOf : Except ConfigError α → Option ConfigError
  | .error e => some e
  | .ok _ => none

/-- The outcome that is a refusal, if there is one, and else a value. -/
def refuseOr (refusal : Option ConfigError) (a : α) : Except ConfigError α :=
  match refusal with
  | some e => .error e
  | none => .ok a

/-- Of two outcomes one after the other the first refusal counts. -/
theorem bind_eq_refuseOr {x : Except ConfigError α} {f : α → Except ConfigError β}
    {refusal refusal' : Option ConfigError} {a : α} {b : β} (first : x = refuseOr refusal a)
    (second : f a = refuseOr refusal' b) : (x >>= f) = refuseOr (refusal.or refusal') b := by
  rw [first]
  cases refusal with
  | some e => rfl
  | none => exact second

end

/-- Why the value of a variable is refused, if it is. -/
def refusal? (lookup : Lookup) : Variable → Option ConfigError
  | .relayPort => refusalOf (portNumber lookup .relayPort RelaySettings.default.relayPort)
  | .healthPort => refusalOf (portNumber lookup .healthPort RelaySettings.default.healthPort)
  | .relaySourceHost => refusalOf (host lookup .relaySourceHost RelaySettings.default.sourceHost)
  | .relaySourcePort =>
    refusalOf (portNumber lookup .relaySourcePort RelaySettings.default.sourcePort)
  | .window =>
    refusalOf (nonzero lookup .window maxUInt64 ViewerSettings.default.window .zeroWindow)
  | .labels => refusalOf (ViewerSettings.readLabels lookup)
  | .viewerSourceHost => refusalOf (host lookup .viewerSourceHost ViewerSettings.default.sourceHost)
  | .viewerSourcePort =>
    refusalOf (portNumber lookup .viewerSourcePort ViewerSettings.default.sourcePort)
  | .relayConnectTimeout | .viewerSourcePath | .maxAttempts | .retryDelay => none

theorem nonzero_eq_refuseOr (lookup : Lookup) (v : Variable) (bound fallback : Nat)
    (refusal : ConfigError) : nonzero lookup v bound fallback refusal =
      refuseOr (refusalOf (nonzero lookup v bound fallback refusal))
        (number lookup v bound fallback) := by
  rw [nonzero]
  split <;> rfl

theorem portNumber_eq_refuseOr (lookup : Lookup) (v : Variable) (fallback : UInt16) :
    portNumber lookup v fallback =
      refuseOr (refusalOf (portNumber lookup v fallback)) (portOr lookup v fallback) := by
  rw [portNumber, nonzero]
  split <;> rfl

theorem host_eq_refuseOr (lookup : Lookup) (v : Variable) (fallback : String) :
    host lookup v fallback =
      refuseOr (refusalOf (host lookup v fallback)) (hostOr lookup v fallback) := by
  rw [host, hostOr, Lookup.trimmed]
  cases lookup v.key with
  | none => rfl
  | some text =>
    dsimp only
    split <;> rfl

theorem readLabels_eq_refuseOr (lookup : Lookup) : ViewerSettings.readLabels lookup =
    refuseOr (refusalOf (ViewerSettings.readLabels lookup)) (labelsOr lookup) := by
  rw [labelsOr]
  cases ViewerSettings.readLabels lookup <;> rfl

/-- A number is refused if its variable is set to zero. -/
theorem refusalOf_nonzero_iff {refusal : ConfigError} (some_default : fallback ≠ 0) :
    refusalOf (nonzero lookup v bound fallback refusal) = some e ↔
      IsSetTo lookup v bound 0 ∧ refusal = e := by
  rw [← number_eq_zero_iff some_default, nonzero]
  split
  · next zero => simp [refusalOf, zero]
  · next some_number => simp [refusalOf, some_number]

/-- So is the number of an endpoint. -/
theorem refusalOf_portNumber_iff {fallback : UInt16} (some_default : fallback.toNat ≠ 0) :
    refusalOf (portNumber lookup v fallback) = some e ↔
      IsSetTo lookup v maxUInt16 0 ∧ .zeroPort v = e := by
  rw [← refusalOf_nonzero_iff some_default, portNumber]
  cases nonzero lookup v maxUInt16 fallback.toNat (.zeroPort v) <;> rfl

/-- A host is refused if its variable is set to blanks. -/
theorem refusalOf_host_iff {fallback : String} :
    refusalOf (host lookup v fallback) = some e ↔
      (∃ text, lookup v.key = some text ∧ isBlankText text.toList = true) ∧ .blankHost v = e := by
  rw [host]
  cases lookup v.key with
  | none => simp [refusalOf]
  | some text => cases blank : isBlankText text.toList <;> simp [refusalOf, blank]

/-- Labels are refused for the first piece of their list that is at fault. -/
theorem refusalOf_readLabels_iff : refusalOf (ViewerSettings.readLabels lookup) = some e ↔
    ∃ text cause, lookup Variable.labels.key = some text ∧ Labels.ofText text = .error cause ∧
      .badLabels cause = e := by
  rw [ViewerSettings.readLabels]
  cases lookup Variable.labels.key with
  | none => simp [refusalOf]
  | some text => cases made : Labels.ofText text <;> simp [refusalOf, made, Except.mapError]

/-- A variable is refused if it offends, and for that. -/
theorem refusal?_eq_some_iff : refusal? lookup v = some e ↔ Offends lookup v e := by
  constructor
  · intro refused
    cases v with
    | relayPort | healthPort | relaySourcePort | viewerSourcePort =>
      obtain ⟨zero, rfl⟩ := (refusalOf_portNumber_iff (by decide)).mp refused
      exact .zeroPort (by decide) zero
    | relaySourceHost | viewerSourceHost =>
      obtain ⟨⟨text, set, blank⟩, rfl⟩ := refusalOf_host_iff.mp refused
      exact .blankHost (by decide) set blank
    | window =>
      obtain ⟨zero, rfl⟩ := (refusalOf_nonzero_iff (by decide)).mp refused
      exact .zeroWindow zero
    | labels =>
      obtain ⟨text, cause, set, made, rfl⟩ := refusalOf_readLabels_iff.mp refused
      obtain ⟨front, piece, back, split, proper, offends⟩ := Labels.ofText_eq_error_iff.mp made
      exact .badLabels set split proper offends
    | relayConnectTimeout | viewerSourcePath | maxAttempts | retryDelay => cases refused
  · rintro (⟨port, zero⟩ | ⟨host, set, blank⟩ | zero | ⟨set, split, proper, offends⟩)
    · have refused {fallback : UInt16} (some_default : fallback.toNat ≠ 0) :
          refusalOf (portNumber lookup v fallback) = some (.zeroPort v) :=
        (refusalOf_portNumber_iff some_default).mpr ⟨zero, rfl⟩
      simp only [portVariables, List.mem_cons, List.not_mem_nil, or_false] at port
      rcases port with rfl | rfl | rfl | rfl <;> exact refused (by decide)
    · have refused (fallback : String) :
          refusalOf (Config.host lookup v fallback) = some (.blankHost v) :=
        refusalOf_host_iff.mpr ⟨⟨_, set, blank⟩, rfl⟩
      simp only [hostVariables, List.mem_cons, List.not_mem_nil, or_false] at host
      rcases host with rfl | rfl <;> exact refused _
    · exact (refusalOf_nonzero_iff (by decide)).mpr ⟨zero, rfl⟩
    · exact refusalOf_readLabels_iff.mpr
        ⟨_, _, set, Labels.ofText_eq_error_iff.mpr ⟨_, _, _, split, proper, offends⟩, rfl⟩

/-- A variable offends only by refusals that are about it. -/
theorem Offends.culprit_eq (h : Offends lookup v e) : e.culprit = v := by
  cases h <;> rfl

/-- A variable is not refused if it does not offend. -/
theorem refusal?_eq_none_iff : refusal? lookup v = none ↔ ∀ e, ¬ Offends lookup v e := by
  simp only [Option.eq_none_iff_forall_ne_some, ne_eq, refusal?_eq_some_iff]

/-- A variable that is not looked at does not offend. -/
theorem Offends.mem_checkedVariables (h : Offends lookup v e) : v ∈ checkedVariables := by
  rcases h with ⟨port, -⟩ | ⟨host, -, -⟩ | - | -
  · exact (by decide : ∀ u ∈ portVariables, u ∈ checkedVariables) v port
  · exact (by decide : ∀ u ∈ hostVariables, u ∈ checkedVariables) v host
  · decide
  · decide

/-! ### All settings -/

/-- The settings of the relay that are read where nothing is refused. -/
def relayOr (lookup : Lookup) : RelaySettings where
  relayPort := portOr lookup .relayPort RelaySettings.default.relayPort
  healthPort := portOr lookup .healthPort RelaySettings.default.healthPort
  sourceHost := hostOr lookup .relaySourceHost RelaySettings.default.sourceHost
  sourcePort := portOr lookup .relaySourcePort RelaySettings.default.sourcePort
  connectTimeout := .ofMillis <|
    number lookup .relayConnectTimeout maxUInt64 RelaySettings.default.connectTimeout.millis

/-- The settings of the viewer that are read where nothing is refused. -/
def viewerOr (lookup : Lookup) : ViewerSettings where
  sourceHost := hostOr lookup .viewerSourceHost ViewerSettings.default.sourceHost
  sourcePort := portOr lookup .viewerSourcePort ViewerSettings.default.sourcePort
  sourcePath := ViewerSettings.readPath lookup
  retry := ViewerSettings.readRetry lookup
  window := number lookup .window maxUInt64 ViewerSettings.default.window
  labels := labelsOr lookup

namespace Settings

/-- The first refusal counts, and without one the settings are what the variables give. -/
theorem ofLookup_eq (lookup : Lookup) : ofLookup lookup =
    refuseOr (checkedVariables.findSome? (refusal? lookup)) ⟨relayOr lookup, viewerOr lookup⟩ := by
  have first (v : Variable) (vs : List Variable) : (v :: vs).findSome? (refusal? lookup) =
      (refusal? lookup v).or (vs.findSome? (refusal? lookup)) := by
    rw [List.findSome?_cons]
    cases refusal? lookup v <;> rfl
  have relay : RelaySettings.ofLookup lookup = refuseOr
      ([Variable.relayPort, .healthPort, .relaySourceHost, .relaySourcePort].findSome?
        (refusal? lookup)) (relayOr lookup) := by
    simp only [first]
    refine bind_eq_refuseOr (portNumber_eq_refuseOr _ _ _) ?_
    refine bind_eq_refuseOr (portNumber_eq_refuseOr _ _ _) ?_
    refine bind_eq_refuseOr (host_eq_refuseOr _ _ _) ?_
    exact bind_eq_refuseOr (portNumber_eq_refuseOr _ _ _) rfl
  have viewer : ViewerSettings.ofLookup lookup = refuseOr
      ([Variable.window, .labels, .viewerSourceHost, .viewerSourcePort].findSome?
        (refusal? lookup)) (viewerOr lookup) := by
    simp only [first]
    refine bind_eq_refuseOr (nonzero_eq_refuseOr _ _ _ _ _) ?_
    refine bind_eq_refuseOr (readLabels_eq_refuseOr _) ?_
    refine bind_eq_refuseOr (host_eq_refuseOr _ _ _) ?_
    exact bind_eq_refuseOr (portNumber_eq_refuseOr _ _ _) rfl
  have checked : checkedVariables =
      [.relayPort, .healthPort, .relaySourceHost, .relaySourcePort] ++
        [.window, .labels, .viewerSourceHost, .viewerSourcePort] := rfl
  rw [checked, List.findSome?_append]
  refine bind_eq_refuseOr relay ?_
  rw [viewer]
  generalize List.findSome? _ _ = refusal
  cases refusal <;> rfl

/-- Settings are refused for the first variable that is refused. -/
theorem ofLookup_eq_error_iff :
    ofLookup lookup = .error e ↔ checkedVariables.findSome? (refusal? lookup) = some e := by
  rw [ofLookup_eq]
  cases checkedVariables.findSome? (refusal? lookup) <;> simp [refuseOr]

/-- Settings are accepted if no variable is refused, and are then what the variables give. -/
theorem ofLookup_eq_ok_iff {s : Settings} : ofLookup lookup = .ok s ↔
    (∀ v ∈ checkedVariables, refusal? lookup v = none) ∧ ⟨relayOr lookup, viewerOr lookup⟩ = s := by
  rw [ofLookup_eq, ← List.findSome?_eq_none_iff]
  cases checkedVariables.findSome? (refusal? lookup) <;> simp [refuseOr]

/-- Where nothing is refused, the settings are read from their variables. -/
theorem areRead_of_refusal? (labels_accepted : refusal? lookup .labels = none) :
    AreRead lookup ⟨relayOr lookup, viewerOr lookup⟩ where
  relayPort := toNat_portOr lookup _ _ ▸ hasNumber_number lookup _ _ _
  healthPort := toNat_portOr lookup _ _ ▸ hasNumber_number lookup _ _ _
  relaySourceHost := hasHost_hostOr lookup _ _
  relaySourcePort := toNat_portOr lookup _ _ ▸ hasNumber_number lookup _ _ _
  connectTimeout := ⟨_, rfl, hasNumber_number lookup _ _ _⟩
  viewerSourceHost := hasHost_hostOr lookup _ _
  viewerSourcePort := toNat_portOr lookup _ _ ▸ hasNumber_number lookup _ _ _
  path := hasPath_readPath lookup
  maxAttempts := hasNumber_number lookup _ _ _
  retryDelay := hasNumber_number lookup _ _ _
  window := hasNumber_number lookup _ _ _
  labels := by
    have accepted : refusalOf (ViewerSettings.readLabels lookup) = none := labels_accepted
    have read := readLabels_eq_refuseOr lookup
    rw [accepted] at read
    exact hasLabels_of_readLabels read

/-! ### Settings that are accepted -/

end Settings

/-- A number whose default is not zero is not zero unless its variable is set to zero. -/
theorem HasNumber.ne_zero (h : HasNumber lookup v bound fallback n) (some_default : fallback ≠ 0)
    (not_set : ¬ IsSetTo lookup v bound 0) : n ≠ 0 := by
  rcases h with set | ⟨-, rfl⟩
  · rintro rfl
    exact not_set set
  · exact some_default

/-- A host that is no blank value is a host if the default is. -/
theorem HasHost.isHost {fallback host : String} (h : HasHost lookup v fallback host)
    (default_host : IsHost fallback)
    (filled : ∀ text, lookup v.key = some text → isBlankText text.toList ≠ true) :
    IsHost host := by
  rcases h with ⟨text, set, trims⟩ | ⟨-, rfl⟩
  · refine ⟨?_, ?_⟩
    · rintro rfl
      exact filled text set ((trim_eq_nil_iff _).mp (trimsTo_iff.mp trims))
    · obtain ⟨-, -, -, -, -, first, last⟩ := trims
      exact ⟨[], [], by simp, rfl, rfl, first, last⟩
  · exact default_host

/-- A path is never blank. -/
theorem HasPath.filled {path : String} (h : HasPath lookup path) :
    isBlankText path.toList = false := by
  rcases h with ⟨-, filled⟩ | ⟨-, rfl⟩
  · exact filled
  · decide

/-- The address of the source is the host, the port, and the path with one slash in front. -/
theorem ViewerSettings.exists_sourceUrl_eq (s : ViewerSettings) :
    ∃ rest, s.sourceUrl = "ws://" ++ s.sourceHost ++ ":" ++ toString s.sourcePort.toNat ++
        ("/" ++ rest) ∧
      (s.sourcePath = "/" ++ rest ∨ s.sourcePath = rest ∧ rest.toList.head? ≠ some '/') := by
  by_cases rooted : s.sourcePath.toList.head? = some '/'
  · obtain ⟨rest, split⟩ := List.head?_eq_some_iff.mp rooted
    have path_eq : s.sourcePath = "/" ++ String.ofList rest := by
      apply String.toList_injective
      simp [split]
    refine ⟨String.ofList rest, ?_, .inl path_eq⟩
    rw [sourceUrl, rootedPath, if_pos rooted, ← path_eq]
  · refine ⟨s.sourcePath, ?_, .inr ⟨rfl, rooted⟩⟩
    rw [sourceUrl, rootedPath, if_neg rooted]

namespace Settings

/-- Settings that are read from variables of which none offends make sense. -/
theorem AreRead.areSound {s : Settings} (h : AreRead lookup s)
    (calm : ∀ v e, ¬ Offends lookup v e) : AreSound s := by
  have port {v : Variable} {fallback n : UInt16} (is_port : v ∈ portVariables)
      (some_default : fallback.toNat ≠ 0)
      (read : HasNumber lookup v maxUInt16 fallback.toNat n.toNat) : n ≠ 0 := by
    rintro rfl
    exact read.ne_zero some_default (fun zero ↦ calm _ _ (.zeroPort is_port zero)) rfl
  have filled {v : Variable} (is_host : v ∈ hostVariables) (text : String)
      (set : lookup v.key = some text) : isBlankText text.toList ≠ true :=
    fun blank ↦ calm _ _ (.blankHost is_host set blank)
  have localhost : IsHost "localhost" := ⟨by decide, trimsTo_iff.mpr rfl⟩
  constructor
  case relayPort => exact port (by decide) (by decide) h.relayPort
  case healthPort => exact port (by decide) (by decide) h.healthPort
  case relaySourceHost => exact h.relaySourceHost.isHost localhost (filled (by decide))
  case relaySourcePort => exact port (by decide) (by decide) h.relaySourcePort
  case viewerSourceHost => exact h.viewerSourceHost.isHost localhost (filled (by decide))
  case viewerSourcePort => exact port (by decide) (by decide) h.viewerSourcePort
  case window =>
    exact Nat.pos_of_ne_zero (h.window.ne_zero (by decide) fun zero ↦ calm _ _ (.zeroWindow zero))
  case path => exact h.path.filled
  case sourceUrl => exact s.viewer.exists_sourceUrl_eq

end Settings

/-! ### What a variable matters for -/

theorem Lookup.trimmed_congr (same : lookup' v.key = lookup v.key) :
    lookup'.trimmed v = lookup.trimmed v := by
  rw [trimmed, same, ← trimmed]

theorem number_eq_trimmed (lookup : Lookup) (v : Variable) (bound fallback : Nat) :
    number lookup v bound fallback =
      ((lookup.trimmed v).bind fun text ↦ unsigned? bound text.toList).getD fallback := by
  rw [number, number?, Lookup.trimmed]
  cases lookup v.key <;> simp [trimString]

theorem host_eq_trimmed (lookup : Lookup) (v : Variable) (fallback : String) :
    host lookup v fallback =
      match lookup.trimmed v with
      | none => .ok fallback
      | some text => if text = "" then .error (.blankHost v) else .ok text := by
  rw [host, Lookup.trimmed]
  cases lookup v.key with
  | none => rfl
  | some text => simp [trimString, ← trim_eq_nil_iff]

theorem readLabels_eq_trimmed (lookup : Lookup) : ViewerSettings.readLabels lookup =
    match lookup.trimmed .labels with
    | none => .ok ViewerSettings.default.labels
    | some spec => (Labels.ofText spec).mapError .badLabels := by
  rw [ViewerSettings.readLabels, Lookup.trimmed]
  cases lookup Variable.labels.key with
  | none => rfl
  | some spec => simp [Labels.ofText_trimString]

/-- Whether a variable is refused depends on its own value, but for the blanks around it. -/
theorem refusal?_congr (same : lookup'.trimmed v = lookup.trimmed v) :
    refusal? lookup' v = refusal? lookup v := by
  cases v <;>
    simp [refusal?, portNumber, nonzero, number_eq_trimmed, host_eq_trimmed, readLabels_eq_trimmed,
      same]

/-- What is read depends on the values of the twelve variables and, but for the path, not on the
blanks around them. -/
theorem eq_withField_path (same : ∀ v : Variable, lookup'.trimmed v = lookup.trimmed v) :
    (⟨relayOr lookup', viewerOr lookup'⟩ : Settings) = Settings.withField
      ⟨relayOr lookup, viewerOr lookup⟩ ⟨relayOr lookup', viewerOr lookup'⟩ .viewerSourcePath := by
  simp [Settings.withField, relayOr, viewerOr, portOr, hostOr, number_eq_trimmed,
    ViewerSettings.readRetry, labelsOr, readLabels_eq_trimmed, same]

/-- What is read from variables of which one has another value differs in the setting that this one
is for. -/
theorem eq_withField (agree : ∀ u : Variable, u ≠ v → lookup' u.key = lookup u.key) :
    (⟨relayOr lookup', viewerOr lookup'⟩ : Settings) = Settings.withField
      ⟨relayOr lookup, viewerOr lookup⟩ ⟨relayOr lookup', viewerOr lookup'⟩ v := by
  have trimmed : ∀ u : Variable, u ≠ v → lookup'.trimmed u = lookup.trimmed u :=
    fun u differs ↦ Lookup.trimmed_congr (agree u differs)
  cases v <;>
    simp [Settings.withField, relayOr, viewerOr, portOr, hostOr, number_eq_trimmed,
      ViewerSettings.readPath, ViewerSettings.readRetry, labelsOr, readLabels_eq_trimmed, trimmed,
      agree]

/-- Where two searches agree but at one place, either that place matters or both find the same. -/
theorem findSome?_cases {α β : Type} [DecidableEq α] {f g : α → Option β} {a : α} {l : List α}
    {b : β} (agree : ∀ c, c ≠ a → g c = f c) (found : l.findSome? f = some b) :
    f a = some b ∨ l.findSome? g = some b ∨ ∃ b', g a = some b' ∧ l.findSome? g = some b' := by
  induction l with
  | nil => cases found
  | cons c l ih =>
    rw [List.findSome?_cons] at found ⊢
    by_cases here : c = a
    · subst here
      cases g_here : g c with
      | some b' => exact .inr (.inr ⟨b', rfl, rfl⟩)
      | none =>
        cases f_here : f c with
        | some b' =>
          rw [f_here] at found
          exact .inl found
        | none =>
          rw [f_here] at found
          simpa [f_here, g_here] using ih found
    · rw [agree c here]
      cases f_here : f c with
      | some b' =>
        rw [f_here] at found
        exact .inr (.inl found)
      | none =>
        rw [f_here] at found
        exact ih found

namespace Settings

/-- Between variables of which one has another value, a refusal stays unless it is for this one, or
one for this one comes before it. -/
theorem differAt_ofLookup (agree : ∀ u : Variable, u ≠ v → lookup' u.key = lookup u.key) :
    DifferAt v (ofLookup lookup) (ofLookup lookup') where
  of_ok s s' accepted accepted' := by
    obtain ⟨-, rfl⟩ := ofLookup_eq_ok_iff.mp accepted
    obtain ⟨-, rfl⟩ := ofLookup_eq_ok_iff.mp accepted'
    exact eq_withField agree
  of_error e refused other := by
    have elsewhere : ∀ u, u ≠ v → refusal? lookup' u = refusal? lookup u :=
      fun u differs ↦ refusal?_congr (Lookup.trimmed_congr (agree u differs))
    simp only [ofLookup_eq_error_iff] at refused ⊢
    rcases findSome?_cases elsewhere refused with here | same | ⟨e', here, found⟩
    · exact absurd (refusal?_eq_some_iff.mp here).culprit_eq other
    · exact ⟨e, same, .inl rfl⟩
    · exact ⟨e', found, .inr (refusal?_eq_some_iff.mp here).culprit_eq⟩

/-- Settings are read from the twelve variables, one by one: they are refused for the first of them
whose value makes no sense, and else each of them gives its own setting. -/
theorem reads_ofLookup (lookup : Lookup) : Reads lookup where
  exists_error_iff := by
    simp only [ofLookup_eq_error_iff, ← Option.isSome_iff_exists, List.findSome?_isSome_iff]
    simp only [Option.isSome_iff_exists, refusal?_eq_some_iff]
    constructor
    · rintro ⟨v, -, e, offends⟩
      exact ⟨v, e, offends⟩
    · rintro ⟨v, e, offends⟩
      exact ⟨v, offends.mem_checkedVariables, e, offends⟩
  error_iff e := by
    simp only [ofLookup_eq_error_iff, List.findSome?_eq_some_iff, refusal?_eq_some_iff,
      refusal?_eq_none_iff, and_comm]
  areRead s accepted := by
    obtain ⟨calm, rfl⟩ := ofLookup_eq_ok_iff.mp accepted
    exact areRead_of_refusal? (calm .labels (by decide))
  areSound s accepted := by
    obtain ⟨calm, rfl⟩ := ofLookup_eq_ok_iff.mp accepted
    refine (areRead_of_refusal? (calm .labels (by decide))).areSound fun v e offends ↦ ?_
    exact refusal?_eq_none_iff.mp (calm v offends.mem_checkedVariables) e offends
  congr lookup' same := by
    have trimmed (v : Variable) := Lookup.trimmed_congr (same v)
    have refusals : refusal? lookup' = refusal? lookup :=
      funext fun v ↦ refusal?_congr (trimmed v)
    have path : ViewerSettings.readPath lookup' = ViewerSettings.readPath lookup := by
      rw [ViewerSettings.readPath, same, ← ViewerSettings.readPath]
    rw [ofLookup_eq, ofLookup_eq, refusals, eq_withField_path trimmed]
    simp [withField, viewerOr, path]
  differAt v lookup' agree := differAt_ofLookup agree

end Settings

end Quoteboard.Config
