import Quoteboard.Board.Aggregator
import Quoteboard.Chart.Labels
import Quoteboard.Connection.Machine
import Quoteboard.Transport.Duration

/-!
# Settings

The settings of the relay and of the viewer, read from named variables. A number that is absent
or cannot be read takes its default; a value that can be read but makes no sense is refused.
Blanks around a value never count, except in the path, which is taken as it stands.
-/

namespace Quoteboard.Config

open Quoteboard.Chart Quoteboard.Connection Quoteboard.Text Quoteboard.Transport

/-- A variable that a setting is read from. -/
inductive Variable where
  | relayPort
  | healthPort
  /-- The host of the source that the relay connects to. -/
  | relaySourceHost
  | relaySourcePort
  | relayConnectTimeout
  /-- The host of the source that the viewer connects to. -/
  | viewerSourceHost
  | viewerSourcePort
  | viewerSourcePath
  | maxAttempts
  | retryDelay
  | window
  | labels
  deriving DecidableEq, Repr

/-- The name of a variable. -/
def Variable.key : Variable → String
  | .relayPort => "SCOREBOARD_RELAY_PORT"
  | .healthPort => "SCOREBOARD_HEALTH_PORT"
  | .relaySourceHost => "SCOREBOARD_UPSTREAM_HOST"
  | .relaySourcePort => "SCOREBOARD_UPSTREAM_PORT"
  | .relayConnectTimeout => "SCOREBOARD_UPSTREAM_CONNECT_TIMEOUT_MS"
  | .viewerSourceHost => "SCOREBOARD_SOURCE_HOST"
  | .viewerSourcePort => "SCOREBOARD_SOURCE_PORT"
  | .viewerSourcePath => "SCOREBOARD_SOURCE_PATH"
  | .maxAttempts => "SCOREBOARD_MAX_RECONNECT_ATTEMPTS"
  | .retryDelay => "SCOREBOARD_RECONNECT_DELAY_MS"
  | .window => "SCOREBOARD_WINDOW"
  | .labels => "SCOREBOARD_INSTRUMENT_LABELS"

/-- Why settings are refused. -/
inductive ConfigError where
  /-- A host is nothing but blanks. -/
  | blankHost (v : Variable)
  /-- The number of an endpoint to listen on or to connect to is zero. -/
  | zeroPort (v : Variable)
  | zeroWindow
  | badLabels (cause : LabelError)
  deriving DecidableEq, Repr

/-- The wording for a value that can be read but makes no sense. -/
def invalidMessage (v : Variable) (cause : String) : String :=
  "environment variable " ++ v.key ++ " is invalid: " ++ cause

/-- The wording of a refusal. -/
def ConfigError.message : ConfigError → String
  | .blankHost v => "environment variable " ++ v.key ++ " cannot be empty"
  | .zeroPort v => invalidMessage v "port must be non-zero"
  | .zeroWindow => invalidMessage .window "must be at least 1"
  | .badLabels cause => "invalid " ++ Variable.labels.key ++ ": " ++ cause.message

/-- What each variable is set to, if it is set. -/
abbrev Lookup := String → Option String

/-- The number that a variable is set to, if it is set to a numeral of at most `bound`. -/
def number? (lookup : Lookup) (v : Variable) (bound : Nat) : Option Nat :=
  (lookup v.key).bind fun text ↦ unsigned? bound (trim text.toList)

/-- The number that a variable is set to, or the default. -/
def number (lookup : Lookup) (v : Variable) (bound fallback : Nat) : Nat :=
  (number? lookup v bound).getD fallback

/-- A number that must not be zero. -/
def nonzero (lookup : Lookup) (v : Variable) (bound fallback : Nat) (refusal : ConfigError) :
    Except ConfigError Nat :=
  let n := number lookup v bound fallback
  if n = 0 then .error refusal else .ok n

/-- The number of an endpoint that a variable is set to, or the default. -/
def portNumber (lookup : Lookup) (v : Variable) (fallback : UInt16) : Except ConfigError UInt16 :=
  (nonzero lookup v maxUInt16 fallback.toNat (.zeroPort v)).map UInt16.ofNat

/-- The host that a variable is set to, or the default. -/
def host (lookup : Lookup) (v : Variable) (fallback : String) : Except ConfigError String :=
  match lookup v.key with
  | none => .ok fallback
  | some text => if isBlankText text.toList then .error (.blankHost v) else .ok (trimString text)

/-- The route on which the relay accepts viewers. -/
def relayPath : String := "/api/socket"

/-- The settings of the relay. -/
structure RelaySettings where
  /-- Where viewers are accepted. -/
  relayPort : UInt16
  /-- Where the health pages and the metrics are served. -/
  healthPort : UInt16
  sourceHost : String
  sourcePort : UInt16
  /-- How long opening a connection to the source may take. -/
  connectTimeout : Duration
  deriving DecidableEq, Repr

namespace RelaySettings

/-- The settings of a relay for which no variable is set. -/
def default : RelaySettings where
  relayPort := 3000
  healthPort := 8083
  sourceHost := "localhost"
  sourcePort := 9002
  connectTimeout := .ofMillis 5000

/-- The address of the source. -/
def sourceUrl (s : RelaySettings) : String :=
  "ws://" ++ s.sourceHost ++ ":" ++ toString s.sourcePort.toNat

/-- Read the settings of the relay. -/
def ofLookup (lookup : Lookup) : Except ConfigError RelaySettings := do
  let relayPort ← portNumber lookup .relayPort default.relayPort
  let healthPort ← portNumber lookup .healthPort default.healthPort
  let sourceHost ← host lookup .relaySourceHost default.sourceHost
  let sourcePort ← portNumber lookup .relaySourcePort default.sourcePort
  let timeout := number lookup .relayConnectTimeout maxUInt64 default.connectTimeout.millis
  pure ⟨relayPort, healthPort, sourceHost, sourcePort, .ofMillis timeout⟩

end RelaySettings

/-- The settings of the viewer. -/
structure ViewerSettings where
  sourceHost : String
  sourcePort : UInt16
  sourcePath : String
  retry : RetryPolicy
  /-- How many samples are kept of an instrument. -/
  window : Nat
  labels : Labels
  deriving DecidableEq

namespace ViewerSettings

/-- The settings of a viewer for which no variable is set. -/
def default : ViewerSettings where
  sourceHost := "localhost"
  sourcePort := 3000
  sourcePath := relayPath
  retry := .default
  window := Board.defaultWindow
  labels := Labels.production

/-- The path with a slash in front. -/
def rootedPath (path : String) : String :=
  if path.toList.head? = some '/' then path else "/" ++ path

/-- The address of the source. -/
def sourceUrl (s : ViewerSettings) : String :=
  "ws://" ++ s.sourceHost ++ ":" ++ toString s.sourcePort.toNat ++ rootedPath s.sourcePath

/-- Read the labels. -/
def readLabels (lookup : Lookup) : Except ConfigError Labels :=
  match lookup Variable.labels.key with
  | none => .ok default.labels
  | some spec => (Labels.ofText spec).mapError .badLabels

/-- Read the path; one that is nothing but blanks counts as absent. -/
def readPath (lookup : Lookup) : String :=
  ((lookup Variable.viewerSourcePath.key).filter fun p ↦ !isBlankText p.toList).getD
    default.sourcePath

/-- Read how often and when a connection is retried. -/
def readRetry (lookup : Lookup) : RetryPolicy where
  maxAttempts := number lookup .maxAttempts maxUInt32 default.retry.maxAttempts
  delayMillis := number lookup .retryDelay maxUInt64 default.retry.delayMillis

/-- Read the settings of the viewer. -/
def ofLookup (lookup : Lookup) : Except ConfigError ViewerSettings := do
  let window ← nonzero lookup .window maxUInt64 default.window .zeroWindow
  let labels ← readLabels lookup
  let sourceHost ← host lookup .viewerSourceHost default.sourceHost
  let sourcePort ← portNumber lookup .viewerSourcePort default.sourcePort
  pure ⟨sourceHost, sourcePort, readPath lookup, readRetry lookup, window, labels⟩

end ViewerSettings

/-- The settings of both. -/
structure Settings where
  relay : RelaySettings
  viewer : ViewerSettings
  deriving DecidableEq

namespace Settings

/-- The settings when no variable is set. -/
def default : Settings := ⟨.default, .default⟩

/-- Read all settings; the first refusal counts, those of the relay before those of the viewer. -/
def ofLookup (lookup : Lookup) : Except ConfigError Settings := do
  let relay ← RelaySettings.ofLookup lookup
  let viewer ← ViewerSettings.ofLookup lookup
  pure ⟨relay, viewer⟩

/-- Where no variable is set, all settings are the default ones. -/
theorem ofLookup_none : ofLookup (fun _ ↦ none) = .ok default := rfl

end Settings

end Quoteboard.Config
