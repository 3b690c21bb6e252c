/-!
# Why a relay pair ends
-/

namespace Quoteboard.Relay

/-- Why a pair was torn down. -/
inductive TeardownReason where
  /-- The viewer closed its connection. -/
  | viewerClosed
  /-- The connection to the viewer failed. -/
  | viewerError
  /-- The source closed its connection. -/
  | sourceClosed
  /-- The connection to the source failed after it had opened. -/
  | sourceError
  /-- The connection to the source could not be opened. -/
  | sourceUnavailable
  /-- The relay shuts down. -/
  | shutdown
  /-- The pair was given up without a reason. -/
  | dropped
  deriving DecidableEq, Repr

/-- The name of a reason. -/
def TeardownReason.name : TeardownReason → String
  | .viewerClosed => "downstream_closed"
  | .viewerError => "downstream_error"
  | .sourceClosed => "upstream_closed"
  | .sourceError => "upstream_error"
  | .sourceUnavailable => "upstream_unavailable"
  | .shutdown => "shutdown"
  | .dropped => "dropped"

/-- All reasons. -/
def TeardownReason.all : List TeardownReason :=
  [.viewerClosed, .viewerError, .sourceClosed, .sourceError, .sourceUnavailable,
    .shutdown, .dropped]

/-- The reason with this name. -/
def TeardownReason.ofName? (name : String) : Option TeardownReason :=
  all.find? (·.name = name)

/-- A reason is found by its name. -/
theorem TeardownReason.ofName?_name (r : TeardownReason) : ofName? r.name = some r := by
  cases r <;> decide

end Quoteboard.Relay
