/-!
# Log entries
-/

namespace Quoteboard.Viewer

/-- How urgent an entry is. -/
inductive Level where
  | debug
  | info
  | warn
  deriving DecidableEq, Repr

/-- The name of a level. -/
def Level.name : Level → String
  | .debug => "DEBUG"
  | .info => "INFO"
  | .warn => "WARN"

/-- The value of a field of an entry. -/
inductive FieldValue where
  | count (n : Nat)
  | flag (b : Bool)
  | real (x : Float)
  /-- A double that may be missing. -/
  | optionalReal (x : Option Float)
  | text (s : String)
  deriving DecidableEq, Repr

/-- What is written to the log at one time. -/
structure LogEntry where
  level : Level
  message : String
  fields : List (String × FieldValue)
  deriving DecidableEq, Repr

end Quoteboard.Viewer
