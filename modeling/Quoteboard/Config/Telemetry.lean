import Quoteboard.Config.Settings

/-!
# Telemetry settings

Whether and where a process reports on its own work, read from named variables.
-/

namespace Quoteboard.Config

open Quoteboard.Text

/-- The telemetry settings of one process. -/
structure Telemetry where
  enabled : Bool
  /-- Where reports are sent. -/
  endpoint : String
  serviceName : String
  deriving DecidableEq, Repr

namespace Telemetry

/-- The settings of a service for which no variable is set. -/
def forService (name : String) : Telemetry :=
  ⟨true, "http://localhost:4318", name⟩

/-- Whether a text is the word `false`; the case of ASCII letters does not count. -/
def isFalse (text : String) : Bool :=
  text.toList.map Char.toLower = "false".toList

/-- Read the settings of a service. The endpoint and the name are taken as they stand; a name that
is nothing but blanks counts as absent. -/
def ofLookup (service : String) (lookup : Lookup) : Telemetry where
  enabled := (lookup "OTEL_ENABLED").all fun text ↦ !isFalse text
  endpoint := (lookup "OTEL_EXPORTER_OTLP_ENDPOINT").getD (forService service).endpoint
  serviceName :=
    ((lookup "OTEL_SERVICE_NAME").filter fun name ↦ !isBlankText name.toList).getD
      (forService service).serviceName

end Telemetry

end Quoteboard.Config
