import Quoteboard.Decimal.Shortest
import Quoteboard.Metrics.Recording

/-!
# Metrics as text

The text lines in which metrics are shown: one line for each metric that was recorded at least
once and, for scraping, the help and the type of each family before its lines.
-/

namespace Quoteboard.Metrics

open Quoteboard.Relay (TeardownReason)

/-- The name of the family a counter belongs to. -/
def Counter.family : Counter → String
  | .pairsAccepted => "scoreboard_relay_pairs_accepted_total"
  | .teardowns _ => "scoreboard_relay_teardowns_total"
  | .framesForwarded _ => "scoreboard_relay_frames_forwarded_total"
  | .framesDropped _ => "scoreboard_relay_frames_dropped_total"
  | .sourceFailures => "scoreboard_relay_upstream_failures_total"
  | .reconnects _ => "scoreboard_client_reconnects_total"
  | .eventsDropped => "scoreboard_client_events_dropped_total"
  | .protocolErrors => "scoreboard_client_protocol_errors_total"
  | .samplesIngested => "scoreboard_samples_ingested_total"
  | .samplesEvicted => "scoreboard_samples_evicted_total"

/-- The name and the value of a counter's label, if it has one. -/
def Counter.label? : Counter → Option (String × String)
  | .teardowns reason => some ("reason", reason.name)
  | .framesForwarded d | .framesDropped d => some ("direction", d.name)
  | .reconnects manual => some ("trigger", if manual then "manual" else "automatic")
  | _ => none

/-- The help text of a counter's family. -/
def Counter.help : Counter → String
  | .pairsAccepted => "Total downstream connections accepted by the relay"
  | .teardowns _ => "Total relay pair teardowns by reason"
  | .framesForwarded _ => "Total frames forwarded between legs"
  | .framesDropped _ => "Total frames dropped because the peer leg was not open"
  | .sourceFailures => "Total failed upstream opens"
  | .reconnects _ => "Total automatic and manual reconnect attempts"
  | .eventsDropped => "Total client events dropped because the consumer fell behind"
  | .protocolErrors => "Total discarded inbound messages"
  | .samplesIngested => "Total samples appended to instrument series"
  | .samplesEvicted => "Total samples evicted from full series"

/-- All counters. -/
def Counter.all : List Counter :=
  [.pairsAccepted] ++ TeardownReason.all.map .teardowns
    ++ [.framesForwarded .toSource, .framesForwarded .toViewer, .framesDropped .toSource,
      .framesDropped .toViewer, .sourceFailures, .reconnects true, .reconnects false,
      .eventsDropped, .protocolErrors, .samplesIngested, .samplesEvicted]

/-- The counters that were recorded. -/
def recorded (record : List Recording) : List Counter :=
  Counter.all.filter fun c ↦ record.any (Recording.isAbout c)

/-- The greatest value that a counter can show, plus one. -/
def counterModulus : Nat := 0x10000000000000000

/-- The line of a counter. -/
def Counter.line (record : List Recording) (c : Counter) : String :=
  let label := match c.label? with
    | some (name, value) => "\x7b" ++ name ++ "=\"" ++ value ++ "\"\x7d"
    | none => ""
  c.family ++ label ++ " " ++ toString (total c record % counterModulus)

/-- The name of the number of active pairs. -/
def activePairsName : String := "scoreboard_relay_active_pairs"

/-- The name of the time it takes to ingest and draw a snapshot. -/
def ingestTimeName : String := "scoreboard_ingest_seconds"

/-- Doubles in metrics: never an exponent, and no fraction of a whole number. -/
def valueStyle : Decimal.Style :=
  ⟨-400, 400, false⟩

/-- The line of the number of active pairs, if it was recorded. -/
def activePairsLines (record : List Recording) : List String :=
  match activePairs? record with
  | some n => [activePairsName ++ " " ++ valueStyle.text (Float.ofNat n)]
  | none => []

/-- The line that counts ingests, if there were any. -/
def ingestLines (record : List Recording) : List String :=
  let n := ingestCount record
  if 0 < n then [ingestTimeName ++ "_count " ++ toString n] else []

/-- Put lines in the order of their code points. -/
def sortLines (lines : List String) : List String :=
  lines.mergeSort fun a b ↦ a ≤ b

/-- The lines of all metrics that were recorded, in order. -/
def lines (record : List Recording) : List String :=
  sortLines ((recorded record).map (Counter.line record) ++ activePairsLines record
    ++ ingestLines record)

/-- Metrics of one kind under one name. -/
structure Family where
  name : String
  kind : String
  help : String
  lines : List String

/-- The text of a family: what it is, its lines, and a blank line. -/
def Family.text (f : Family) : String :=
  let introduction := ["# HELP " ++ f.name ++ " " ++ f.help, "# TYPE " ++ f.name ++ " " ++ f.kind]
  String.join ((introduction ++ f.lines ++ [""]).map (· ++ "\n"))

/-- The families of the counters that were recorded. -/
def counterFamilies (record : List Recording) : List Family :=
  let counters := recorded record
  let introductions := (counters.map fun c ↦ (c.family, c.help)).eraseDups
  introductions.map fun (name, help) ↦
    ⟨name, "counter", help, (counters.filter (·.family = name)).map (Counter.line record)⟩

/-- The families that were recorded: counters, then the active pairs, then the ingests. -/
def families (record : List Recording) : List Family :=
  let pairs : Family :=
    ⟨activePairsName, "gauge", "Number of relay pairs currently forwarding",
      activePairsLines record⟩
  let ingests : Family :=
    ⟨ingestTimeName, "summary", "Time to ingest a snapshot and render the update",
      ingestLines record⟩
  counterFamilies record ++ [pairs, ingests].filter (!·.lines.isEmpty)

/-- The text for scraping. -/
def exposition (record : List Recording) : String :=
  String.join ((families record).map Family.text)

end Quoteboard.Metrics
