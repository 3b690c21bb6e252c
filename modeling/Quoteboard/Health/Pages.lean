import Quoteboard.Health.Request
import Quoteboard.Metrics.Exposition
import Quoteboard.Relay.Registry

/-!
# Health pages

What the relay answers to those who watch over it: a report on its pairs, two probes, and its
metrics. The relay is ready while the latest attempt to reach the source did not fail; it is
healthy as long as it is ready or serves a pair.
-/

namespace Quoteboard.Health

open Quoteboard.Relay (Stats)

/-- The overall state of the relay. -/
inductive HealthStatus where
  /-- The source can be reached. -/
  | healthy
  /-- The source could not be reached, but there are pairs still. -/
  | degraded
  /-- The source could not be reached, and there are no pairs. -/
  | unhealthy
  deriving DecidableEq, Repr

/-- The name of a state. -/
def HealthStatus.name : HealthStatus → String
  | .healthy => "healthy"
  | .degraded => "degraded"
  | .unhealthy => "unhealthy"

/-- The overall state that some counts tell of. -/
def HealthStatus.ofStats (s : Stats) : HealthStatus :=
  if !s.lastOpenFailed then .healthy
  else if s.activePairs = 0 then .unhealthy
  else .degraded

/-- What the report says, apart from the time of the day and the time since the start. -/
structure Report where
  status : HealthStatus
  version : String
  /-- The address of the source. -/
  source : String
  stats : Stats
  deriving DecidableEq, Repr

/-- What stands in an answer. -/
inductive Body where
  | text (content : String)
  | report (report : Report)
  deriving DecidableEq, Repr

/-- An answer: its code, the kind of its content if it has any, and the content. -/
structure Response where
  code : Nat
  contentType : Option String
  body : Body
  deriving DecidableEq, Repr

/-- A page. -/
inductive Page where
  | report
  | liveness
  | readiness
  | metrics
  deriving DecidableEq, Repr

/-- The page at a path. -/
def Page.ofPath? : String → Option Page
  | "/health" => some .report
  | "/healthz" => some .liveness
  | "/readyz" => some .readiness
  | "/metrics" => some .metrics
  | _ => none

/-- What the pages are about. -/
structure Site where
  version : String
  /-- The address of the source. -/
  source : String
  stats : Stats
  /-- The text of the metrics, if metrics are collected for scraping. -/
  scraped : Option String

/-- The code of an answer that all is well. -/
def codeOk : Nat := 200

/-- The code of an answer from a relay that cannot serve. -/
def codeUnavailable : Nat := 503

/-- The kind of a plain text. -/
def plainText : Option String := some "text/plain; charset=utf-8"

namespace Site

/-- The report at present. -/
def report (s : Site) : Report :=
  ⟨.ofStats s.stats, s.version, s.source, s.stats⟩

/-- The answer that shows a page. -/
def render (s : Site) : Page → Response
  | .report =>
    let code := if s.report.status = .unhealthy then codeUnavailable else codeOk
    ⟨code, some "application/json", .report s.report⟩
  | .liveness => ⟨codeOk, plainText, .text "OK"⟩
  | .readiness =>
    if s.stats.lastOpenFailed then ⟨codeUnavailable, plainText, .text "NOT READY"⟩
    else ⟨codeOk, plainText, .text "READY"⟩
  | .metrics =>
    match s.scraped with
    | some text => ⟨codeOk, some "text/plain; version=0.0.4; charset=utf-8", .text text⟩
    | none => ⟨codeUnavailable, some "text/plain", .text "Metrics not initialized"⟩

end Site

/-- The answer without its content. -/
def Response.headOnly (r : Response) : Response :=
  { r with body := .text "" }

/-- Answer a request. Pages can be fetched, with or without their content, and nothing else. -/
def Site.respond (s : Site) (r : Request) : Response :=
  match Page.ofPath? r.path with
  | none => ⟨404, none, .text ""⟩
  | some page =>
    if r.method = "GET" then s.render page
    else if r.method = "HEAD" then (s.render page).headOnly
    else ⟨405, none, .text ""⟩

/-- The relay is ready exactly if the latest attempt to reach the source did not fail. -/
theorem Site.code_readiness (s : Site) :
    (s.render .readiness).code = if s.stats.lastOpenFailed then codeUnavailable else codeOk := by
  rw [Site.render]
  split <;> simp_all

/-- The report says that the relay cannot serve exactly if the latest attempt to reach the source
failed and there are no pairs. -/
theorem Site.code_report (s : Site) :
    (s.render .report).code = codeUnavailable ↔
      s.stats.lastOpenFailed = true ∧ s.stats.activePairs = 0 := by
  simp only [Site.render, Site.report, HealthStatus.ofStats, codeUnavailable, codeOk]
  grind

end Quoteboard.Health
