import LoadBench.Report.Figures
import LoadBench.Summary.ScenarioReport

/-!
# Scenario runs in text

* `Report.scenario`: the text report on one run.
* `Report.markdownRow`, `Report.markdownTable`: runs as rows of a Markdown table.
-/

namespace LoadBench.Report

/-! ## Text -/

/-- What the session samples came to. -/
def sessionLine : Option SessionSummary → String
  | none => "  Session: no telemetry"
  | some s =>
    "  Session: avg total " ++ fixed 1 s.averageTotal ++ ", avg active " ++ fixed 1 s.averageActive
      ++ s!", max threads {s.maxThreadsConnected} connected / {s.maxThreadsRunning} running"
      ++ s!", max used {s.maxUsed}"

/-- What the pool samples came to. -/
def poolLine : Option PoolSummary → String
  | none => "  Pool: no telemetry"
  | some p =>
    s!"  Pool: max {p.maxConnections}, avg current " ++ fixed 1 p.averageCurrent
      ++ ", avg available " ++ fixed 1 p.averageAvailable ++ s!", wait timeout {p.waitTimeout}"

/-- What the query samples came to; no line without any. -/
def queryLines : Option QuerySummary → List String
  | none => []
  | some q =>
    [s!"  Queries: {q.count} executed, avg delay " ++ fixed 2 q.averageDelay ++ "s, avg actual "
      ++ fixed 2 q.averageActual ++ "s, avg overrun " ++ fixed 3 q.averageOverrun ++ "s"]

/-- The ratios of use, with an empty line after them. -/
def analysisLines (a : Analysis) : List String :=
  ["Analysis:",
    "  Throughput: " ++ fixed 2 a.throughput ++ " req/s │ Avg response: "
      ++ fixed 1 a.averageResponseTime ++ "ms",
    "  Connection efficiency: " ++ fixed 2 a.connectionEfficiency ++ " │ utilization: "
      ++ fixed 2 a.connectionUtilization ++ " │ concurrency impact: "
      ++ fixed 2 a.concurrencyImpact,
    "  Connection reuse: " ++ fixed 2 a.resources.reuse ++ " │ stability: "
      ++ fixed 2 a.resources.stability,
    ""]

/-- Which iterations were lost; no line without any. -/
def lostLines (indices : List Nat) : List String :=
  if indices.isEmpty then []
  else ["Failed iterations: [" ++ ", ".intercalate (indices.map toString) ++ "]"]

/-- The lines of the report on a scenario run. -/
def scenarioLines (r : ScenarioReport) : List String :=
  ["SCENARIO RESULTS: " ++ r.scenarioName, rule]
    ++ (if r.description.isEmpty then [] else [r.description])
    ++ ["",
      s!"Requests: {r.totalRequests} ({r.completedRequests} collected) │ "
        ++ s!"Iterations: {r.iterations} │ Success: " ++ percent 1 r.successRate,
      "Elapsed: " ++ milliseconds r.totalElapsedMs ++ " │ Theoretical: "
        ++ milliseconds r.theoreticalMs ++ "/iteration │ Efficiency: " ++ fixed 1 r.efficiency
        ++ "% │ Overhead: " ++ milliseconds r.overheadMs,
      "Avg iteration: " ++ milliseconds r.averageIterationMs ++ " │ Avg request: "
        ++ milliseconds r.averageRequestMs ++ " │ Avg timeout: " ++ milliseconds r.averageTimeoutMs]
    ++ lostLines r.failedIterations ++ [""]
    ++ latencyLines r.latency
    ++ ["Connections:", sessionLine r.connections.session, poolLine r.connections.pool]
    ++ queryLines r.connections.queries ++ [""]
    ++ analysisLines r.analysis
    ++ errorLines r.errors

/-- The report on a scenario run. -/
def scenario (r : ScenarioReport) : String := Text.unlines (scenarioLines r)

/-! ## Markdown -/

/-- A name as a table cell: an upright line would end the cell and becomes a slash. -/
def cellText (s : String) : String :=
  String.ofList (s.toList.map fun c => if c == '|' then '/' else c)

/-- A row of a Markdown table. -/
def markdownCells (cells : List String) : String := "| " ++ " | ".intercalate cells ++ " |"

/-- The row of one run. -/
def markdownRow (r : ScenarioReport) : String :=
  markdownCells [cellText r.scenarioName, toString r.iterations, toString r.totalRequests,
    percent 1 r.successRate, fixed 1 r.averageRequestMs, fixed 1 r.latency.p95,
    fixed 1 r.efficiency ++ "%", fixed 1 r.overheadMs, fixed 2 r.analysis.throughput]

/-- The two header lines of the table. -/
def markdownHeader : List String :=
  ["| Scenario | Iterations | Requests | Success | Avg (ms) | P95 (ms) | Efficiency "
      ++ "| Overhead (ms) | Req/s |",
    "|----------|------------|----------|---------|----------|----------|------------"
      ++ "|---------------|-------|"]

/-- A table of some runs under a heading. -/
def markdownTable (runs : List ScenarioReport) : String :=
  Text.joinLines (["## Scenario Results", ""] ++ markdownHeader ++ runs.map markdownRow ++ [""])

end LoadBench.Report
