import LoadBench.Report.Figures
import LoadBench.Summary.StagedReport

/-!
# Load runs in text

* `Report.load`: the text report on a run of simulated users.
* `Report.staged`: the text report on a staged run.
* `Report.nameCell`: a name cut and filled to the width of its column.
-/

namespace LoadBench.Report

open Text (padStart padEnd truncate)

/-- A name as a table cell, cut or filled to a width. -/
def nameCell (width : Nat) (name : String) : String := padEnd width (truncate width name)

/-! ## One run -/

/-- The width of the column of page names. -/
def pageWidth : Nat := 24

/-- The row of a page. -/
def pageRow (t : PageTimeline) : String :=
  tableRow [nameCell pageWidth t.name, padStart 7 (toString t.times.length), timeCell t.average,
    timeCell t.least, timeCell t.greatest]

/-- The line of a complexity: its share of the requests, and their average time if there are any. -/
def complexityLine (p : ComplexityProfile) (c : Complexity) (share : Float) : String :=
  "  " ++ padEnd 6 c.name ++ " " ++ cell 5 1 (share * 100.0) ++ "% of requests, avg "
    ++ ((p.averageTimes.get? c).map milliseconds).getD "-"

/-- The lines of the report on a load run. -/
def loadLines (r : LoadReport) : List String :=
  ["LOAD TEST RESULTS: " ++ r.scenarioName, rule, "",
    s!"Users: {r.concurrentUsers} (nominal {r.nominalUsers}) │ Requests: {r.totalRequests} │ "
      ++ "Success: " ++ percent 1 r.successRate ++ " │ Failed: " ++ percent 1 r.failureRate,
    "Duration: " ++ milliseconds r.totalTimeMs ++ " │ Throughput: " ++ fixed 2 r.throughput
      ++ " req/s │ Response: avg " ++ milliseconds r.averageResponseMs ++ ", min "
      ++ milliseconds r.leastResponseMs ++ ", max " ++ milliseconds r.greatestResponseMs,
    ""]
    ++ (if 0 < r.failedUsers then [s!"Unjoined users: {r.failedUsers}", ""] else [])
    ++ latencyLines r.latency
    ++ ["Pages (avg load " ++ milliseconds r.averagePageLoadTime ++ "):",
      "┌──────────────────────────┬─────────┬─────────┬─────────┬─────────┐",
      "│ Page                     │ Visits  │ Avg     │ Min     │ Max     │",
      "├──────────────────────────┼─────────┼─────────┼─────────┼─────────┤"]
    ++ r.pageTimelines.map pageRow
    ++ ["└──────────────────────────┴─────────┴─────────┴─────────┴─────────┘", "", "Complexity:"]
    ++ r.complexity.distribution.entries.map (fun (c, share) => complexityLine r.complexity c share)
    ++ "" :: errorLines r.errors

/-- The report on a load run. -/
def load (r : LoadReport) : String := Text.unlines (loadLines r)

/-! ## Staged runs -/

/-- The width of the column of stage names. -/
def stageWidth : Nat := 28

/-- The row of a stage. -/
def stageRow (s : StageRow) : String :=
  tableRow [nameCell stageWidth s.name, padStart 7 (toString s.userCount),
    timeCell s.averageResponseMs, timeCell s.p95, cell 8 2 s.throughput,
    cell 6 1 (s.successRate * 100.0) ++ "%"]

/-- The lines of the report on a staged run. -/
def stagedLines (r : StagedReport) : List String :=
  [r.mode.heading ++ " RESULTS: " ++ r.scenarioName, rule, r.description, "",
    s!"Target users: {r.totalUsers} │ Requests: {r.totalRequests} │ Avg response: "
      ++ milliseconds r.averageResponseMs ++ " │ Success: " ++ percent 1 r.successRate,
    "", "Stages:",
    "┌──────────────────────────────┬─────────┬─────────┬─────────┬──────────┬─────────┐",
    "│ Stage                        │ Users   │ Avg     │ p95     │ Req/s    │ Success │",
    "├──────────────────────────────┼─────────┼─────────┼─────────┼──────────┼─────────┤"]
    ++ r.comparison.map stageRow
    ++ "└──────────────────────────────┴─────────┴─────────┴─────────┴──────────┴─────────┘"
      :: "" :: latencyLines r.latency

/-- The report on a staged run. -/
def staged (r : StagedReport) : String := Text.unlines (stagedLines r)

end LoadBench.Report
