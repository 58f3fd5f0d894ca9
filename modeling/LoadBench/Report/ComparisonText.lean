import LoadBench.Report.Figures
import LoadBench.Summary.Comparison

/-!
# Comparisons in text

* `Report.comparisonRows`: the rated changes, in the order of the table.
* `Report.comparison`: the text report on a comparison.
-/

namespace LoadBench.Report

open Text (padStart padEnd)

/-- A change in percent, with its sign. -/
def signedPercent (change : Float) : String :=
  (if 0.0 ≤ change then "+" else "") ++ fixed 1 change ++ "%"

/-- A row of the table: what changed, by how much, and how that is rated. -/
structure ChangeRow where
  metric : String
  change : String
  rating : Rating

/-- The rated changes, in the order of the table. -/
def comparisonRows (c : Comparison) : List ChangeRow :=
  [⟨"Success Rate", cell 9 1 c.successPoints ++ "pt", .ofSuccess c.successPoints⟩,
    ⟨"Avg Response", padStart 10 (signedPercent c.averageResponseChange),
      .ofLatency c.averageResponseChange⟩,
    ⟨"p95 Latency", padStart 10 (signedPercent c.p95Change), .ofLatency c.p95Change⟩,
    ⟨"Throughput", padStart 10 (signedPercent c.throughputChange),
      .ofThroughput c.throughputChange⟩]

/-- The text of a row. -/
def ChangeRow.line (r : ChangeRow) : String :=
  tableRow [padEnd 14 r.metric, r.change, padStart 10 r.rating.label]

/-- The lines of the report on a comparison. -/
def comparisonLines (c : Comparison) : List String :=
  ["COMPARISON: " ++ c.candidate.name ++ " vs " ++ c.baseline.name, rule, "",
    "┌────────────────┬────────────┬────────────┐",
    "│ Metric         │ Change     │ Status     │",
    "├────────────────┼────────────┼────────────┤"]
    ++ (comparisonRows c).map ChangeRow.line
    ++ ["└────────────────┴────────────┴────────────┘", "",
      "Overall: " ++ c.verdict.symbol ++ " " ++ c.verdict.label]

/-- The report on a comparison. -/
def comparison (c : Comparison) : String := Text.unlines (comparisonLines c)

end LoadBench.Report
