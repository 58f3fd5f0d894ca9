import LoadBench.Decimal.Layout
import LoadBench.Measure.Errors
import LoadBench.Text.Column

/-!
# Figures in reports

The pieces that the text reports share. A report is a list of lines.

* `rule`: the line under a title.
* `milliseconds`, `percent`: figures with their units.
* `latencyLines`, `errorLines`: the table of latencies and the list of errors.
-/

namespace LoadBench.Report

open Text (padStart truncate)

/-- The line under a title. -/
def rule : String := String.ofList (List.replicate 60 '━')

/-- A number with some places, right-aligned. -/
def cell (width places : Nat) (x : Float) : String := padStart width (fixed places x)

/-- A time without places, with its unit. -/
def milliseconds (x : Float) : String := fixed 0 x ++ "ms"

/-- A time in a table: seven characters, unless it is longer. -/
def timeCell (x : Float) : String := cell 5 0 x ++ "ms"

/-- A share in percent. -/
def percent (places : Nat) (share : Float) : String := fixed places (share * 100.0) ++ "%"

/-- The cells of a table row between upright lines. -/
def tableRow (cells : List String) : String := "│ " ++ " │ ".intercalate cells ++ " │"

/-- The table of latencies, with an empty line after it. -/
def latencyLines (l : Latency) : List String :=
  ["Latency:",
    "┌─────────┬─────────┬─────────┬─────────┬─────────┬─────────┐",
    "│ p50     │ p90     │ p95     │ p99     │ mean    │ stddev  │",
    "├─────────┼─────────┼─────────┼─────────┼─────────┼─────────┤",
    tableRow ([l.p50, l.p90, l.p95, l.p99, l.mean, l.deviation].map timeCell),
    "└─────────┴─────────┴─────────┴─────────┴─────────┴─────────┘",
    ""]

/-- The width that messages are cut to. -/
def messageWidth : Nat := 60

/-- The list of errors: a heading, and a line for every message. -/
def errorLines : Option ErrorSummary → List String
  | none => ["Errors: none"]
  | some e =>
    (s!"Errors: {e.count} (" ++ percent 2 e.rate ++ ")")
      :: e.types.map fun (message, count) =>
        "  " ++ padStart 5 (toString count) ++ " × " ++ truncate messageWidth message

end LoadBench.Report
