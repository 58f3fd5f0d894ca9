import LoadBench.Measure.CallResult

/-!
# Errors of a run

Failures counted by their messages; those without a message are counted as `Unknown`.

* `Histogram.count`, `Histogram.add`: counts under ascending keys.
* `ErrorSummary.ofResults`: the failures of some results; there is none if all succeeded.
-/

namespace LoadBench

/-- Counts under keys, the keys ascending. -/
abbrev Histogram := List (String × Nat)

namespace Histogram

/-- The count under a key; nothing counted is zero. -/
def count (h : Histogram) (key : String) : Nat := (h.lookup key).getD 0

/-- Counts a key once more. -/
def add (key : String) : Histogram → Histogram
  | [] => [(key, 1)]
  | (k, n) :: rest =>
    if key < k then (key, 1) :: (k, n) :: rest
    else if key == k then (k, n + 1) :: rest
    else (k, n) :: add key rest

/-- The sum of all counts. -/
def total (h : Histogram) : Nat := Counter.total (h.map Prod.snd)

/-- The histogram of some keys. -/
def ofKeys (keys : List String) : Histogram := keys.foldl (fun h k => add k h) []

end Histogram

/-- The failures among some results. -/
structure ErrorSummary where
  count : Nat
  rate : Float
  types : Histogram
deriving DecidableEq

namespace ErrorSummary

/-- The message that a failure is counted under. -/
def key (message : String) : String := if message.isEmpty then "Unknown" else message

/-- The messages of the failures among some results, as they are counted. -/
def keys (results : List CallResult) : List String :=
  results.filterMap fun r => r.failure?.map fun f => key f.2

/-- The summary of the failures, if there are any. -/
def ofResults (results : List CallResult) : Option ErrorSummary :=
  let types := Histogram.ofKeys (keys results)
  let count := types.total
  if 0 < count then some ⟨count, Statistics.countRatio count results.length, types⟩ else none

/-- The written form. -/
def data (e : ErrorSummary) : Data :=
  .record [("count", .natural e.count), ("rate", .real e.rate),
    ("error_types", .record (e.types.map fun t => (t.1, .natural t.2)))]

open Source in
/-- Reads a summary. -/
def read? [Source δ] : δ → Option ErrorSummary :=
  record do
    let count ← required "count" Source.count
    let rate ← required "rate" real
    let types ← required "error_types" (pairsOf some Source.count)
    return { count, rate, types }

end ErrorSummary

end LoadBench
