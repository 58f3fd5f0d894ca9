import LoadBench.Summary.LoadReport
import LoadBench.Summary.ScenarioReport

/-!
# Comparisons of runs

A candidate run is measured against a baseline by four headline figures each.

* `Snapshot.ofScenario`, `Snapshot.ofLoad`: the headline figures of a run.
* `Comparison.of`: the changes and the verdict; a loss beyond the tolerances outweighs any gain.
* `Rating.ofSuccess`, `Rating.ofLatency`, `Rating.ofThroughput`: one change on its own.
-/

namespace LoadBench

/-- The headline figures of a run. -/
structure Snapshot where
  name : String
  successRate : Float
  averageResponseMs : Float
  p95 : Float
  throughput : Float
deriving DecidableEq

namespace Snapshot

/-- The headline figures of a scenario run. -/
def ofScenario (r : ScenarioReport) : Snapshot where
  name := r.scenarioName
  successRate := r.successRate
  averageResponseMs := r.averageRequestMs
  p95 := r.latency.p95
  throughput := r.analysis.throughput

/-- The headline figures of a load run. -/
def ofLoad (r : LoadReport) : Snapshot where
  name := r.scenarioName
  successRate := r.successRate
  averageResponseMs := r.averageResponseMs
  p95 := r.latency.p95
  throughput := r.throughput

/-- The written form. -/
def data (s : Snapshot) : Data :=
  .record [("name", .text s.name), ("success_rate", .real s.successRate),
    ("average_response_ms", .real s.averageResponseMs), ("p95_ms", .real s.p95),
    ("throughput", .real s.throughput)]

open Source in
/-- Reads the figures, the numbers by a reader of their own. -/
def readWith? [Source δ] (number : δ → Option Float) : δ → Option Snapshot :=
  record do
    let name ← required "name" text
    let successRate ← required "success_rate" number
    let averageResponseMs ← required "average_response_ms" number
    let p95 ← required "p95_ms" number
    let throughput ← required "throughput" number
    return { name, successRate, averageResponseMs, p95, throughput }

/-- Reads the figures. -/
def read? [Source δ] : δ → Option Snapshot := readWith? Source.real

end Snapshot

/-! ## Verdicts -/

/-- How a candidate stands against a baseline. -/
inductive Verdict
  | improved
  | unchanged
  | regressed
deriving DecidableEq, Repr

namespace Verdict

/-- The name in documents. -/
def name : Verdict → String
  | improved => "Improved"
  | unchanged => "Unchanged"
  | regressed => "Regressed"

/-- The verdict of a name. -/
def named? (s : String) : Option Verdict :=
  [improved, unchanged, regressed].find? (·.name == s)

/-- The sign in reports. -/
def symbol : Verdict → String
  | improved => "↑"
  | unchanged => "≈"
  | regressed => "↓"

/-- The word in reports. -/
def label : Verdict → String
  | improved => "IMPROVED"
  | unchanged => "UNCHANGED"
  | regressed => "REGRESSED"

/-- The written form. -/
def data (v : Verdict) : Data := .text v.name

/-- Reads a verdict. -/
def read? [Source δ] : δ → Option Verdict := Source.choice named?

end Verdict

/-! ## Tolerances -/

/-- The change of a time or a throughput, in percent, up to which it counts as the same. -/
def percentTolerance : Float := 5.0

/-- The change of a success rate, in points of a hundred, up to which it counts as the same. -/
def pointTolerance : Float := 1.0

/-- How one change is rated on its own. -/
inductive Rating
  | better
  | worse
  | same
deriving DecidableEq, Repr

namespace Rating

/-- The rating of a change of the success rate, in points. -/
def ofSuccess (points : Float) : Rating :=
  if pointTolerance < points then better else if points < -pointTolerance then worse else same

/-- The rating of a change of a time, in percent: less is better. -/
def ofLatency (percent : Float) : Rating :=
  if percent < -percentTolerance then better else if percentTolerance < percent then worse else same

/-- The rating of a change of the throughput, in percent. -/
def ofThroughput (percent : Float) : Rating :=
  if percentTolerance < percent then better
  else if percent < -percentTolerance then worse
  else same

/-- The words in reports. -/
def label : Rating → String
  | better => "↑ Better"
  | worse => "↓ Worse"
  | same => "≈ Same"

end Rating

/-! ## Comparisons -/

/-- A candidate run measured against a baseline. -/
structure Comparison where
  baseline : Snapshot
  candidate : Snapshot
  /-- The change of the success rate, in points of a hundred. -/
  successPoints : Float
  averageResponseChange : Float
  p95Change : Float
  throughputChange : Float
  verdict : Verdict
deriving DecidableEq

namespace Comparison

/-- A change in percent of the baseline; zero where there is no such ratio. -/
def percentChange (baseline candidate : Float) : Float :=
  Statistics.guardedRatio (candidate - baseline) baseline * 100.0

/-- The verdict on a change of the success rate and a change of the average time. -/
def judge (successPoints responsePercent : Float) : Verdict :=
  if successPoints < -pointTolerance || percentTolerance < responsePercent then .regressed
  else if pointTolerance < successPoints || responsePercent < -percentTolerance then .improved
  else .unchanged

/-- The comparison of two runs. -/
def of (baseline candidate : Snapshot) : Comparison :=
  let points := (candidate.successRate - baseline.successRate) * 100.0
  let response := percentChange baseline.averageResponseMs candidate.averageResponseMs
  { baseline := baseline
    candidate := candidate
    successPoints := points
    averageResponseChange := response
    p95Change := percentChange baseline.p95 candidate.p95
    throughputChange := percentChange baseline.throughput candidate.throughput
    verdict := judge points response }

/-- The written form. -/
def data (c : Comparison) : Data :=
  .record [("baseline", c.baseline.data), ("candidate", c.candidate.data),
    ("success_rate_delta", .real c.successPoints),
    ("average_response_change", .real c.averageResponseChange), ("p95_change", .real c.p95Change),
    ("throughput_change", .real c.throughputChange), ("verdict", c.verdict.data)]

open Source in
/-- Reads a comparison. -/
def read? [Source δ] : δ → Option Comparison :=
  record do
    let baseline ← required "baseline" Snapshot.read?
    let candidate ← required "candidate" Snapshot.read?
    let successPoints ← required "success_rate_delta" real
    let averageResponseChange ← required "average_response_change" real
    let p95Change ← required "p95_change" real
    let throughputChange ← required "throughput_change" real
    let verdict ← required "verdict" Verdict.read?
    return { baseline, candidate, successPoints, averageResponseChange, p95Change,
             throughputChange, verdict }

end Comparison

end LoadBench
