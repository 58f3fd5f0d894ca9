import LoadBench.Measure.Connections
import LoadBench.Measure.Errors
import LoadBench.Plan.Scenario
import LoadBench.RunId

/-!
# Reports on scenario runs

What one run of a scenario comes to. The iterations are the only source of every figure; an
iteration whose batch could not be joined counts with its time and has no results.

* `Iteration.completed`, `Iteration.lost`: an iteration with results, and one without.
* `ScenarioReport.ofIterations`: the report of a run.
* `ScenarioReport.isClean`: nothing failed.
-/

namespace LoadBench

/-! ## Iterations -/

/-- One iteration of a run. -/
structure Iteration where
  index : Nat
  results : List CallResult
  elapsedMs : Float
  finishedAt : Instant
  failed : Bool

namespace Iteration

/-- An iteration whose batch was joined: every result carries the iteration. -/
def completed (index : Nat) (results : List CallResult) (elapsedMs : Float)
    (finishedAt : Instant) : Iteration where
  index := index
  results := results.map fun r => { r with iteration := some ⟨index, elapsedMs⟩ }
  elapsedMs := elapsedMs
  finishedAt := finishedAt
  failed := false

/-- An iteration whose batch could not be joined. -/
def lost (index : Nat) (elapsedMs : Float) (finishedAt : Instant) : Iteration where
  index := index
  results := []
  elapsedMs := elapsedMs
  finishedAt := finishedAt
  failed := true

/-- The samples in the payloads of the iteration, in the order of its results. -/
def telemetry (it : Iteration) : Telemetry :=
  it.results.foldl (fun t r =>
    match r.payload? with
    | some payload => t.record it.index r.completedAt payload
    | none => t) .empty

/-- The written form. -/
def data (it : Iteration) : Data :=
  .record [("index", .natural it.index), ("results", .list (it.results.map CallResult.data)),
    ("elapsed_ms", .real it.elapsedMs), ("finished_at", it.finishedAt.data),
    ("failed", .flag it.failed)]

open Source in
/-- Reads an iteration. -/
def read? [TreeSource δ] : δ → Option Iteration :=
  record do
    let index ← required "index" count
    let results ← required "results" (listOf CallResult.read?)
    let elapsedMs ← required "elapsed_ms" real
    let finishedAt ← required "finished_at" Instant.read?
    let failed ← required "failed" flag
    return { index, results, elapsedMs, finishedAt, failed }

end Iteration

/-! ## Reports -/

/-- What a run of a scenario comes to. -/
structure ScenarioReport where
  runId : RunId
  scenarioName : String
  description : String
  triggersStream : Bool
  iterations : Nat
  totalRequests : Nat
  completedRequests : Nat
  failedIterations : List Nat
  totalElapsedMs : Float
  theoreticalMs : Float
  totalTheoreticalMs : Float
  averageIterationMs : Float
  iterationTimesMs : List Float
  averageRequestMs : Float
  averageTimeoutMs : Float
  successRate : Float
  efficiency : Float
  overheadMs : Float
  latency : Latency
  errors : Option ErrorSummary
  connections : Connections
  telemetry : Telemetry
  analysis : Analysis
  results : List CallResult

namespace ScenarioReport

open Statistics (average guardedRatio)

/-- The report of a run that took some time in all; it has no identifier yet. -/
def ofIterations (s : Scenario) (iterations : List Iteration) (totalElapsedMs : Float) :
    ScenarioReport :=
  let perIteration := guardedRatio totalElapsedMs (Binary64.ofCount s.iterations)
  let telemetry := iterations.foldl (fun t it => t ++ it.telemetry) Telemetry.empty
  let results := iterations.flatMap (·.results)
  let latencies := results.map (·.elapsedMs)
  let times := iterations.map (·.elapsedMs)
  let connections := Connections.ofTelemetry telemetry
  { runId := .zero
    scenarioName := s.name
    description := s.description
    triggersStream := s.triggersStream
    iterations := s.iterations
    totalRequests := s.totalRequests
    completedRequests := results.length
    failedIterations := (iterations.filter (·.failed)).map (·.index)
    totalElapsedMs := totalElapsedMs
    theoreticalMs := s.theoreticalMs
    totalTheoreticalMs := s.theoreticalMs * Binary64.ofCount s.iterations
    averageIterationMs := average times
    iterationTimesMs := times
    averageRequestMs := average latencies
    averageTimeoutMs := average (results.map CallResult.delayMs)
    successRate := LoadBench.successRate results
    efficiency := guardedRatio s.theoreticalMs perIteration * 100.0
    overheadMs := perIteration - s.theoreticalMs
    latency := .ofSamples latencies
    errors := ErrorSummary.ofResults results
    connections := connections
    telemetry := telemetry
    analysis := .ofRun s.totalRequests totalElapsedMs connections
    results := results }

/-- No iteration was lost and no call failed. -/
def isClean (r : ScenarioReport) : Bool := r.failedIterations.isEmpty && r.errors.isNone

/-- The written form. -/
def data (r : ScenarioReport) : Data :=
  .record [("run_id", r.runId.data), ("scenario_name", .text r.scenarioName),
    ("description", .text r.description), ("triggers_stream", .flag r.triggersStream),
    ("iterations", .natural r.iterations), ("total_requests", .natural r.totalRequests),
    ("completed_requests", .natural r.completedRequests),
    ("failed_iterations", .list (r.failedIterations.map .natural)),
    ("total_elapsed_ms", .real r.totalElapsedMs), ("theoretical_elapsed_ms", .real r.theoreticalMs),
    ("total_theoretical_elapsed_ms", .real r.totalTheoreticalMs),
    ("average_iteration_ms", .real r.averageIterationMs),
    ("iteration_times_ms", .list (r.iterationTimesMs.map .real)),
    ("average_request_ms", .real r.averageRequestMs),
    ("average_timeout_ms", .real r.averageTimeoutMs), ("success_rate", .real r.successRate),
    ("efficiency", .real r.efficiency), ("overhead_ms", .real r.overheadMs),
    ("latency", r.latency.data), ("errors", .optional ErrorSummary.data r.errors),
    ("connections", r.connections.data), ("telemetry", r.telemetry.data),
    ("analysis", r.analysis.data), ("results", .list (r.results.map CallResult.data))]

open Source in
/-- Reads a report. -/
def read? [TreeSource δ] : δ → Option ScenarioReport :=
  record do
    let runId ← required "run_id" RunId.read?
    let scenarioName ← required "scenario_name" text
    let description ← required "description" text
    let triggersStream ← required "triggers_stream" flag
    let iterations ← required "iterations" count
    let totalRequests ← required "total_requests" count
    let completedRequests ← required "completed_requests" count
    let failedIterations ← required "failed_iterations" (listOf count)
    let totalElapsedMs ← required "total_elapsed_ms" real
    let theoreticalMs ← required "theoretical_elapsed_ms" real
    let totalTheoreticalMs ← required "total_theoretical_elapsed_ms" real
    let averageIterationMs ← required "average_iteration_ms" real
    let iterationTimesMs ← required "iteration_times_ms" (listOf real)
    let averageRequestMs ← required "average_request_ms" real
    let averageTimeoutMs ← required "average_timeout_ms" real
    let successRate ← required "success_rate" real
    let efficiency ← required "efficiency" real
    let overheadMs ← required "overhead_ms" real
    let latency ← required "latency" Latency.read?
    let errors ← optionalNamed "errors" ErrorSummary.read?
    let connections ← required "connections" Connections.read?
    let telemetry ← required "telemetry" Telemetry.read?
    let analysis ← required "analysis" Analysis.read?
    let results ← required "results" (listOf CallResult.read?)
    return { runId, scenarioName, description, triggersStream, iterations, totalRequests,
             completedRequests, failedIterations, totalElapsedMs, theoreticalMs,
             totalTheoreticalMs, averageIterationMs, iterationTimesMs, averageRequestMs,
             averageTimeoutMs, successRate, efficiency, overheadMs, latency, errors, connections,
             telemetry, analysis, results }

end ScenarioReport

end LoadBench
