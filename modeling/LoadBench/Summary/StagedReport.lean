import LoadBench.Summary.LoadReport

/-!
# Reports on staged runs

A staged run is a sequence of load runs of one mix for different numbers of users. Its figures are
drawn from the calls of all stages together.

* `StagingMode`: how the number of users changes.
* `StageRow.ofStage`: the line of a stage in the comparison of stages.
* `StagedReport.ofStages`: the report of a run.
* `LoadOutcome`: a report of either kind.
-/

namespace LoadBench

/-- How the number of users changes from stage to stage. -/
inductive StagingMode
  /-- It is raised step by step. -/
  | gradual
  /-- It comes in waves. -/
  | burst
deriving DecidableEq, Repr

namespace StagingMode

/-- The name in documents. -/
def name : StagingMode → String
  | gradual => "gradual"
  | burst => "burst"

/-- The mode of a name. -/
def named? (s : String) : Option StagingMode := [gradual, burst].find? (·.name == s)

/-- The heading of a report on such a run. -/
def heading : StagingMode → String
  | gradual => "GRADUAL"
  | burst => "BURST"

/-- The written form. -/
def data (m : StagingMode) : Data := .text m.name

/-- Reads a mode. -/
def read? [Source δ] : δ → Option StagingMode := Source.choice named?

end StagingMode

/-- The line of a stage in the comparison of stages. -/
structure StageRow where
  name : String
  userCount : Nat
  averageResponseMs : Float
  p95 : Float
  throughput : Float
  successRate : Float
deriving DecidableEq

namespace StageRow

/-- The line of a stage repeats figures of its report. -/
def ofStage (r : LoadReport) : StageRow where
  name := r.scenarioName
  userCount := r.concurrentUsers
  averageResponseMs := r.averageResponseMs
  p95 := r.latency.p95
  throughput := r.throughput
  successRate := r.successRate

/-- The written form. -/
def data (r : StageRow) : Data :=
  .record [("name", .text r.name), ("user_count", .natural r.userCount),
    ("average_response_ms", .real r.averageResponseMs), ("p95", .real r.p95),
    ("throughput", .real r.throughput), ("success_rate", .real r.successRate)]

open Source in
/-- Reads a line. -/
def read? [Source δ] : δ → Option StageRow :=
  record do
    let name ← required "name" text
    let userCount ← required "user_count" count
    let averageResponseMs ← required "average_response_ms" real
    let p95 ← required "p95" real
    let throughput ← required "throughput" real
    let successRate ← required "success_rate" real
    return { name, userCount, averageResponseMs, p95, throughput, successRate }

end StageRow

/-- What a staged run comes to. -/
structure StagedReport where
  scenarioName : String
  description : String
  mode : StagingMode
  stages : List LoadReport
  totalUsers : Nat
  totalRequests : Nat
  averageResponseMs : Float
  successRate : Float
  latency : Latency
  comparison : List StageRow

namespace StagedReport

/-- The name and the description of a run in some number of stages. -/
def titles (mode : StagingMode) (mixName : String) (stages : Nat) : String × String :=
  match mode with
  | .gradual => ("Gradual ramp-up: " ++ mixName, s!"User count raised in {stages} stages")
  | .burst => ("Burst traffic: " ++ mixName, "Traffic arriving in bursts of varying size")

/-- The report of the stages of a run. -/
def ofStages (mode : StagingMode) (m : Mix) (stages : List LoadReport) : StagedReport :=
  let results := stages.flatMap LoadReport.results
  let times := results.map (·.elapsedMs)
  let (scenarioName, description) := titles mode m.name stages.length
  { scenarioName := scenarioName
    description := description
    mode := mode
    stages := stages
    totalUsers := m.users
    totalRequests := results.length
    averageResponseMs := Statistics.average times
    successRate := LoadBench.successRate results
    latency := .ofSamples times
    comparison := stages.map StageRow.ofStage }

/-- The fields of the written form, the stages written by a function. -/
def entries (r : StagedReport) (stage : LoadReport → Data) : List (String × Data) :=
  [("scenario_name", .text r.scenarioName), ("description", .text r.description),
    ("mode", r.mode.data), ("stages", .list (r.stages.map stage)),
    ("total_users", .natural r.totalUsers), ("total_requests", .natural r.totalRequests),
    ("average_response_ms", .real r.averageResponseMs), ("success_rate", .real r.successRate),
    ("latency", r.latency.data), ("comparison", .list (r.comparison.map StageRow.data))]

/-- The written form. -/
def data (r : StagedReport) : Data := .record (r.entries LoadReport.data)

/-- The written form with the names of the stages in their place. -/
def briefData (r : StagedReport) : Data := .record (r.entries fun s => .text s.scenarioName)

open Source in
/-- The fields of a report. -/
def fields [TreeSource δ] : FieldReader δ StagedReport := do
  let scenarioName ← required "scenario_name" text
  let description ← required "description" text
  let mode ← required "mode" StagingMode.read?
  let stages ← required "stages" (listOf LoadReport.read?)
  let totalUsers ← required "total_users" count
  let totalRequests ← required "total_requests" count
  let averageResponseMs ← required "average_response_ms" real
  let successRate ← required "success_rate" real
  let latency ← required "latency" Latency.read?
  let comparison ← required "comparison" (listOf StageRow.read?)
  return { scenarioName, description, mode, stages, totalUsers, totalRequests, averageResponseMs,
           successRate, latency, comparison }

/-- Reads a report. -/
def read? [TreeSource δ] : δ → Option StagedReport := Source.record fields

end StagedReport

/-- A report on a load run, in one piece or in stages. -/
inductive LoadOutcome
  | single (report : LoadReport)
  | staged (report : StagedReport)

namespace LoadOutcome

/-- Adds the name of the alternative in front of the fields of a record. -/
def withKind (kind : String) : Data → Data
  | .record fields => .record (("kind", .text kind) :: fields)
  | d => d

/-- The written form: the fields of the report, and the alternative under `kind`. -/
def data : LoadOutcome → Data
  | single r => withKind "single" r.data
  | staged r => withKind "staged" r.data

/-- Reads a report of either kind. -/
def read? [TreeSource δ] : δ → Option LoadOutcome :=
  Source.tagged "kind" [("single", single <$> LoadReport.fields),
    ("staged", staged <$> StagedReport.fields)]

end LoadOutcome

end LoadBench
