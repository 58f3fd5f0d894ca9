import LoadBench.Measure.Errors
import LoadBench.Plan.Mix

/-!
# Reports on load runs

What the walks of simulated users come to. The users are brought into the order of their indices
first, and every figure is drawn from them in that order.

* `PageVisit`, `UserWalk`: one visit of a page, and all visits of one user.
* `PageTimeline.ofVisits`: the times of each page, the pages in the order of their first visit.
* `ComplexityProfile.ofResults`: latency and share of each complexity.
* `LoadReport.ofWalks`: the report of a run.
-/

namespace LoadBench

open Statistics (average guardedRatio countRatio)

/-! ## Visits and walks -/

/-- One visit of a page. -/
structure PageVisit where
  pageName : String
  totalTimeMs : Float
  results : List CallResult
  totalRequests : Nat
  successRate : Float
  averageResponseMs : Float
  failed : Bool

namespace PageVisit

/-- A visit whose calls were joined. -/
def completed (pageName : String) (totalTimeMs : Float) (results : List CallResult) :
    PageVisit where
  pageName := pageName
  totalTimeMs := totalTimeMs
  results := results
  totalRequests := results.length
  successRate := LoadBench.successRate results
  averageResponseMs := average (results.map (·.elapsedMs))
  failed := false

/-- A visit whose calls could not be joined. -/
def lost (pageName : String) (totalTimeMs : Float) : PageVisit where
  pageName := pageName
  totalTimeMs := totalTimeMs
  results := []
  totalRequests := 0
  successRate := 0.0
  averageResponseMs := 0.0
  failed := true

/-- The written form. -/
def data (v : PageVisit) : Data :=
  .record [("page_name", .text v.pageName), ("total_time_ms", .real v.totalTimeMs),
    ("requests", .list (v.results.map CallResult.data)),
    ("total_requests", .natural v.totalRequests), ("success_rate", .real v.successRate),
    ("average_response_ms", .real v.averageResponseMs), ("failed", .flag v.failed)]

open Source in
/-- Reads a visit. -/
def read? [TreeSource δ] : δ → Option PageVisit :=
  record do
    let pageName ← required "page_name" text
    let totalTimeMs ← required "total_time_ms" real
    let results ← required "requests" (listOf CallResult.read?)
    let totalRequests ← required "total_requests" count
    let successRate ← required "success_rate" real
    let averageResponseMs ← required "average_response_ms" real
    let failed ← required "failed" flag
    return { pageName, totalTimeMs, results, totalRequests, successRate, averageResponseMs,
             failed }

end PageVisit

/-- The walk of one user over the pages of an action. -/
structure UserWalk where
  userIndex : Nat
  actionName : String
  visits : List PageVisit
  totalTimeMs : Float
  totalRequests : Nat
  successRate : Float
  averageResponseMs : Float
  failed : Bool

namespace UserWalk

/-- A walk that came to its end. -/
def ofVisits (userIndex : Nat) (actionName : String) (visits : List PageVisit) : UserWalk :=
  let results := visits.flatMap (·.results)
  { userIndex := userIndex
    actionName := actionName
    visits := visits
    totalTimeMs := Statistics.sum (visits.map (·.totalTimeMs))
    totalRequests := results.length
    successRate := LoadBench.successRate results
    averageResponseMs := average (results.map (·.elapsedMs))
    failed := false }

/-- A user who was lost on the way. -/
def lost (userIndex : Nat) (actionName : String) : UserWalk where
  userIndex := userIndex
  actionName := actionName
  visits := []
  totalTimeMs := 0.0
  totalRequests := 0
  successRate := 0.0
  averageResponseMs := 0.0
  failed := true

/-- The results of a walk, in the order of its visits. -/
def results (w : UserWalk) : List CallResult := w.visits.flatMap (·.results)

/-- The written form. -/
def data (w : UserWalk) : Data :=
  .record [("user_index", .natural w.userIndex), ("action_name", .text w.actionName),
    ("pages", .list (w.visits.map PageVisit.data)), ("total_time_ms", .real w.totalTimeMs),
    ("total_requests", .natural w.totalRequests), ("success_rate", .real w.successRate),
    ("average_response_ms", .real w.averageResponseMs), ("failed", .flag w.failed)]

open Source in
/-- Reads a walk. -/
def read? [TreeSource δ] : δ → Option UserWalk :=
  record do
    let userIndex ← required "user_index" count
    let actionName ← required "action_name" text
    let visits ← required "pages" (listOf PageVisit.read?)
    let totalTimeMs ← required "total_time_ms" real
    let totalRequests ← required "total_requests" count
    let successRate ← required "success_rate" real
    let averageResponseMs ← required "average_response_ms" real
    let failed ← defaulted "failed" false flag
    return { userIndex, actionName, visits, totalTimeMs, totalRequests, successRate,
             averageResponseMs, failed }

end UserWalk

/-! ## Pages -/

/-- The visits of one page over a run. -/
structure PageTimeline where
  name : String
  times : List Float
  average : Float
  least : Float
  greatest : Float
deriving DecidableEq

namespace PageTimeline

/-- The timeline of some visit times. -/
def ofTimes (name : String) (times : List Float) : PageTimeline where
  name := name
  times := times
  average := Statistics.average times
  least := Statistics.least times
  greatest := Statistics.greatest times

/-- The times of the visits of one page, in the order of the visits. -/
def timesOf (visits : List PageVisit) (name : String) : List Float :=
  (visits.filter (·.pageName == name)).map (·.totalTimeMs)

/-- One timeline for every page, the pages in the order of their first visit. -/
def ofVisits (visits : List PageVisit) : List PageTimeline :=
  (visits.map (·.pageName)).eraseDups.map fun name => ofTimes name (timesOf visits name)

/-- The written form. -/
def data (t : PageTimeline) : Data :=
  .record [("name", .text t.name), ("times", .list (t.times.map .real)),
    ("average", .real t.average), ("min", .real t.least), ("max", .real t.greatest)]

open Source in
/-- Reads a timeline. -/
def read? [Source δ] : δ → Option PageTimeline :=
  record do
    let name ← required "name" text
    let times ← required "times" (listOf real)
    let average ← required "average" real
    let least ← required "min" real
    let greatest ← required "max" real
    return { name, times, average, least, greatest }

end PageTimeline

/-- Figures under ascending names. -/
def sortedFigures (figures : List (String × Float)) : List (String × Float) :=
  figures.mergeSort fun a b => a.1 ≤ b.1

/-! ## Complexity -/

/-- A figure for some of the complexities. -/
structure ByComplexity where
  low : Option Float
  medium : Option Float
  high : Option Float
deriving DecidableEq

namespace ByComplexity

/-- The figure of a complexity. -/
def get? (b : ByComplexity) : Complexity → Option Float
  | .low => b.low
  | .medium => b.medium
  | .high => b.high

/-- The figures that a function gives. -/
def tabulate (f : Complexity → Option Float) : ByComplexity := ⟨f .low, f .medium, f .high⟩

/-- The figures there are, lightest first. -/
def entries (b : ByComplexity) : List (Complexity × Float) :=
  Complexity.all.filterMap fun c => (b.get? c).map (c, ·)

/-- The written form. -/
def data (b : ByComplexity) : Data := .record (b.entries.map fun (c, x) => (c.name, .real x))

/-- Reads the figures. -/
def read? [Source δ] (d : δ) : Option ByComplexity := do
  let entries ← Source.pairsOf Complexity.named? Source.real d
  return tabulate fun c => entries.lookup c

end ByComplexity

/-- Latency and share of the results by complexity. -/
structure ComplexityProfile where
  averageTimes : ByComplexity
  distribution : ByComplexity
deriving DecidableEq

namespace ComplexityProfile

/-- The latencies of the results of a complexity. -/
def timesOf (results : List CallResult) (c : Complexity) : List Float :=
  (results.filter (·.complexity == some c)).map (·.elapsedMs)

/-- The profile of some results: averages where there are any, and all three shares. -/
def ofResults (results : List CallResult) : ComplexityProfile where
  averageTimes := .tabulate fun c =>
    let times := timesOf results c
    if times.isEmpty then none else some (average times)
  distribution := .tabulate fun c => some (countRatio (timesOf results c).length results.length)

/-- The written form. -/
def data (p : ComplexityProfile) : Data :=
  .record [("average_times", p.averageTimes.data), ("distribution", p.distribution.data)]

open Source in
/-- Reads a profile. -/
def read? [Source δ] : δ → Option ComplexityProfile :=
  record do
    let averageTimes ← required "average_times" ByComplexity.read?
    let distribution ← required "distribution" ByComplexity.read?
    return { averageTimes, distribution }

end ComplexityProfile

/-! ## Reports -/

/-- What a load run comes to. -/
structure LoadReport where
  scenarioName : String
  description : String
  /-- The number of users asked for. -/
  nominalUsers : Nat
  /-- The number of users there were. -/
  concurrentUsers : Nat
  failedUsers : Nat
  totalTimeMs : Float
  totalRequests : Nat
  successRate : Float
  failureRate : Float
  averageResponseMs : Float
  leastResponseMs : Float
  greatestResponseMs : Float
  latency : Latency
  averagePageLoadMs : List (String × Float)
  averagePageLoadTime : Float
  pageTimelines : List PageTimeline
  complexity : ComplexityProfile
  throughput : Float
  errors : Option ErrorSummary
  walks : List UserWalk

namespace LoadReport

/-- The results of a run, user after user. -/
def results (r : LoadReport) : List CallResult := r.walks.flatMap UserWalk.results

/-- The walks in the order of their users' indices; of equal indices the order stays. -/
def inOrder (walks : List UserWalk) : List UserWalk :=
  walks.mergeSort fun a b => a.userIndex ≤ b.userIndex

/-- The report of the walks of a mix, which took some time in all. -/
def ofWalks (m : Mix) (walks : List UserWalk) (totalTimeMs : Float) : LoadReport :=
  let walks := inOrder walks
  let results := walks.flatMap UserWalk.results
  let times := results.map (·.elapsedMs)
  let total := Binary64.ofCount results.length
  let successful := Binary64.ofCount (successCount results)
  let timelines := PageTimeline.ofVisits (walks.flatMap (·.visits))
  { scenarioName := m.name
    description := m.description
    nominalUsers := m.users
    concurrentUsers := walks.length
    failedUsers := walks.countP (·.failed)
    totalTimeMs := totalTimeMs
    totalRequests := results.length
    successRate := guardedRatio successful total
    failureRate := guardedRatio (total - successful) total
    averageResponseMs := average times
    leastResponseMs := Statistics.least times
    greatestResponseMs := Statistics.greatest times
    latency := .ofSamples times
    averagePageLoadMs := sortedFigures (timelines.map fun t => (t.name, t.average))
    averagePageLoadTime := average (timelines.flatMap (·.times))
    pageTimelines := timelines
    complexity := .ofResults results
    throughput := guardedRatio total (totalTimeMs / 1000.0)
    errors := ErrorSummary.ofResults results
    walks := walks }

/-- The written form, the walks written by a function. -/
def data (r : LoadReport) : Data :=
  .record [("scenario_name", .text r.scenarioName), ("description", .text r.description),
    ("nominal_users", .natural r.nominalUsers), ("concurrent_users", .natural r.concurrentUsers),
    ("failed_users", .natural r.failedUsers), ("total_time_ms", .real r.totalTimeMs),
    ("total_requests", .natural r.totalRequests), ("success_rate", .real r.successRate),
    ("failure_rate", .real r.failureRate), ("average_response_ms", .real r.averageResponseMs),
    ("min_response_ms", .real r.leastResponseMs), ("max_response_ms", .real r.greatestResponseMs),
    ("latency", r.latency.data),
    ("average_page_load_ms", .record (r.averagePageLoadMs.map fun (k, x) => (k, .real x))),
    ("average_page_load_time", .real r.averagePageLoadTime),
    ("page_timelines", .list (r.pageTimelines.map PageTimeline.data)),
    ("complexity", r.complexity.data), ("throughput", .real r.throughput),
    ("errors", .optional ErrorSummary.data r.errors),
    ("users", .list (r.walks.map UserWalk.data))]

open Source in
/-- The fields of a report. -/
def fields [TreeSource δ] : FieldReader δ LoadReport := do
  let scenarioName ← required "scenario_name" text
  let description ← required "description" text
  let nominalUsers ← required "nominal_users" count
  let concurrentUsers ← required "concurrent_users" count
  let failedUsers ← defaulted "failed_users" 0 count
  let totalTimeMs ← required "total_time_ms" real
  let totalRequests ← required "total_requests" count
  let successRate ← required "success_rate" real
  let failureRate ← required "failure_rate" real
  let averageResponseMs ← required "average_response_ms" real
  let leastResponseMs ← required "min_response_ms" real
  let greatestResponseMs ← required "max_response_ms" real
  let latency ← required "latency" Latency.read?
  let averagePageLoadMs ← required "average_page_load_ms" (pairsOf some real)
  let averagePageLoadTime ← required "average_page_load_time" real
  let pageTimelines ← required "page_timelines" (listOf PageTimeline.read?)
  let complexity ← required "complexity" ComplexityProfile.read?
  let throughput ← required "throughput" real
  let errors ← optionalNamed "errors" ErrorSummary.read?
  let walks ← required "users" (listOf UserWalk.read?)
  return { scenarioName, description, nominalUsers, concurrentUsers, failedUsers, totalTimeMs,
           totalRequests, successRate, failureRate, averageResponseMs, leastResponseMs,
           greatestResponseMs, latency, averagePageLoadMs, averagePageLoadTime, pageTimelines,
           complexity, throughput, errors, walks }

/-- Reads a report. -/
def read? [TreeSource δ] : δ → Option LoadReport := Source.record fields

end LoadReport

end LoadBench
