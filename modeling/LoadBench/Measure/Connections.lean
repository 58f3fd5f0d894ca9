import LoadBench.Measure.Telemetry

/-!
# Connections of a run

What the samples of a timeline come to, and how well the service used its connections.

* `SessionSummary.ofSamples`, `PoolSummary.ofSamples`, `QuerySummary.ofSamples`: summaries, which
  exist where there are samples.
* `Connections.ofTelemetry`: the three together.
* `Analysis.ofRun`: ratios of use; a ratio whose samples are missing is zero.
-/

namespace LoadBench

open Binary64 (ofCount)
open Statistics (average guardedRatio)

/-! ## Summaries -/

/-- What the session samples come to. -/
structure SessionSummary where
  averageTotal : Float
  averageActive : Float
  maxThreadsConnected : Nat
  maxThreadsRunning : Nat
  maxUsed : Nat
deriving DecidableEq

namespace SessionSummary

/-- The largest of some counters; zero of none. -/
def largest (ns : List Nat) : Nat := ns.foldl max 0

/-- The summary of some samples. -/
def ofSamples (samples : List SessionSample) : Option SessionSummary :=
  if samples.isEmpty then none
  else
    some {
      averageTotal := average (samples.map fun s => ofCount s.totalConnections)
      averageActive := average (samples.map fun s => ofCount s.activeConnections)
      maxThreadsConnected := largest (samples.map (·.threadsConnected))
      maxThreadsRunning := largest (samples.map (·.threadsRunning))
      maxUsed := largest (samples.map (·.maxUsedConnections)) }

/-- The summary that stands in where there are no samples. -/
def zero : SessionSummary := ⟨0.0, 0.0, 0, 0, 0⟩

/-- The written form. -/
def data (s : SessionSummary) : Data :=
  .record [("average_total_connections", .real s.averageTotal),
    ("average_active_connections", .real s.averageActive),
    ("max_threads_connected", .natural s.maxThreadsConnected),
    ("max_threads_running", .natural s.maxThreadsRunning),
    ("max_used_connections", .natural s.maxUsed)]

open Source in
/-- Reads a summary. -/
def read? [Source δ] : δ → Option SessionSummary :=
  record do
    let averageTotal ← required "average_total_connections" real
    let averageActive ← required "average_active_connections" real
    let maxThreadsConnected ← required "max_threads_connected" count
    let maxThreadsRunning ← required "max_threads_running" count
    let maxUsed ← required "max_used_connections" count
    return { averageTotal, averageActive, maxThreadsConnected, maxThreadsRunning, maxUsed }

end SessionSummary

/-- What the pool samples come to. -/
structure PoolSummary where
  maxConnections : Nat
  averageCurrent : Float
  averageAvailable : Float
  waitTimeout : Nat
deriving DecidableEq

namespace PoolSummary

/-- The summary of some samples; the limits are those of the first one. -/
def ofSamples : List PoolSample → Option PoolSummary
  | [] => none
  | first :: rest =>
    let samples := first :: rest
    some {
      maxConnections := first.maxConnections
      averageCurrent := average (samples.map fun s => ofCount s.currentConnections)
      averageAvailable := average (samples.map fun s => ofCount s.availableConnections)
      waitTimeout := first.waitTimeout }

/-- The written form. -/
def data (s : PoolSummary) : Data :=
  .record [("max_connections", .natural s.maxConnections),
    ("average_current_connections", .real s.averageCurrent),
    ("average_available_connections", .real s.averageAvailable),
    ("wait_timeout", .natural s.waitTimeout)]

open Source in
/-- Reads a summary. -/
def read? [Source δ] : δ → Option PoolSummary :=
  record do
    let maxConnections ← required "max_connections" count
    let averageCurrent ← required "average_current_connections" real
    let averageAvailable ← required "average_available_connections" real
    let waitTimeout ← required "wait_timeout" count
    return { maxConnections, averageCurrent, averageAvailable, waitTimeout }

end PoolSummary

/-- What the query samples come to. -/
structure QuerySummary where
  count : Nat
  averageDelay : Float
  averageActual : Float
  averageOverrun : Float
deriving DecidableEq

namespace QuerySummary

/-- The summary of some samples; a query overruns by what it took beyond its delay. -/
def ofSamples (samples : List QuerySample) : Option QuerySummary :=
  if samples.isEmpty then none
  else
    some {
      count := samples.length
      averageDelay := average (samples.map (·.delaySeconds))
      averageActual := average (samples.map (·.actualSeconds))
      averageOverrun := average (samples.map fun s => s.actualSeconds - s.delaySeconds) }

/-- The written form. -/
def data (s : QuerySummary) : Data :=
  .record [("count", .natural s.count), ("average_delay_seconds", .real s.averageDelay),
    ("average_actual_seconds", .real s.averageActual),
    ("average_overrun_seconds", .real s.averageOverrun)]

open Source in
/-- Reads a summary. -/
def read? [Source δ] : δ → Option QuerySummary :=
  record do
    let count ← required "count" Source.count
    let averageDelay ← required "average_delay_seconds" real
    let averageActual ← required "average_actual_seconds" real
    let averageOverrun ← required "average_overrun_seconds" real
    return { count, averageDelay, averageActual, averageOverrun }

end QuerySummary

/-- The summaries of a timeline; those without samples are missing. -/
structure Connections where
  session : Option SessionSummary
  pool : Option PoolSummary
  queries : Option QuerySummary
deriving DecidableEq

namespace Connections

/-- The summaries of a timeline. -/
def ofTelemetry (t : Telemetry) : Connections where
  session := SessionSummary.ofSamples t.sessions
  pool := PoolSummary.ofSamples t.pools
  queries := QuerySummary.ofSamples t.queries

/-- The written form. -/
def data (c : Connections) : Data :=
  .record [("session", .optional SessionSummary.data c.session),
    ("pool", .optional PoolSummary.data c.pool),
    ("queries", .optional QuerySummary.data c.queries)]

open Source in
/-- Reads the summaries. -/
def read? [Source δ] : δ → Option Connections :=
  record do
    let session ← optionalNamed "session" SessionSummary.read?
    let pool ← optionalNamed "pool" PoolSummary.read?
    let queries ← optionalNamed "queries" QuerySummary.read?
    return { session, pool, queries }

end Connections

/-! ## Analysis -/

/-- How well the service's sessions were used. -/
structure ResourceUse where
  /-- Calls a session. -/
  reuse : Float
  /-- One less the distance of the active sessions from the peak of threads. -/
  stability : Float
deriving DecidableEq

namespace ResourceUse

/-- The written form. -/
def data (u : ResourceUse) : Data :=
  .record [("connection_reuse", .real u.reuse), ("connection_stability", .real u.stability)]

open Source in
/-- Reads the figures. -/
def read? [Source δ] : δ → Option ResourceUse :=
  record do
    let reuse ← required "connection_reuse" real
    let stability ← required "connection_stability" real
    return { reuse, stability }

end ResourceUse

/-- How well the service used its connections. -/
structure Analysis where
  /-- The share of the pool in use. -/
  connectionEfficiency : Float
  /-- The share of the sessions that are active. -/
  connectionUtilization : Float
  /-- Calls a second. -/
  throughput : Float
  /-- Milliseconds a call. -/
  averageResponseTime : Float
  /-- The share of the threads that are running at the peak. -/
  concurrencyImpact : Float
  resources : ResourceUse
deriving DecidableEq

namespace Analysis

/-- The ratios of a run with some number of calls in some time. -/
def ofRun (totalRequests : Nat) (elapsedMs : Float) (c : Connections) : Analysis :=
  let requests := ofCount totalRequests
  let session := c.session.getD .zero
  let threads := ofCount session.maxThreadsConnected
  { connectionEfficiency :=
      match c.pool with
      | some pool =>
        let size := ofCount pool.maxConnections
        guardedRatio (size - pool.averageAvailable) size
      | none => 0.0
    connectionUtilization := guardedRatio session.averageActive session.averageTotal
    throughput := guardedRatio requests (elapsedMs / 1000.0)
    averageResponseTime := guardedRatio elapsedMs requests
    concurrencyImpact := guardedRatio (ofCount session.maxThreadsRunning) threads
    resources := {
      reuse := guardedRatio requests session.averageTotal
      stability :=
        if 0.0 < threads then 1.0 - guardedRatio (threads - session.averageActive).abs threads
        else 0.0 } }

/-- The written form. -/
def data (a : Analysis) : Data :=
  .record [("connection_efficiency", .real a.connectionEfficiency),
    ("connection_utilization", .real a.connectionUtilization), ("throughput", .real a.throughput),
    ("average_response_time", .real a.averageResponseTime),
    ("concurrency_impact", .real a.concurrencyImpact), ("resource_efficiency", a.resources.data)]

open Source in
/-- Reads an analysis. -/
def read? [Source δ] : δ → Option Analysis :=
  record do
    let connectionEfficiency ← required "connection_efficiency" real
    let connectionUtilization ← required "connection_utilization" real
    let throughput ← required "throughput" real
    let averageResponseTime ← required "average_response_time" real
    let concurrencyImpact ← required "concurrency_impact" real
    let resources ← required "resource_efficiency" ResourceUse.read?
    return { connectionEfficiency, connectionUtilization, throughput, averageResponseTime,
             concurrencyImpact, resources }

end Analysis

end LoadBench
