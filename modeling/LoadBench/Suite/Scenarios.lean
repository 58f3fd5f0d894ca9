import LoadBench.Plan.Scenario
import LoadBench.Suite.Endpoints

/-!
# Scenarios of the benchmark service

Suites that put the same load on every way in which the service does its work, so that the reports
can be held side by side.

* `Suite.waitScenarios`: handlers that wait.
* `Suite.sessionScenarios`: handlers on database sessions, from ten calls to hundreds.
-/

namespace LoadBench.Suite

/-- A call that asks for a delay. -/
def timed (endpoint : Endpoint) (delay : Float) : Call :=
  { Call.plain endpoint with timeoutSecs := some delay }

/-- A call that asks for a delay and names what it does. -/
def named (endpoint : Endpoint) (operation : String) (delay : Float) : Call :=
  { timed endpoint delay with operation := some operation }

/-- A scenario with one call for every delay of the cycle. -/
def cycled (name description : String) (endpoint : Endpoint) (iterations : Nat) : Scenario :=
  { Scenario.new name description with
    calls := delayCycle.map (timed endpoint), iterations := iterations }

/-- A scenario with groups of equal calls. -/
def grouped (name description : String) (iterations : Nat) (groups : List (Nat × Call)) :
    Scenario :=
  groups.foldl (fun s (times, call) => s.addRepeated call times)
    { Scenario.new name description with iterations := iterations }

/-- The same delays for every way of waiting, and then the same large batch. -/
def waitScenarios : List Scenario :=
  [cycled "Scenario 1: async method + async wait (3 iterations)"
      "Async handler awaiting an async sleep" asyncWait 3,
    cycled "Scenario 2: async method + sync wait (3 iterations)"
      "Async handler blocking the event loop with a sync sleep" asyncBlockingWait 3,
    cycled "Scenario 3: sync method + sync wait (3 iterations)"
      "Sync handler running on the worker thread pool" syncWait 3,
    grouped "Scenario 4: 50 concurrent requests (async + async)"
      "Large batch against the async wait endpoint" 1 [(50, timed asyncWait 2.0)],
    grouped "Scenario 5: 50 concurrent requests (async + sync)"
      "Large batch against the blocking wait endpoint" 1 [(50, timed asyncBlockingWait 2.0)],
    grouped "Scenario 6: 50 concurrent requests (sync + sync)"
      "Large batch against the sync wait endpoint" 1 [(50, timed syncWait 2.0)]]

/-- Ten calls with the delays of the cycle on each kind of session. -/
def basicScenarios : List Scenario :=
  [cycled "Basic 1: sync method + sync DB session (10 requests)"
      "Ten requests with varying delays on a sync session" syncSession 1,
    cycled "Basic 2: async method + sync DB session (10 requests)"
      "Ten requests with varying delays, async handler on a sync session" asyncBlockingSession 1,
    cycled "Basic 3: async method + async DB session (10 requests)"
      "Ten requests with varying delays on an async session" asyncSession 1]

/-- The two kinds of session that heavier loads are put on. -/
def sessions : List (String × Endpoint) := [("sync", syncSession), ("async", asyncSession)]

/-- A batch of growing groups on one kind of session. -/
def escalating (label : String) (endpoint : Endpoint) : Scenario :=
  grouped ("Advanced: escalating load - " ++ label ++ " DB session")
    "Batches of 10, 30, 50 and 100 requests in one wave" 3
    ([10, 30, 50, 100].map fun times => (times, timed endpoint 1.0))

/-- Loads on both kinds of session at once. -/
def combinedScenarios : List Scenario :=
  [grouped "Advanced: long-lived connections" "Five-second holds on both session types" 2
      [(30, timed syncSession 5.0), (30, timed asyncSession 5.0)],
    grouped "Advanced: mixed load" "Short, medium and long holds on both session types" 2
      (sessions.flatMap fun (_, endpoint) =>
        [(20, timed endpoint 1.0), (15, timed endpoint 3.0), (10, timed endpoint 5.0)]),
    grouped "Advanced: extreme load" "300 simultaneous one-second holds" 1
      [(150, timed syncSession 1.0), (150, timed asyncSession 1.0)]]

/-- Heavy queries in one context. -/
def complexQueries (suffix context : String) (endpoint : Endpoint) : Scenario :=
  grouped ("Realistic 1-" ++ suffix ++ ": complex queries, " ++ context ++ " context")
    "Complex joins and large dataset processing" 2
    [(30, named endpoint "complex_join" 3.0), (20, named endpoint "large_dataset" 5.0)]

/-- Reading, writing and analysis in one context. -/
def mixedWorkload (suffix context : String) (endpoint : Endpoint) : Scenario :=
  grouped ("Realistic 2-" ++ suffix ++ ": mixed workload, " ++ context ++ " context")
    "Reads, writes and analysis queries together" 2
    [(30, named endpoint "read" 1.0), (20, named endpoint "write" 2.0),
      (10, named endpoint "analysis" 5.0)]

/-- Database sessions under basic, growing and realistic loads. -/
def sessionScenarios : List Scenario :=
  basicScenarios ++ sessions.map (fun (label, endpoint) => escalating label endpoint)
    ++ combinedScenarios
    ++ [complexQueries "A" "sync" syncSession, complexQueries "B" "async" asyncSession,
      mixedWorkload "A" "sync" syncSession, mixedWorkload "B" "async" asyncSession]

end LoadBench.Suite
