import LoadBench.Plan.Call

/-!
# Endpoints of the benchmark service

The service offers the same work behind different ways of doing it: a handler that blocks or one
that does not, waiting that blocks or does not, and database sessions of either kind.

* `Suite.endpoints`: all of them.
* `Suite.delayCycle`: the delays that suites of ten calls ask for.
-/

namespace LoadBench.Suite

/-- A blocking handler. -/
def sync : Endpoint := ⟨"sync-test", "Sync API", []⟩

/-- A handler that does not block. -/
def async : Endpoint := ⟨"async-test", "Async API", []⟩

/-- A blocking handler that waits. -/
def syncDelay : Endpoint := ⟨"sync-test-with-wait", "Sync wait API", ["timeout"]⟩

/-- A handler that does not block and waits. -/
def asyncDelay : Endpoint := ⟨"async-test-with-await", "Async wait API", ["timeout"]⟩

/-- Neither the handler nor its wait blocks. -/
def asyncWait : Endpoint :=
  ⟨"async-test-with-await-with-async", "Async method + async wait", ["timeout"]⟩

/-- The wait blocks a handler that would not. -/
def asyncBlockingWait : Endpoint :=
  ⟨"async-test-with-await-with-sync", "Async method + sync wait", ["timeout"]⟩

/-- Handler and wait block. -/
def syncWait : Endpoint := ⟨"sync-test-with-await", "Sync method + sync wait", ["timeout"]⟩

/-- A blocking handler on a blocking session. -/
def syncSession : Endpoint :=
  ⟨"sync-test-with-sync-db-session", "Sync method + sync DB session", ["timeout"]⟩

/-- A handler that does not block on a session that does. -/
def asyncBlockingSession : Endpoint :=
  ⟨"async-test-with-async-db-session-with-sync", "Async method + sync DB session", ["timeout"]⟩

/-- A handler and a session that do not block. -/
def asyncSession : Endpoint :=
  ⟨"async-test-with-async-db-session", "Async method + async DB session", ["timeout"]⟩

/-- Several queries on a blocking session. -/
def syncQueries : Endpoint :=
  ⟨"sync-test-with-sync-db-session-multiple-queries",
    "Sync method + sync DB session (multiple queries)", ["query_count"]⟩

/-- Several queries on a session that does not block. -/
def asyncQueries : Endpoint :=
  ⟨"async-test-with-async-db-session-multiple-queries",
    "Async method + async DB session (multiple queries)", ["query_count"]⟩

/-- Every endpoint of the service. -/
def endpoints : List Endpoint :=
  [sync, async, syncDelay, asyncDelay, asyncWait, asyncBlockingWait, syncWait, syncSession,
    asyncBlockingSession, asyncSession, syncQueries, asyncQueries]

/-- The delays, in seconds, that suites of ten calls ask for one after the other. -/
def delayCycle : List Float := [1.0, 2.0, 3.0, 2.0, 1.0, 3.0, 2.0, 1.0, 3.0, 2.0]

end LoadBench.Suite
