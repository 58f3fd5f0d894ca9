import LoadBench.Decimal.Numeral
import LoadBench.Measure.CallResult
import LoadBench.Text.Blank

/-!
# Telemetry in payloads

A service may report on its connections in the payload of an answer. What it reports is read
leniently, since counters arrive as numbers or as texts, and becomes samples on a timeline.

* `leadingInt`, `counter`, `lenientReal`: the lenient readings.
* `SessionSample`, `PoolSample`, `QuerySample`: one observation each.
* `Telemetry.record`: the samples of one payload, added to a timeline.
* `Telemetry.ofPayload`: the samples of one payload on their own.
-/

namespace LoadBench

/-! ## Lenient readings -/

/-- The largest signed word. -/
def signedMax : Int := (Nat.pow 2 63 : Nat) - 1

/-- The least signed word. -/
def signedMin : Int := -(Nat.pow 2 63 : Nat)

/-- An integer brought into the range of signed words. -/
def clampSigned (n : Int) : Int := max signedMin (min n signedMax)

/-- The signed number at the start of a text: blanks, one sign, digits. Without digits, and beyond
    the largest signed word, it is zero. -/
def leadingIntOfText (s : String) : Int :=
  let (negative, rest) := Numeral.takeSign (s.toList.dropWhile Text.isBlank)
  let n : Int := natOfDigits (rest.takeWhile Char.isDigit)
  if signedMax < n then 0 else if negative then -n else n

/-- The integer that a number stands for: its fraction is dropped, and it is brought into the range
    of signed words. -/
def integerPart (x : Float) : Int :=
  match Binary64.dyad? x with
  | some d => clampSigned d.trunc
  | none => 0

/-- The integer that a value stands for; a whole number beyond the signed words passes through
    binary64. -/
def leadingInt : Option Data → Int
  | some (.integer n) =>
    if signedMin ≤ n && n ≤ signedMax then n else integerPart (Data.nearestReal n)
  | some (.real x) => integerPart x
  | some (.text s) => leadingIntOfText s
  | _ => 0

/-- The counter that a value stands for; below zero it is zero. -/
def counter (d : Option Data) : Nat := (leadingInt d).toNat

/-- The number itself if it is finite, else zero. -/
def finiteOrZero (x : Float) : Float := if x.isFinite then x else 0.0

/-- The finite number that a value stands for, else zero. -/
def lenientReal : Option Data → Float
  | some (.integer n) => Data.nearestReal n
  | some (.real x) => finiteOrZero x
  | some (.text s) => finiteOrZero ((parseNumber? (Text.trim s)).getD 0.0)
  | _ => 0.0

/-! ## Samples -/

/-- The state of the service's database sessions at one time. -/
structure SessionSample where
  iteration : Nat
  timestamp : Instant
  totalConnections : Nat
  activeConnections : Nat
  threadsConnected : Nat
  threadsRunning : Nat
  maxUsedConnections : Nat
deriving DecidableEq, Repr

namespace SessionSample

/-- The sample that a session report stands for. -/
def ofReport (iteration : Nat) (timestamp : Instant) (report : Data) : SessionSample where
  iteration := iteration
  timestamp := timestamp
  totalConnections := counter (report.field? "total_connections")
  activeConnections := counter (report.field? "active_connections")
  threadsConnected := counter (report.field? "threads_connected")
  threadsRunning := counter (report.field? "threads_running")
  maxUsedConnections := counter (report.field? "max_used_connections")

/-- The written form. -/
def data (s : SessionSample) : Data :=
  .record [("iteration", .natural s.iteration), ("timestamp", s.timestamp.data),
    ("total_connections", .natural s.totalConnections),
    ("active_connections", .natural s.activeConnections),
    ("threads_connected", .natural s.threadsConnected),
    ("threads_running", .natural s.threadsRunning),
    ("max_used_connections", .natural s.maxUsedConnections)]

open Source in
/-- Reads a sample. -/
def read? [Source δ] : δ → Option SessionSample :=
  record do
    let iteration ← required "iteration" count
    let timestamp ← required "timestamp" Instant.read?
    let totalConnections ← required "total_connections" count
    let activeConnections ← required "active_connections" count
    let threadsConnected ← required "threads_connected" count
    let threadsRunning ← required "threads_running" count
    let maxUsedConnections ← required "max_used_connections" count
    return { iteration, timestamp, totalConnections, activeConnections, threadsConnected,
             threadsRunning, maxUsedConnections }

end SessionSample

/-- The state of the service's connection pool at one time. -/
structure PoolSample where
  iteration : Nat
  timestamp : Instant
  maxConnections : Nat
  currentConnections : Nat
  availableConnections : Nat
  waitTimeout : Nat
deriving DecidableEq, Repr

namespace PoolSample

/-- The sample that a pool report stands for. -/
def ofReport (iteration : Nat) (timestamp : Instant) (report : Data) : PoolSample where
  iteration := iteration
  timestamp := timestamp
  maxConnections := counter (report.field? "max_connections")
  currentConnections := counter (report.field? "current_connections")
  availableConnections := counter (report.field? "available_connections")
  waitTimeout := counter (report.field? "wait_timeout")

/-- The written form. -/
def data (s : PoolSample) : Data :=
  .record [("iteration", .natural s.iteration), ("timestamp", s.timestamp.data),
    ("max_connections", .natural s.maxConnections),
    ("current_connections", .natural s.currentConnections),
    ("available_connections", .natural s.availableConnections),
    ("wait_timeout", .natural s.waitTimeout)]

open Source in
/-- Reads a sample. -/
def read? [Source δ] : δ → Option PoolSample :=
  record do
    let iteration ← required "iteration" count
    let timestamp ← required "timestamp" Instant.read?
    let maxConnections ← required "max_connections" count
    let currentConnections ← required "current_connections" count
    let availableConnections ← required "available_connections" count
    let waitTimeout ← required "wait_timeout" count
    return { iteration, timestamp, maxConnections, currentConnections, availableConnections,
             waitTimeout }

end PoolSample

/-- A query that the service ran: the delay asked for and the time it took, in seconds. -/
structure QuerySample where
  iteration : Nat
  delaySeconds : Float
  actualSeconds : Float
deriving DecidableEq

namespace QuerySample

/-- The sample that an entry of the query list stands for. -/
def ofReport (iteration : Nat) (entry : Data) : QuerySample where
  iteration := iteration
  delaySeconds := lenientReal (entry.field? "delay_seconds")
  actualSeconds := lenientReal (entry.field? "actual_duration_seconds")

/-- The written form. -/
def data (s : QuerySample) : Data :=
  .record [("iteration", .natural s.iteration), ("delay_seconds", .real s.delaySeconds),
    ("actual_duration_seconds", .real s.actualSeconds)]

open Source in
/-- Reads a sample. -/
def read? [Source δ] : δ → Option QuerySample :=
  record do
    let iteration ← required "iteration" count
    let delaySeconds ← required "delay_seconds" real
    let actualSeconds ← required "actual_duration_seconds" real
    return { iteration, delaySeconds, actualSeconds }

end QuerySample

/-! ## Timelines -/

/-- The samples of a run in the order in which they were recorded. -/
structure Telemetry where
  sessions : List SessionSample
  pools : List PoolSample
  queries : List QuerySample
deriving DecidableEq

namespace Telemetry

/-- A timeline without samples. -/
def empty : Telemetry := ⟨[], [], []⟩

/-- Nothing was recorded. -/
def isEmpty (t : Telemetry) : Bool := t.sessions.isEmpty && t.pools.isEmpty && t.queries.isEmpty

/-- One timeline after another. -/
def append (t u : Telemetry) : Telemetry where
  sessions := t.sessions ++ u.sessions
  pools := t.pools ++ u.pools
  queries := t.queries ++ u.queries

instance : Append Telemetry := ⟨append⟩

/-- A report of the payload, if it is a record. -/
def report? (payload : Data) (name : String) : Option Data := do
  (← (← payload.field? "data").field? name) |> some |>.filter Data.isRecord

/-- The samples of one payload: one of the sessions and one of the pool if their reports are
    records, and one for every entry of the query list. -/
def ofPayload (iteration : Nat) (timestamp : Instant) (payload : Data) : Telemetry where
  sessions := ((report? payload "session_info").map (.ofReport iteration timestamp)).toList
  pools := ((report? payload "pool_info").map (.ofReport iteration timestamp)).toList
  queries :=
    let entries := ((payload.field? "data").bind (·.field? "query_executions")).bind Data.items?
    (entries.getD []).map (.ofReport iteration)

/-- Records a payload at the end of a timeline. -/
def record (t : Telemetry) (iteration : Nat) (timestamp : Instant) (payload : Data) : Telemetry :=
  t ++ ofPayload iteration timestamp payload

/-- The written form. -/
def data (t : Telemetry) : Data :=
  .record [("sessions", .list (t.sessions.map SessionSample.data)),
    ("pools", .list (t.pools.map PoolSample.data)),
    ("queries", .list (t.queries.map QuerySample.data))]

open Source in
/-- Reads a timeline. -/
def read? [Source δ] : δ → Option Telemetry :=
  Source.record do
    let sessions ← required "sessions" (listOf SessionSample.read?)
    let pools ← required "pools" (listOf PoolSample.read?)
    let queries ← required "queries" (listOf QuerySample.read?)
    return { sessions, pools, queries }

end Telemetry

end LoadBench
