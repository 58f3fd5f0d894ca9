import LoadBench.Instant
import LoadBench.Measure.Statistics
import LoadBench.Plan.Call

/-!
# Results of calls

What came of a call: the payload of the answer or the kind and text of a failure, and how long it
took.

* `CallResult.succeeded`, `CallResult.payload?`, `CallResult.failure?`: views of the outcome.
* `CallResult.ofCall`: the result of a planned call.
* `successRate`: the share of results that succeeded.
-/

namespace LoadBench

/-- At what point a call failed. -/
inductive FailureKind
  | transport
  | timeout
  | decode
  | status
deriving DecidableEq, Repr

namespace FailureKind

/-- The name in documents. -/
def name : FailureKind → String
  | transport => "transport"
  | timeout => "timeout"
  | decode => "decode"
  | status => "status"

/-- The kind of a name. -/
def named? (s : String) : Option FailureKind :=
  [transport, timeout, decode, status].find? (·.name == s)

/-- The written form. -/
def data (k : FailureKind) : Data := .text k.name

/-- Reads a kind of failure. -/
def read? [Source δ] : δ → Option FailureKind := Source.choice named?

end FailureKind

/-- What came of a call. -/
inductive Outcome
  | success (payload : Data)
  | failure (kind : FailureKind) (message : String)

namespace Outcome

/-- The written form: the alternative is named under `status`. -/
def data : Outcome → Data
  | success payload => .record [("status", .text "success"), ("payload", payload)]
  | failure kind message =>
    .record [("status", .text "failure"), ("kind", kind.data), ("message", .text message)]

open Source in
/-- Reads an outcome. -/
def read? [TreeSource δ] : δ → Option Outcome :=
  tagged "status" [
    ("success", do
      let payload ← required "payload" tree
      return success payload),
    ("failure", do
      let kind ← required "kind" FailureKind.read?
      let message ← required "message" text
      return failure kind message)]

end Outcome

/-- The iteration that a result belongs to. -/
structure IterationTag where
  index : Nat
  elapsedMs : Float
deriving DecidableEq

namespace IterationTag

/-- The written form. -/
def data (t : IterationTag) : Data :=
  .record [("index", .natural t.index), ("elapsed_ms", .real t.elapsedMs)]

open Source in
/-- Reads a tag. -/
def read? [Source δ] : δ → Option IterationTag :=
  record do
    let index ← required "index" count
    let elapsedMs ← required "elapsed_ms" real
    return { index, elapsedMs }

end IterationTag

/-- The result of one call, with what was planned for it. -/
structure CallResult where
  label : String
  path : String
  timeoutSecs : Option Float
  queryCount : Option Nat
  operation : Option String
  complexity : Option Complexity
  iteration : Option IterationTag
  elapsedMs : Float
  completedAt : Instant
  outcome : Outcome

namespace CallResult

/-- The result of a planned call. -/
def ofCall (c : Call) (elapsedMs : Float) (completedAt : Instant) (outcome : Outcome) :
    CallResult where
  label := c.endpoint.label
  path := c.endpoint.path
  timeoutSecs := c.timeoutSecs
  queryCount := c.queryCount
  operation := c.operation
  complexity := c.complexity
  iteration := none
  elapsedMs := elapsedMs
  completedAt := completedAt
  outcome := outcome

/-- The call succeeded. -/
def succeeded (r : CallResult) : Bool :=
  match r.outcome with
  | .success _ => true
  | .failure _ _ => false

/-- The payload of the answer. -/
def payload? (r : CallResult) : Option Data :=
  match r.outcome with
  | .success payload => some payload
  | .failure _ _ => none

/-- The kind and text of the failure. -/
def failure? (r : CallResult) : Option (FailureKind × String) :=
  match r.outcome with
  | .success _ => none
  | .failure kind message => some (kind, message)

/-- The delay that the call asked for in milliseconds; none is no delay. -/
def delayMs (r : CallResult) : Float := r.timeoutSecs.getD 0.0 * 1000.0

/-- The written form; what is absent is left out. -/
def data (r : CallResult) : Data :=
  .record <|
    [("endpoint_label", .text r.label), ("path", .text r.path)]
      ++ Data.optionalField "timeout_secs" .real r.timeoutSecs
      ++ Data.optionalField "query_count" Data.natural r.queryCount
      ++ Data.optionalField "operation" .text r.operation
      ++ Data.optionalField "complexity" Complexity.data r.complexity
      ++ Data.optionalField "iteration" IterationTag.data r.iteration
      ++ [("elapsed_ms", .real r.elapsedMs), ("completed_at", r.completedAt.data),
        ("outcome", r.outcome.data)]

open Source in
/-- Reads a result; one without a time is taken to be from the epoch. -/
def read? [TreeSource δ] : δ → Option CallResult :=
  record do
    let label ← required "endpoint_label" text
    let path ← required "path" text
    let timeoutSecs ← optionalField "timeout_secs" real
    let queryCount ← optionalField "query_count" smallCount
    let operation ← optionalField "operation" text
    let complexity ← optionalField "complexity" Complexity.read?
    let iteration ← optionalField "iteration" IterationTag.read?
    let elapsedMs ← required "elapsed_ms" real
    let completedAt ← defaulted "completed_at" Instant.epoch Instant.read?
    let outcome ← required "outcome" Outcome.read?
    return { label, path, timeoutSecs, queryCount, operation, complexity, iteration, elapsedMs,
             completedAt, outcome }

end CallResult

/-- The number of results that succeeded. -/
def successCount (results : List CallResult) : Nat := results.countP CallResult.succeeded

/-- The share of results that succeeded; zero of none. -/
def successRate (results : List CallResult) : Float :=
  Statistics.countRatio (successCount results) results.length

end LoadBench
