import LoadBench.Data.Outline
import LoadBench.Data.Source
import LoadBench.Decimal.Layout

/-!
# Planned calls

An endpoint of the service under test, and a call planned on it.

* `Call.delayMs`: the delay that a call asks the service for.
* `Call.parameters`: the query parameters, present only where the plan has a value.
* `data`, `read?`: the written forms, which undo each other.
-/

namespace LoadBench

/-! ## Endpoints -/

/-- An endpoint of the service: its path, a label for reports, and the parameters it takes. -/
structure Endpoint where
  path : String
  label : String
  params : List String
deriving DecidableEq, Repr

namespace Endpoint

/-- The endpoint takes a parameter of that name. -/
def accepts (e : Endpoint) (name : String) : Bool := e.params.any (· == name)

/-- The written form. -/
def data (e : Endpoint) : Data :=
  .record [("path", .text e.path), ("label", .text e.label), ("params", .list (e.params.map .text))]

open Source in
/-- Reads an endpoint; without `params` it takes none. -/
def read? [Source δ] : δ → Option Endpoint :=
  record do
    let path ← required "path" text
    let label ← required "label" text
    let params ← defaulted "params" [] (listOf text)
    return { path, label, params }

/-- The parts of a written endpoint. -/
def outline : Outline := .ofFields [("params", .list .leaf)] ["path", "label"]

end Endpoint

/-! ## Complexity -/

/-- How heavy a request is for the service. -/
inductive Complexity
  | low
  | medium
  | high
deriving DecidableEq, Repr

namespace Complexity

/-- All of them, lightest first. -/
def all : List Complexity := [low, medium, high]

/-- The name in documents and reports. -/
def name : Complexity → String
  | low => "low"
  | medium => "medium"
  | high => "high"

/-- The complexity of a name. -/
def named? (s : String) : Option Complexity := all.find? (·.name == s)

/-- The written form. -/
def data (c : Complexity) : Data := .text c.name

/-- Reads a complexity. -/
def read? [Source δ] : δ → Option Complexity := Source.choice named?

end Complexity

/-! ## Calls -/

/-- One planned call. -/
structure Call where
  endpoint : Endpoint
  /-- The delay that the service is asked for, in seconds. -/
  timeoutSecs : Option Float
  queryCount : Option Nat
  operation : Option String
  complexity : Option Complexity
deriving DecidableEq

namespace Call

/-- A call without parameters. -/
def plain (endpoint : Endpoint) : Call :=
  { endpoint, timeoutSecs := none, queryCount := none, operation := none, complexity := none }

/-- The delay that the call asks for in milliseconds; none is no delay. -/
def delayMs (c : Call) : Float := c.timeoutSecs.getD 0.0 * 1000.0

/-- The query parameters of the call. -/
def parameters (c : Call) : List (String × String) :=
  (c.timeoutSecs.map fun t => ("timeout", NumberFormat.display.render t)).toList
    ++ (c.queryCount.map fun n => ("query_count", toString n)).toList

/-- The delay is a finite number of seconds and not negative; no delay is fine too. -/
def hasUsableDelay (c : Call) : Bool :=
  match c.timeoutSecs with
  | none => true
  | some t => t.isFinite && !(t < 0.0)

/-- The written form; what is absent is left out. -/
def data (c : Call) : Data :=
  .record <|
    ("endpoint", c.endpoint.data) :: Data.optionalField "timeout_secs" .real c.timeoutSecs
      ++ Data.optionalField "query_count" Data.natural c.queryCount
      ++ Data.optionalField "operation" .text c.operation
      ++ Data.optionalField "complexity" Complexity.data c.complexity

open Source in
/-- Reads a call, the delay by a reader of its own. -/
def readWith? [Source δ] (delay : δ → Option Float) : δ → Option Call :=
  record do
    let endpoint ← required "endpoint" Endpoint.read?
    let timeoutSecs ← optionalField "timeout_secs" delay
    let queryCount ← optionalField "query_count" smallCount
    let operation ← optionalField "operation" text
    let complexity ← optionalField "complexity" Complexity.read?
    return { endpoint, timeoutSecs, queryCount, operation, complexity }

/-- Reads a call. -/
def read? [Source δ] : δ → Option Call := readWith? Source.real

/-- The parts of a written call. -/
def outline : Outline :=
  .ofFields [("endpoint", Endpoint.outline)]
    ["timeout_secs", "query_count", "operation", "complexity"]

end Call

end LoadBench
