import LoadBench.Fault
import LoadBench.Measure.Statistics
import LoadBench.Plan.Call

/-!
# Scenarios

A scenario is a batch of calls that is made a number of times, one batch after the other.

* `Scenario.batchSize`, `Scenario.totalRequests`, `Scenario.theoreticalMs`: what it plans.
* `Scenario.validate`: a scenario has iterations, calls, and delays that a service can grant.
* `data`, `read?`: the written forms, which undo each other.
-/

namespace LoadBench

/-- A batch of calls made a number of times. -/
structure Scenario where
  name : String
  description : String
  calls : List Call
  iterations : Nat
  /-- The end of the run is to be announced on the event stream. -/
  triggersStream : Bool
deriving DecidableEq

namespace Scenario

/-- A scenario without calls that is made once. -/
def new (name description : String) : Scenario :=
  { name, description, calls := [], iterations := 1, triggersStream := false }

/-- The scenario with a call added a number of times at its end. -/
def addRepeated (s : Scenario) (call : Call) (times : Nat) : Scenario :=
  { s with calls := s.calls ++ List.replicate times call }

/-- The scenario with a call added at its end. -/
def add (s : Scenario) (call : Call) : Scenario := s.addRepeated call 1

/-- The number of calls in one batch. -/
def batchSize (s : Scenario) : Nat := s.calls.length

/-- The number of calls in all batches, as a number of any size. -/
def totalRequests (s : Scenario) : Nat := s.batchSize * s.iterations

/-- The time that one batch would take if its calls were made one after the other and the service
    added nothing to the delays asked for, in milliseconds. -/
def theoreticalMs (s : Scenario) : Float := Statistics.sum (s.calls.map Call.delayMs)

/-- A scenario has iterations, calls, and only finite delays that are not negative. -/
def validate (s : Scenario) : Except Fault Unit :=
  if s.iterations == 0 then .error (.plan (.noIterations s.name))
  else if s.calls.isEmpty then .error (.plan (.noRequests s.name))
  else
    match s.calls.find? (!·.hasUsableDelay) with
    | some bad => .error (.plan (.timeout s.name bad.endpoint.path))
    | none => .ok ()

/-- The written form. -/
def data (s : Scenario) : Data :=
  .record [("name", .text s.name), ("description", .text s.description),
    ("requests", .list (s.calls.map Call.data)), ("iterations", .natural s.iterations),
    ("triggers_stream", .flag s.triggersStream)]

open Source in
/-- Reads a scenario; by default it is made once, without a description or an announcement. -/
def read? [Source δ] : δ → Option Scenario :=
  record do
    let name ← required "name" text
    let description ← defaulted "description" "" text
    let calls ← required "requests" (listOf Call.read?)
    let iterations ← defaulted "iterations" 1 count
    let triggersStream ← defaulted "triggers_stream" false flag
    return { name, description, calls, iterations, triggersStream }

/-- Reads a catalog: a list of scenarios. -/
def readCatalog? [Source δ] : δ → Option (List Scenario) := Source.listOf read?

/-- The parts of a written scenario. -/
def outline : Outline :=
  .ofFields [("requests", .list Call.outline)]
    ["name", "description", "iterations", "triggers_stream"]

/-- The parts of a written catalog. -/
def catalogOutline : Outline := .list outline

end Scenario

end LoadBench
