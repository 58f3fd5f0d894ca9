import LoadBench.Log.Filter
import LoadBench.Run.ScenarioRun
import LoadBench.Run.Scheduler

/-!
# Notes on runs

What a run says in the log about its course. The notes are drawn from the events of the run; those
on progress and on reports are doubled where progress is traced.

* `Scenario.notes`: the notes on one event of a scenario run.
* `Mix.notes`: the notes on the events of a load run.
* `Operation.mixNotes`, `Operation.stageNotes`, `Operation.customNotes`: the notes on an operation
  of the scheduler.
-/

namespace LoadBench

/-- A note in the log. -/
structure Note where
  level : Level
  target : String
  message : String
  fields : List (String × Data)

namespace Note

/-- A note on scenario runs. -/
def ofScenarioRun (level : Level) (message : String) (fields : List (String × Data)) : Note :=
  ⟨level, "loadscope::scenario", message, fields⟩

/-- A note on load runs. -/
def ofLoadRun (level : Level) (message : String) (fields : List (String × Data)) : Note :=
  ⟨level, "loadscope::load", message, fields⟩

/-- A note of traced progress. -/
def ofProgress (level : Level) (message : String) (fields : List (String × Data)) : Note :=
  ⟨level, "loadscope::progress", message, fields⟩

/-- The note on a number of calls or users. -/
def counted (completed total : Nat) (name : String) : Note :=
  ofProgress .debug "progress" [("scenario", .text name), ("completed", .natural completed),
    ("total", .natural total)]

end Note

/-! ## Scenario runs -/

/-- The notes on an event of a scenario run. -/
def Scenario.notes (s : Scenario) (isTraced : Bool) : ScenarioEvent → List Note
  | .started =>
    [.ofScenarioRun .info "scenario started" [("scenario", .text s.name),
      ("iterations", .natural s.iterations), ("batch_size", .natural s.batchSize)]]
  | .settled iteration isBroken =>
    let fields : List (String × Data) :=
      [("scenario", .text s.name), ("iteration", .natural iteration)]
    [if isBroken then .ofScenarioRun .error "iteration batch failed to join" fields
      else .ofScenarioRun .debug "iteration settled" fields]
  | .stopped iteration =>
    [.ofScenarioRun .warn "scenario cancelled"
      [("scenario", .text s.name), ("iteration", .natural iteration)]]
  | .completed r =>
    .ofScenarioRun .info "scenario finished"
        [("scenario", .text r.scenarioName), ("success_rate", .real r.successRate)]
      :: if isTraced then
        [.ofProgress .info "scenario complete" [("scenario", .text r.scenarioName),
          ("total_requests", .natural r.totalRequests), ("success_rate", .real r.successRate)]]
      else []
  | .progress completed total name => if isTraced then [.counted completed total name] else []
  | .called .. | .ended .. => []

/-! ## Load runs -/

/-- The note on a change of state. -/
def RunState.note (name : String) (before after : RunState) : Note :=
  .ofLoadRun .debug "run state"
    [("scenario", .text name), ("from", .text before.label), ("to", .text after.label)]

/-- The notes on a mix that starts. -/
def Mix.startNotes (m : Mix) : List Note :=
  let users := m.roster.length
  .ofLoadRun .info "load test started" [("scenario", .text m.name),
      ("nominal_users", .natural m.users), ("users", .natural users)]
    :: if users == m.users then []
    else [.ofLoadRun .debug "weight rounding changed the user count" [("scenario", .text m.name),
      ("nominal", .natural m.users), ("realized", .natural users)]]

/-- The name of a page in the walk of a user. -/
def Mix.pageName (m : Mix) (user page : Nat) : String :=
  (((m.roster[user]?).bind (·.pages[page]?)).map (·.name)).getD ""

/-- The notes on an event of a load run that is in a state. -/
def Mix.eventNotes (m : Mix) (isTraced : Bool) (state : RunState) : LoadEvent → List Note
  | .entered .running => m.startNotes ++ [RunState.note m.name state .running]
  | .entered .cancelled =>
    [.ofLoadRun .warn "load test cancelled" [("scenario", .text m.name)],
      RunState.note m.name state .cancelled]
  | .entered next => [RunState.note m.name state next]
  | .left user page isBroken =>
    let fields : List (String × Data) :=
      [("user", .natural user), ("page", .text (m.pageName user page))]
    [if isBroken then .ofLoadRun .error "page batch failed to join" fields
      else .ofLoadRun .debug "page loaded" fields]
  | .lost _ => [.ofLoadRun .error "user task failed to join" [("scenario", .text m.name)]]
  | .completed r =>
    let fields : List (String × Data) :=
      [("scenario", .text r.scenarioName), ("users", .natural r.concurrentUsers),
        ("total_requests", .natural r.totalRequests), ("success_rate", .real r.successRate)]
    .ofLoadRun .info "load test finished" fields
      :: if isTraced then [.ofProgress .info "load test complete" fields] else []
  | .progress completed total name => if isTraced then [.counted completed total name] else []
  | .called .. | .ended .. => []

/-- The notes on the events of a load run that starts in a state. -/
def Mix.notes (m : Mix) (isTraced : Bool) (state : RunState) : List LoadEvent → List Note
  | [] => []
  | e :: rest =>
    m.eventNotes isTraced state e ++ m.notes isTraced (Scheduler.stateAfter state [e]) rest

/-! ## Operations of the scheduler -/

/-- The note on a stage that is about to run. -/
def StagingMode.note (mode : StagingMode) (m : Mix) : Note :=
  let key := match mode with
    | .gradual => "stage"
    | .burst => "phase"
  .ofLoadRun .info (mode.name ++ " " ++ key) [(key, .text m.name), ("users", .natural m.users)]

/-- The note on a custom test that is about to run. -/
def CustomTest.note (t : CustomTest) : Note :=
  .ofLoadRun .info "custom load test" [("users", .natural t.users),
    ("actions", .natural t.actions.length), ("pattern", .text t.pattern.name)]

/-- The notes on the runs of some mixes one after the other from a place on, each announced by some
    notes. After a run that was refused there is none. -/
def runNotes (announce : Mix → List Note) (isTraced : Bool) (log : List (Nat × LoadEvent))
    (place : Nat) (state : RunState) : List Mix → List Note
  | [] => []
  | m :: rest =>
    let events := (log.filter (·.1 == place)).map (·.2)
    let after := Scheduler.stateAfter state events
    announce m ++ m.notes isTraced state events
      ++ if after == .complete && !events.isEmpty then
        runNotes announce isTraced log (place + 1) after rest
      else []

namespace Operation

/-- The notes on an operation that ran one mix. -/
def mixNotes (o : Operation α) (isTraced : Bool) (state : RunState) (m : Mix) : List Note :=
  runNotes (fun _ => []) isTraced o.log 0 state [m]

/-- The notes on an operation that ran some stages. -/
def stageNotes (o : Operation α) (isTraced : Bool) (state : RunState) (mode : StagingMode)
    (stages : List Mix) : List Note :=
  runNotes (fun m => [mode.note m]) isTraced o.log 0 state stages

/-- The notes on an operation of a scheduler that ran a custom test. -/
def customNotes (o : Operation LoadOutcome) (isTraced : Bool) (s : Scheduler) (t : CustomTest) :
    List Note :=
  if t.actions.isEmpty then []
  else
    t.note :: match t.pattern with
      | .uniform => o.mixNotes isTraced s.state t.mix
      | .gradual => o.stageNotes isTraced s.state .gradual (s.mixes t)
      | .burst => o.stageNotes isTraced s.state .burst (s.mixes t)

end Operation

end LoadBench
