import LoadBench.Run.ScenarioRun
import LoadBench.Run.Scheduler

/-!
# Runs one after the other

Scenarios, and the stages of a mix, are run one after the other, each from the state that the one
before it leaves, up to the first that has no report. A scheduler can be asked for one thing after
the other, and can be cancelled in between.

* `succession`: the runs that are made.
* `Scenario.runs`, `Scheduler.stageRuns`: the runs of scenarios, and those of stages.
* `Request`, `Scheduler.serve?`: what a scheduler can be asked for.
* `Session.play?`: what a scheduler is asked for, and what it has shown and run.
-/

namespace LoadBench

/-- Some tasks run one after the other, the first at a place and from a state: the runs that are
    made, up to the first that ends with a fault. -/
def succession {σ τ ρ α : Type} (run : Nat → σ → τ → Option ρ) (result : ρ → Except Fault α)
    (next : ρ → σ) (place : Nat) (state : σ) : List τ → Option (List ρ)
  | [] => some []
  | task :: later => do
    let p ← run place state task
    match result p with
    | .error _ => return [p]
    | .ok _ =>
      let runs ← succession run result next (place + 1) (next p) later
      return p :: runs

/-- The runs of several scenarios. -/
def Scenario.runs (service : Nat → Nat → Nat → CallEnd)
    (pick : Nat → ScenarioRun → List ScenarioMove) (place : Nat) (cancelled : Bool) :
    List Scenario → Option (List (Performed ScenarioEvent ScenarioReport)) :=
  succession (fun place cancelled s => s.perform (service place) cancelled (pick place))
    Performed.result Performed.cancelled place cancelled

/-- The runs of some stages. -/
def Scheduler.stageRuns (sched : Scheduler) (place : Nat) (courses : Nat → Course) :
    List Mix → Option (List (Operation LoadReport)) :=
  succession (fun place sched m => sched.runMix m place (courses place)) Operation.result
    Operation.scheduler place sched

/-! ## Requests -/

/-- What a scheduler can be asked for. -/
inductive Request
  | mix (m : Mix)
  | gradual (m : Mix) (stages : Nat)
  | gradualStandard (m : Mix)
  | burst (m : Mix)
  | custom (t : CustomTest)

/-- The mixes that a request performs, if all goes well; if it is refused or breaks down at once
    there are none. -/
def Request.mixes (sched : Scheduler) : Request → List Mix
  | mix m => [m]
  | gradual m stages => m.ramp stages
  | gradualStandard m => m.ramp sched.settings.rampStages
  | burst m => sched.waves m
  | custom t => if t.actions.isEmpty then [] else sched.mixes t

/-- Performs what is asked for. -/
def Scheduler.serve? (sched : Scheduler) (courses : Nat → Course) :
    Request → Option (Operation LoadOutcome)
  | .mix m => (sched.runMix m 0 (courses 0)).map (·.map .single)
  | .gradual m stages => (sched.runGradual m stages courses).map (·.map .staged)
  | .gradualStandard m => (sched.runGradualStandard m courses).map (·.map .staged)
  | .burst m => (sched.runBurst m courses).map (·.map .staged)
  | .custom t => sched.runCustom t courses

/-! ## Sessions -/

/-- The state that the run comes into. -/
def LoadEvent.entered? : LoadEvent → Option RunState
  | .entered state => some state
  | _ => none

/-- Nothing is going on. -/
def RunState.isAtRest : RunState → Bool
  | idle => true
  | complete => true
  | cancelled => true
  | _ => false

/-- One state can follow on another. -/
inductive RunState.LeadsTo : RunState → RunState → Prop
  | start {state : RunState} (h : state.isAtRest = true) : LeadsTo state running
  | aggregate : LeadsTo running aggregating
  | complete : LeadsTo aggregating complete
  | cancel : LeadsTo running cancelled

/-- The mix is run when it is asked for: it is not refused, and its roster can be held. -/
def Mix.isReady (m : Mix) : Bool :=
  match m.ready with
  | .ok () => true
  | .error _ => false

/-- A scheduler that has been asked for some things. -/
structure Session where
  scheduler : Scheduler
  /-- What could be seen of the runs. -/
  log : List LoadEvent
  /-- The runs that were made, were refused or broke down, each with its mix. -/
  runs : List (Mix × Operation LoadReport)

/-- What can happen between two operations of a scheduler. -/
inductive SessionMove
  /-- The scheduler is asked for something, and its runs go their courses. -/
  | ask (request : Request) (courses : Nat → Course)
  /-- Someone cancels the token of the scheduler. -/
  | cancel

namespace Session

/-- A scheduler that has not been asked for anything. -/
def start (settings : Settings) : Session where
  scheduler := .new settings
  log := []
  runs := []

/-- One move of a session. -/
def step? (t : Session) : SessionMove → Option Session
  | .ask request courses => do
    let o ← t.scheduler.serve? courses request
    let mixes := request.mixes t.scheduler
    let runs ← t.scheduler.stageRuns 0 courses mixes
    return ⟨o.scheduler, t.log ++ o.log.map (·.2), t.runs ++ mixes.zip runs⟩
  | .cancel => some { t with scheduler := { t.scheduler with cancelled := true } }

/-- Some moves one after the other. -/
def play? (t : Session) (moves : List SessionMove) : Option Session := moves.foldlM step? t

/-- The states that the scheduler has come into. -/
def entered (t : Session) : List RunState := t.log.filterMap LoadEvent.entered?

/-- The results that were handed back of runs of accepted mixes. A run that breaks down at its start
    hands nothing back. -/
def results (t : Session) : List (Except Fault LoadReport) :=
  (t.runs.filter (·.1.isReady)).map (·.2.result)

end Session

end LoadBench
