import LoadBench.Plan.CustomTest
import LoadBench.Plan.Stages
import LoadBench.Run.LoadRun
import LoadBench.Summary.StagedReport

/-!
# The scheduler of load runs

A scheduler performs mixes, alone or in stages. It carries its settings, the token by which its runs
can be cancelled, and the state that the last run left it in. A run whose roster cannot be held
breaks down before it comes into a state, and so does a ramp whose stages cannot be counted or held.

* `Mix.ready`, `Scheduler.runMix`: one mix.
* `Scheduler.runStages`: stages one after the other, up to the first without a report.
* `Scheduler.runGradual`, `Scheduler.runBurst`, `Scheduler.runCustom`: staged runs and custom tests.
-/

namespace LoadBench

/-- A scheduler between two operations. -/
structure Scheduler where
  settings : Settings
  state : RunState
  cancelled : Bool

/-- How a run may go: what its calls come to, by user, page and position, and the moves that are
    made from its start. -/
structure Course where
  service : Nat → Nat → Nat → CallEnd
  moves : LoadRun → List LoadMove

/-- What an operation leaves behind: the scheduler, what could be seen of its runs in their order,
    each event with the place of its run, and the result. -/
structure Operation (α : Type) where
  scheduler : Scheduler
  log : List (Nat × LoadEvent)
  result : Except Fault α

namespace Operation

/-- The same operation with its result changed. -/
def map (f : α → β) (o : Operation α) : Operation β := { o with result := o.result.map f }

end Operation

/-- A mix is ready to be run if it is accepted and its roster can be held. -/
def Mix.ready (m : Mix) : Except Fault Unit :=
  match m.validate with
  | .error fault => .error fault
  | .ok () => if m.roster?.isSome then .ok () else .error (.broken .capacity)

namespace Scheduler

/-- A scheduler that has not run anything. -/
def new (settings : Settings) : Scheduler where
  settings := settings
  state := .idle
  cancelled := false

/-- The mixes that a burst run of a mix performs; under settings that are refused there are none. -/
def waves (s : Scheduler) (m : Mix) : List Mix :=
  match s.settings.validate with
  | .ok () => m.waves s.settings.burstPhases
  | .error _ => []

/-- The mixes that a custom test performs. -/
def mixes (s : Scheduler) (t : CustomTest) : List Mix :=
  match t.pattern with
  | .uniform => [t.mix]
  | .gradual => t.mix.ramp s.settings.rampStages
  | .burst => s.waves t.mix

/-- The operation that ends with a fault in front of its first run: nothing happens. -/
def refuse (s : Scheduler) (fault : Fault) : Operation α := ⟨s, [], .error fault⟩

/-- The state after some events: the last one entered. -/
def stateAfter (state : RunState) (log : List LoadEvent) : RunState :=
  log.foldl (fun state e => match e with
    | .entered next => next
    | _ => state) state

/-- Runs a mix as the run at a place. A mix that is not ready is not run; a course whose moves are
    not possible, or do not lead to a result, is none. -/
def runMix (s : Scheduler) (m : Mix) (place : Nat) (course : Course) :
    Option (Operation LoadReport) :=
  match m.ready with
  | .error fault => some (s.refuse fault)
  | .ok () => do
    let start := LoadRun.start m s.cancelled
    let r ← start.play? m course.service (course.moves start)
    let result ← r.result
    return ⟨{ s with state := stateAfter s.state r.log, cancelled := r.cancelled },
      r.log.map (place, ·), result⟩

/-- Runs mixes as the runs from a place on, up to the first without a report. -/
def runStages (s : Scheduler) (place : Nat) (courses : Nat → Course) :
    List Mix → Option (Operation (List LoadReport))
  | [] => some ⟨s, [], .ok []⟩
  | m :: rest => do
    let o ← s.runMix m place (courses place)
    match o.result with
    | .error fault => return { o with result := .error fault }
    | .ok report =>
      let o' ← o.scheduler.runStages (place + 1) courses rest
      return ⟨o'.scheduler, o.log ++ o'.log, o'.result.map (report :: ·)⟩

/-- Raises the users of a mix in some stages. -/
def runGradual (s : Scheduler) (m : Mix) (stages : Nat) (courses : Nat → Course) :
    Option (Operation StagedReport) :=
  if stages == 0 then some (s.refuse (.settings .noStages))
  else
    match m.planRamp stages with
    | .error cause => some (s.refuse (.broken cause))
    | .ok mixes => (s.runStages 0 courses mixes).map (·.map (.ofStages .gradual m))

/-- Raises the users of a mix in as many stages as the settings say. -/
def runGradualStandard (s : Scheduler) (m : Mix) (courses : Nat → Course) :
    Option (Operation StagedReport) :=
  s.runGradual m s.settings.rampStages courses

/-- Lets the users of a mix arrive in the waves of the settings. -/
def runBurst (s : Scheduler) (m : Mix) (courses : Nat → Course) :
    Option (Operation StagedReport) :=
  match s.settings.validate with
  | .error fault => some (s.refuse fault)
  | .ok () =>
    (s.runStages 0 courses (m.waves s.settings.burstPhases)).map (·.map (.ofStages .burst m))

/-- Runs a custom test in the way that its pattern says. -/
def runCustom (s : Scheduler) (t : CustomTest) (courses : Nat → Course) :
    Option (Operation LoadOutcome) :=
  if t.actions.isEmpty then some (s.refuse (.plan .emptyCustomTest))
  else
    match t.pattern with
    | .uniform => (s.runMix t.mix 0 (courses 0)).map (·.map .single)
    | .gradual => (s.runGradualStandard t.mix courses).map (·.map .staged)
    | .burst => (s.runBurst t.mix courses).map (·.map .staged)

end Scheduler

end LoadBench
