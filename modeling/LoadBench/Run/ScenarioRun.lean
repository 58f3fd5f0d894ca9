import LoadBench.Run.Batch
import LoadBench.Summary.ScenarioReport

/-!
# Scenario runs

A scenario is run batch by batch: a batch is opened when the one before it is settled. The run can
be cancelled at any time; that is seen when a batch is opened and whenever an ended call would be
joined, and it ends the run without a report. A list of moves is one way in which a run can go. A
run whose calls cannot be counted, or whose iterations cannot be held, breaks down in front of its
first batch.

* `ScenarioRun.step?`: one move of a run.
* `Scenario.prepare`: what a run does in front of its first batch.
* `Scenario.perform`: a run along a list of moves, from its checks to its result.
* `Scenario.performAll`: several scenarios, up to the first that has no report.
* `ScenarioRun.inOrder`: the moves of a run whose calls end in the order of their positions.
-/

namespace LoadBench

/-- What can be seen of a run from outside, in the order in which it happens. -/
inductive ScenarioEvent
  /-- The run starts. -/
  | started
  /-- A call is made. -/
  | called (iteration position : Nat)
  /-- A call is over. -/
  | ended (iteration position : Nat)
  /-- A number of the calls have come back. -/
  | progress (completed total : Nat) (scenario : String)
  /-- The batch of an iteration is settled; it is broken if one of its calls crashed. -/
  | settled (iteration : Nat) (isBroken : Bool)
  /-- The run has seen in an iteration that it is cancelled. -/
  | stopped (iteration : Nat)
  /-- The run has its report. -/
  | completed (report : ScenarioReport)

/-- A move of a run; measured values come with the move at which they are taken. -/
inductive ScenarioMove
  /-- Opens the next batch. -/
  | openBatch
  /-- A move of the open batch. -/
  | call (move : BatchMove)
  /-- Closes a batch all of whose calls are joined. -/
  | settle (elapsedMs : Float) (finishedAt : Instant)
  /-- Draws up the report. -/
  | conclude (totalElapsedMs : Float) (runId : RunId)
  /-- Someone cancels the run. -/
  | cancel
  /-- The run sees that it is cancelled and gives its batch up. -/
  | giveUp

/-- A run on its way. -/
structure ScenarioRun where
  settled : List Iteration
  batch : Option Batch
  /-- The number of calls that have come back. -/
  completed : Nat
  cancelled : Bool
  log : List ScenarioEvent
  result : Option (Except Fault ScenarioReport)

namespace ScenarioRun

/-- A run that is prepared for its first batch, with a token that may be cancelled already. -/
def start (cancelled : Bool) : ScenarioRun where
  settled := []
  batch := none
  completed := 0
  cancelled := cancelled
  log := [.started]
  result := none

/-- Ends the run as cancelled. -/
def stop (r : ScenarioRun) (s : Scenario) : ScenarioRun :=
  { r with
    batch := none
    log := r.log ++ [.stopped r.settled.length]
    result := some (.error (.cancelled s.name)) }

/-- Takes note of a move of the open batch. -/
def observe (r : ScenarioRun) (s : Scenario) (ends : Nat → CallEnd) : BatchMove → ScenarioRun
  | .launch i => { r with log := r.log ++ [.called r.settled.length i] }
  | .finish i =>
    let r := { r with log := r.log ++ [.ended r.settled.length i] }
    match ends i with
    | .returned _ =>
      { r with
        completed := r.completed + 1
        log := r.log ++ [.progress (r.completed + 1) s.totalRequests s.name] }
    | .crashed => r
  | .join _ => r

/-- The iteration that a settled batch leaves behind. -/
def iteration (index : Nat) (b : Batch) (elapsedMs : Float) (finishedAt : Instant) : Iteration :=
  match b.results? with
  | some results => .completed index results elapsedMs finishedAt
  | none => .lost index elapsedMs finishedAt

/-- One move of a run that has no result yet. -/
def advance? (s : Scenario) (service : Nat → Nat → CallEnd) (r : ScenarioRun) :
    ScenarioMove → Option ScenarioRun
  | .openBatch =>
    if r.batch.isSome || s.iterations ≤ r.settled.length then none
    else if r.cancelled then some (r.stop s)
    else some { r with batch := some (.start s.batchSize) }
  | .call m => do
    let b ← r.batch
    if m.isJoin && r.cancelled then none
    let ends := service r.settled.length
    let b ← b.step? ends m
    return { r with batch := some b }.observe s ends m
  | .settle elapsedMs finishedAt => do
    let b ← r.batch
    if r.cancelled || !b.isDone then none
    return { r with
      batch := none
      settled := r.settled ++ [iteration r.settled.length b elapsedMs finishedAt]
      log := r.log ++ [.settled r.settled.length b.broken] }
  | .conclude totalElapsedMs runId =>
    if r.batch.isSome || r.settled.length < s.iterations then none
    else
      let report := { ScenarioReport.ofIterations s r.settled totalElapsedMs with runId := runId }
      some { r with result := some (.ok report), log := r.log ++ [.completed report] }
  | .giveUp => if r.batch.isSome && r.cancelled then some (r.stop s) else none
  | .cancel => none

/-- One move of a run; a move that is not possible is refused. A run can be cancelled once, and
    also when it is over. -/
def step? (s : Scenario) (service : Nat → Nat → CallEnd) (r : ScenarioRun) (m : ScenarioMove) :
    Option ScenarioRun :=
  match m with
  | .cancel => if r.cancelled then none else some { r with cancelled := true }
  | m => if r.result.isSome then none else advance? s service r m

/-- Some moves one after the other. -/
def play? (s : Scenario) (service : Nat → Nat → CallEnd) (r : ScenarioRun)
    (moves : List ScenarioMove) : Option ScenarioRun :=
  moves.foldlM (step? s service) r

/-! ## The run in order -/

/-- The moves of one batch whose calls end in the order of their positions. -/
def batchInOrder (size : Nat) : List ScenarioMove :=
  .openBatch :: (Batch.inOrder size).map .call ++ [.settle 0.0 .epoch]

/-- The moves of one batch during a call of which the run is cancelled. -/
def batchCancelled (size : Nat) : List ScenarioMove :=
  .openBatch :: (List.range size).map (fun i => .call (.launch i)) ++ [.cancel, .giveUp]

/-- The moves of a run whose calls end in the order of their positions and whose times are all
    zero. The run is cancelled in the first iteration that `stops` names, if there is one. -/
def inOrder (s : Scenario) (stops : Nat → Bool) (r : ScenarioRun) : List ScenarioMove :=
  if r.cancelled then [.openBatch]
  else
    match (List.range s.iterations).find? stops with
    | some k =>
      (List.replicate k (batchInOrder s.batchSize)).flatten ++ batchCancelled s.batchSize
    | none =>
      (List.replicate s.iterations (batchInOrder s.batchSize)).flatten ++ [.conclude 0.0 .zero]

end ScenarioRun

/-! ## Whole runs -/

/-- What a run leaves behind. -/
structure Performed (ε α : Type) where
  result : Except Fault α
  log : List ε
  cancelled : Bool

namespace Scenario

/-- So many iterations, or more, cannot be held: what is left of one takes 56 bytes. -/
def iterationLimit : Nat := Counter.listLimit 56

/-- What a run does in front of its first batch: it counts the calls and makes room for the
    iterations. -/
def prepare (s : Scenario) : Except Breakdown Unit := do
  let _ ← Counter.product s.batchSize s.iterations
  if s.iterations < iterationLimit then return else throw .capacity

/-- A run of a scenario along a list of moves. A scenario that is refused makes none, and neither
    does one that breaks down when the run is prepared; a list of moves that is not possible, or
    does not lead to a result, is none of the ways in which the scenario can be run. -/
def perform (s : Scenario) (service : Nat → Nat → CallEnd) (cancelled : Bool)
    (pick : ScenarioRun → List ScenarioMove) : Option (Performed ScenarioEvent ScenarioReport) :=
  match s.validate with
  | .error fault => some ⟨.error fault, [], cancelled⟩
  | .ok () =>
    match s.prepare with
    | .error cause => some ⟨.error (.broken cause), [.started], cancelled⟩
    | .ok () => do
      let start := ScenarioRun.start cancelled
      let r ← start.play? s service (pick start)
      return ⟨← r.result, r.log, r.cancelled⟩

/-- Runs of several scenarios one after the other, up to the first without a report; the service
    and the moves of each may depend on its place in the list. The events carry the place. -/
def performAll (service : Nat → Nat → Nat → CallEnd)
    (pick : Nat → ScenarioRun → List ScenarioMove) (place : Nat) (cancelled : Bool) :
    List Scenario → Option (Performed (Nat × ScenarioEvent) (List ScenarioReport))
  | [] => some ⟨.ok [], [], cancelled⟩
  | s :: rest => do
    let p ← s.perform (service place) cancelled (pick place)
    let log := p.log.map (place, ·)
    match p.result with
    | .error fault => return ⟨.error fault, log, p.cancelled⟩
    | .ok report =>
      let q ← performAll service pick (place + 1) p.cancelled rest
      return ⟨q.result.map (report :: ·), log ++ q.log, q.cancelled⟩

end Scenario

end LoadBench
