import LoadBench.Proofs.Measure.Errors
import LoadBench.Proofs.Summary.LoadReport
import LoadBench.Summary.StagedReport

/-!
# The figures of a staged run

The four figures of a staged run are drawn from its calls, taken one after the other through the
stages, their users and their pages. How the calls are divided among stages, users and pages makes
no difference, and neither do stages without calls; what the stages have counted of their own calls
adds up to what is counted of all of them.

Results:
* `sameFigures_of_calls_eq`: runs with the same calls have the same figures.
* `calls_busy`: stages without calls add nothing to the calls of a run.
* `ofStages_figures`: the figures are those of all calls in one list, and what the stages have
  counted adds up to them.
-/

namespace LoadBench

/-! ## What a stage has counted -/

namespace LoadReport

/-- The successes that a report speaks of: the calls that are not counted as failures. -/
def successes (r : LoadReport) : Nat := r.totalRequests - r.errors.elim 0 (·.count)

theorem totalRequests_ofWalks (m : Mix) (walks : List UserWalk) (totalTimeMs : Float) :
    (ofWalks m walks totalTimeMs).totalRequests =
      (ofWalks m walks totalTimeMs).results.length := rfl

theorem successes_ofWalks (m : Mix) (walks : List UserWalk) (totalTimeMs : Float) :
    (ofWalks m walks totalTimeMs).successes =
      successCount (ofWalks m walks totalTimeMs).results := by
  have hall := failureCount_add_successCount (ofWalks m walks totalTimeMs).results
  have hfailures : (ofWalks m walks totalTimeMs).errors.elim 0 (·.count) =
      failureCount (ofWalks m walks totalTimeMs).results := ErrorSummary.countOf_eq _
  rw [successes, hfailures, totalRequests_ofWalks]
  omega

theorem successRate_ofWalks (m : Mix) (walks : List UserWalk) (totalTimeMs : Float) :
    (ofWalks m walks totalTimeMs).successRate =
      Statistics.countRatio (ofWalks m walks totalTimeMs).successes
        (ofWalks m walks totalTimeMs).totalRequests := by
  rw [successes_ofWalks]
  rfl

end LoadReport

namespace StagedReport

/-! ## All calls in one list -/

variable {stages others : List LoadReport}

/-- The calls of some stages: stage after stage, user after user, page after page. -/
def calls (stages : List LoadReport) : List CallResult :=
  stages.flatMap fun stage => stage.walks.flatMap fun walk => walk.visits.flatMap (·.results)

/-- The figures of a report are those of some calls. -/
structure Pools (r : StagedReport) (results : List CallResult) : Prop where
  totalRequests : r.totalRequests = results.length
  successRate : r.successRate = Statistics.countRatio (successCount results) results.length
  averageResponseMs : r.averageResponseMs = Statistics.average (results.map (·.elapsedMs))
  latency : r.latency = .ofSamples (results.map (·.elapsedMs))

/-- Two reports agree on the figures. -/
structure SameFigures (r s : StagedReport) : Prop where
  totalRequests : r.totalRequests = s.totalRequests
  successRate : r.successRate = s.successRate
  averageResponseMs : r.averageResponseMs = s.averageResponseMs
  latency : r.latency = s.latency

theorem pools_ofStages (mode : StagingMode) (m : Mix) (stages : List LoadReport) :
    (ofStages mode m stages).Pools (calls stages) where
  totalRequests := rfl
  successRate := rfl
  averageResponseMs := rfl
  latency := rfl

theorem Pools.sameFigures {r s : StagedReport} {results : List CallResult} (hr : r.Pools results)
    (hs : s.Pools results) : r.SameFigures s where
  totalRequests := hr.totalRequests.trans hs.totalRequests.symm
  successRate := hr.successRate.trans hs.successRate.symm
  averageResponseMs := hr.averageResponseMs.trans hs.averageResponseMs.symm
  latency := hr.latency.trans hs.latency.symm

/-- Runs with the same calls have the same figures, however the calls are divided. -/
theorem sameFigures_of_calls_eq (h : calls others = calls stages) (mode mode' : StagingMode)
    (m m' : Mix) : (ofStages mode' m' others).SameFigures (ofStages mode m stages) :=
  (h ▸ pools_ofStages mode' m' others).sameFigures (pools_ofStages mode m stages)

/-- The stages with calls. -/
def busy (stages : List LoadReport) : List LoadReport := stages.filter (!·.results.isEmpty)

/-- Stages without calls add nothing. -/
theorem calls_busy (stages : List LoadReport) : calls (busy stages) = calls stages := by
  induction stages with
  | nil => rfl
  | cons stage rest ih =>
    have hcalls : calls (stage :: rest) = stage.results ++ calls rest := rfl
    cases hempty : stage.results.isEmpty with
    | true =>
      have hbusy : busy (stage :: rest) = busy rest := by
        rw [busy, List.filter_cons_of_neg (by simp [hempty]), busy]
      rw [hbusy, ih, hcalls, List.isEmpty_iff.mp hempty, List.nil_append]
    | false =>
      have hbusy : busy (stage :: rest) = stage :: busy rest := by
        rw [busy, List.filter_cons_of_pos (by simp [hempty]), busy]
      rw [hbusy, hcalls, ← ih]
      rfl

theorem calls_eq_of_busy_eq (h : busy others = busy stages) : calls others = calls stages := by
  rw [← calls_busy others, h, calls_busy]

/-! ## What the stages add up to -/

theorem length_calls (stages : List LoadReport) :
    (calls stages).length = (stages.map fun stage => stage.results.length).sum :=
  List.length_flatMap

theorem successCount_calls (stages : List LoadReport) :
    successCount (calls stages) = (stages.map fun stage => successCount stage.results).sum :=
  List.countP_flatMap

/-- The four figures of a staged run are those of its calls in one list. They are the same for any
    stages with the same calls, and for stages that differ in stages without calls only. Where the
    stages are reports on walks, the calls and the successes are what the stages have counted. -/
theorem ofStages_figures (mode : StagingMode) (m : Mix) (stages : List LoadReport) :
    (ofStages mode m stages).Pools (calls stages) ∧
    (∀ mode' m' others, calls others = calls stages →
      (ofStages mode' m' others).SameFigures (ofStages mode m stages)) ∧
    (∀ mode' m' others, busy others = busy stages →
      (ofStages mode' m' others).SameFigures (ofStages mode m stages)) ∧
    ((∀ stage ∈ stages, ∃ mix walks totalTimeMs, stage = .ofWalks mix walks totalTimeMs) →
      (ofStages mode m stages).totalRequests = (stages.map (·.totalRequests)).sum ∧
      successCount (calls stages) = (stages.map (·.successes)).sum ∧
      (ofStages mode m stages).successRate = Statistics.countRatio
        (stages.map (·.successes)).sum (stages.map (·.totalRequests)).sum ∧
      ∀ stage ∈ stages,
        stage.successRate = Statistics.countRatio stage.successes stage.totalRequests) := by
  have hpools := pools_ofStages mode m stages
  refine ⟨hpools, fun mode' m' others h => sameFigures_of_calls_eq h mode mode' m m',
    fun mode' m' others h => sameFigures_of_calls_eq (calls_eq_of_busy_eq h) mode mode' m m',
    fun hmade => ?_⟩
  have htotal : (calls stages).length = (stages.map (·.totalRequests)).sum := by
    rw [length_calls]
    congr 1
    apply List.map_congr_left
    intro stage hstage
    obtain ⟨mix, walks, totalTimeMs, rfl⟩ := hmade stage hstage
    rw [LoadReport.totalRequests_ofWalks]
  have hsuccesses : successCount (calls stages) = (stages.map (·.successes)).sum := by
    rw [successCount_calls]
    congr 1
    apply List.map_congr_left
    intro stage hstage
    obtain ⟨mix, walks, totalTimeMs, rfl⟩ := hmade stage hstage
    rw [LoadReport.successes_ofWalks]
  refine ⟨hpools.totalRequests.trans htotal, hsuccesses, ?_, fun stage hstage => ?_⟩
  · rw [hpools.successRate, htotal, hsuccesses]
  · obtain ⟨mix, walks, totalTimeMs, rfl⟩ := hmade stage hstage
    exact LoadReport.successRate_ofWalks mix walks totalTimeMs

/-- A user whose one call was answered, and one whose call was refused. -/
def answered : UserWalk :=
  .ofVisits 0 "browse" [.completed "home" 3.0
    [.ofCall (.plain ⟨"health", "Health", []⟩) 2.0 .epoch (.success .null)]]

@[inherit_doc answered]
def refused : UserWalk :=
  .ofVisits 1 "browse" [.completed "home" 3.0
    [.ofCall (.plain ⟨"health", "Health", []⟩) 2.0 .epoch (.failure .transport "refused")]]

/-- A mix for two users. -/
def twoUsers : Mix := ⟨"browsing", "", 2, []⟩

/-- A stage of some of them. -/
def stageOf (walks : List UserWalk) : LoadReport := .ofWalks twoUsers walks 4.0

theorem calls_stageOf {walks : List UserWalk}
    (h : walks.Pairwise fun a b => a.userIndex ≤ b.userIndex) (rest : List LoadReport) :
    calls (stageOf walks :: rest) = walks.flatMap UserWalk.results ++ calls rest := by
  show (LoadReport.inOrder walks).flatMap UserWalk.results ++ calls rest = _
  rw [LoadReport.inOrder_of_ascending h]

theorem ofStages_figures_twoUsers :
    calls [stageOf [answered], stageOf [refused]] = calls [stageOf [answered, refused]] ∧
      (ofStages .burst twoUsers [stageOf [answered], stageOf [refused]]).SameFigures
        (ofStages .gradual twoUsers [stageOf [answered, refused]]) ∧
      (ofStages .burst twoUsers [stageOf [], stageOf [answered, refused], stageOf []]).SameFigures
        (ofStages .gradual twoUsers [stageOf [answered, refused]]) ∧
      (ofStages .gradual twoUsers [stageOf [answered, refused]]).successRate =
        Statistics.countRatio 1 2 := by
  have hboth : LoadReport.inOrder [answered, refused] = [answered, refused] :=
    LoadReport.inOrder_of_ascending (by decide)
  have hcalls : calls [stageOf [answered], stageOf [refused]] =
      calls [stageOf [answered, refused]] := by
    rw [calls_stageOf (by decide), calls_stageOf (by decide), calls_stageOf (by decide)]
    rfl
  have hnone : (stageOf []).results = [] := by
    show (LoadReport.inOrder []).flatMap UserWalk.results = []
    rw [LoadReport.inOrder_of_ascending .nil, List.flatMap_nil]
  have hbusy : busy [stageOf [], stageOf [answered, refused], stageOf []] =
      busy [stageOf [answered, refused]] := by
    simp [busy, List.filter_cons, hnone]
  have hmade : ∀ stage ∈ [stageOf [answered, refused]],
      ∃ mix walks totalTimeMs, stage = .ofWalks mix walks totalTimeMs := by
    intro stage hstage
    obtain rfl := List.mem_singleton.mp hstage
    exact ⟨_, _, _, rfl⟩
  have hsuccesses : (stageOf [answered, refused]).successes = 1 := by
    rw [stageOf, LoadReport.successes_ofWalks]
    show successCount ((LoadReport.inOrder [answered, refused]).flatMap UserWalk.results) = 1
    rw [hboth]
    decide
  have htotal : (stageOf [answered, refused]).totalRequests = 2 := by
    show ((LoadReport.inOrder [answered, refused]).flatMap UserWalk.results).length = 2
    rw [hboth]
    decide
  obtain ⟨-, hsame, hidle, hmadeOf⟩ :=
    ofStages_figures .gradual twoUsers [stageOf [answered, refused]]
  obtain ⟨-, -, hrate, -⟩ := hmadeOf hmade
  refine ⟨hcalls, hsame .burst twoUsers _ hcalls, hidle .burst twoUsers _ hbusy, ?_⟩
  rw [hrate, List.map_singleton, List.map_singleton, List.sum_singleton, List.sum_singleton,
    hsuccesses, htotal]

end StagedReport

end LoadBench
