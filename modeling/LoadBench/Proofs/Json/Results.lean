import LoadBench.Proofs.Json.Values
import LoadBench.Proofs.Summary.Fits

/-!
# Results in texts

Results of calls and reports are written as JSON and can be read back. As trees of data they are
always kept. As texts they are kept as long as nothing is nested too deep: a payload that the
service could send may be too deep once it is wrapped in a result.

Results:
* `results_kept`: what is read back of the written results.
* `not_results_kept`: a payload that was received can be nested too deep to be read back.
-/

namespace LoadBench

namespace Json

variable {α : Type}

/-- What is written is read back: from its tree, and from the texts of the tree, which are read back
    if, and only if, the tree is not nested too deep. -/
structure Keeps (write : α → Data) (read : Data → Option α) (a : α) : Prop where
  tree : read (write a).normal = some a
  texts : isWritable (write a) = true → ∀ text ∈ [compact (write a), pretty (write a)],
    (parse? text).bind read = if depth (write a) ≤ depthLimit then some a else none

theorem keeps_of_restores {write : α → Data} {read : Data → Option α} {a : α}
    (h : Source.Restores Data.IsNormalOf read (write a) a) : Keeps write read a where
  tree := h _ rfl
  texts := by
    intro hwritable text htext
    have hparse : parse? text =
        if depth (write a) ≤ depthLimit then some (write a).normal else none := by
      rcases List.mem_pair.mp htext with rfl | rfl
      · exact parse?_compact hwritable
      · exact parse?_pretty hwritable
    rw [hparse]
    split_ifs
    · exact h _ rfl
    · rfl

theorem Keeps.compact {write : α → Data} {read : Data → Option α} {a : α} (h : Keeps write read a)
    (hwritable : isWritable (write a) = true) (hdepth : depth (write a) ≤ depthLimit) :
    (parse? (Json.compact (write a))).bind read = some a := by
  rw [h.texts hwritable _ (by simp), if_pos hdepth]

theorem Keeps.pretty {write : α → Data} {read : Data → Option α} {a : α} (h : Keeps write read a)
    (hwritable : isWritable (write a) = true) (hdepth : depth (write a) ≤ depthLimit) :
    (parse? (Json.pretty (write a))).bind read = some a := by
  rw [h.texts hwritable _ (by simp), if_pos hdepth]

end Json

/-- Every result and every report is kept. -/
theorem results_kept :
    (∀ r : CallResult, r.Fits → Json.Keeps CallResult.data CallResult.read? r) ∧
    (∀ it : Iteration, it.Fits → Json.Keeps Iteration.data Iteration.read? it) ∧
    (∀ r : ScenarioReport, r.Fits → Json.Keeps ScenarioReport.data ScenarioReport.read? r) ∧
    (∀ r : LoadReport, r.Fits → Json.Keeps LoadReport.data LoadReport.read? r) ∧
    (∀ r : StagedReport, r.Fits → Json.Keeps StagedReport.data StagedReport.read? r) ∧
    (∀ o : LoadOutcome, o.Fits → Json.Keeps LoadOutcome.data LoadOutcome.read? o) ∧
    (∀ c : Comparison, Json.Keeps Comparison.data Comparison.read? c) := by
  have hR := Data.faithful
  refine ⟨?_, ?_, ?_, ?_, ?_, ?_, ?_⟩
  · intro r h
    exact Json.keeps_of_restores (CallResult.restores hR h)
  · intro it h
    exact Json.keeps_of_restores (Iteration.restores hR h)
  · intro r h
    exact Json.keeps_of_restores (ScenarioReport.restores hR h)
  · intro r h
    exact Json.keeps_of_restores (LoadReport.restores hR h)
  · intro r h
    exact Json.keeps_of_restores (StagedReport.restores hR h)
  · intro o h
    exact Json.keeps_of_restores (LoadOutcome.restores hR h)
  · intro c
    exact Json.keeps_of_restores (Comparison.restores hR.toFaithful c)

theorem Instant.readsBack_epoch : epoch.ReadsBack := by
  show parse? epoch.render = some epoch
  decide

/-- A call that was answered with a payload. -/
def CallResult.answered (payload : Data) : CallResult where
  label := "a"
  path := "p"
  timeoutSecs := none
  queryCount := some 3
  operation := none
  complexity := some .high
  iteration := some ⟨0, 2.5⟩
  elapsedMs := 1.0
  completedAt := .epoch
  outcome := .success payload

theorem CallResult.fits_answered {payload : Data} (h : payload.normal = payload) :
    (answered payload).Fits where
  queries := by
    rintro n ⟨⟩
    decide
  iteration := by
    rintro t ⟨⟩
    decide
  completedAt := Instant.readsBack_epoch
  outcome := h

/-- A call that was refused. -/
def CallResult.refused : CallResult where
  label := "b"
  path := "q"
  timeoutSecs := some 0.5
  queryCount := none
  operation := some "x"
  complexity := none
  iteration := none
  elapsedMs := 3.0
  completedAt := ⟨86399, 1500000000⟩
  outcome := .failure .status "no"

theorem CallResult.fits_refused : refused.Fits where
  queries := by decide
  iteration := by decide
  completedAt := by
    show Instant.parse? _ = _
    decide
  outcome := trivial

/-- Two calls, one of which was answered with a payload that reports on a session. -/
def Iteration.pair : Iteration where
  index := 0
  results := [.answered (.record [("data", .record [("session_info",
    .record [("threads_running", .integer 2)])])]), .refused]
  elapsedMs := 4.0
  finishedAt := .epoch
  failed := false

/-- The latencies of the two calls. -/
def Latency.pair : Latency := ⟨1.0, 3.0, 3.0, 3.0, 2.0, 1.0, 1.0, 3.0⟩

/-- A scenario without calls of its own. -/
def Scenario.bare : Scenario := ⟨"s", "", [], 1, false⟩

/-- A mix without actions of its own. -/
def Mix.bare : Mix := ⟨"m", "", 1, []⟩

/-- The report of a run that made the two calls once. -/
def ScenarioReport.pair : ScenarioReport :=
  { ScenarioReport.ofIterations .bare [.pair] 5.0 with latency := .pair }

/-- The walk of a user who made the two calls on one page. -/
def UserWalk.pair : UserWalk := .ofVisits 0 "w" [.completed "v" 2.0 Iteration.pair.results]

/-- The report of a run with this user. -/
def LoadReport.pair : LoadReport :=
  { LoadReport.ofWalks .bare [.pair] 8.0 with latency := .pair }

/-- The report of a run in one stage. -/
def StagedReport.pair : StagedReport :=
  { StagedReport.ofStages .burst .bare [.pair] with latency := .pair }

theorem Iteration.fits_pair : pair.Fits where
  index := by decide
  results := by
    intro r hr
    rcases List.mem_pair.mp hr with rfl | rfl
    · exact CallResult.fits_answered rfl
    · exact CallResult.fits_refused
  finishedAt := Instant.readsBack_epoch

theorem ScenarioReport.fits_pair : pair.Fits := by
  have hiterations : ∀ it ∈ [Iteration.pair], it.Fits := by
    intro it hit
    rw [List.mem_singleton.mp hit]
    exact Iteration.fits_pair
  have hfits : (ofIterations .bare [.pair] 5.0).Fits :=
    fits_ofIterations ⟨by decide, by simp [Scenario.bare]⟩ hiterations 5.0 (by decide) (by decide)
      (by decide)
  exact ⟨hfits.iterations, hfits.totalRequests, hfits.completedRequests, hfits.failedIterations,
    hfits.errors, hfits.connections, hfits.telemetry, hfits.results⟩

theorem UserWalk.made_pair : pair.Made := by
  refine .ofVisits 0 "w" fun v hv => ?_
  rw [List.mem_singleton.mp hv]
  exact .completed "v" 2.0 _

theorem LoadReport.fits_pair : pair.Fits := by
  have hcalls : ∀ r ∈ UserWalk.pair.results, r.Fits := Iteration.fits_pair.results
  have hfits : (ofWalks .bare [.pair] 8.0).Fits := by
    refine fits_ofWalks (by decide) ?_ ?_ ?_ 8.0 (by decide) (by decide)
    all_goals
      intro w hw
      rw [List.mem_singleton.mp hw]
    · exact UserWalk.made_pair
    · decide
    · exact hcalls
  exact ⟨hfits.nominalUsers, hfits.concurrentUsers, hfits.failedUsers, hfits.totalRequests,
    hfits.pageNames, hfits.errors, hfits.walks⟩

theorem StagedReport.fits_pair : pair.Fits := by
  have hstages : ∀ stage ∈ [LoadReport.pair], stage.Fits := by
    intro stage hstage
    rw [List.mem_singleton.mp hstage]
    exact LoadReport.fits_pair
  have hwalks : LoadReport.pair.walks = [.pair] := List.mergeSort_singleton _
  have hresults : ([LoadReport.pair].flatMap LoadReport.results).length < Counter.size := by
    rw [List.flatMap_singleton, LoadReport.results, hwalks]
    decide
  have hfits : (ofStages .burst .bare [.pair]).Fits :=
    fits_ofStages (by decide) hstages .burst hresults
  exact ⟨hfits.stages, hfits.totalUsers, hfits.totalRequests, hfits.comparison⟩

theorem results_kept_pair :
    (Json.parse? (Json.compact Iteration.pair.data)).bind Iteration.read? = some .pair ∧
    (Json.parse? (Json.pretty ScenarioReport.pair.data)).bind ScenarioReport.read? = some .pair ∧
    (Json.parse? (Json.compact (LoadOutcome.single .pair).data)).bind LoadOutcome.read? =
      some (.single .pair) ∧
    (Json.parse? (Json.pretty (LoadOutcome.staged .pair).data)).bind LoadOutcome.read? =
      some (.staged .pair) := by
  obtain ⟨-, hiteration, hscenario, -, -, hload, -⟩ := results_kept
  have hcompact : ∀ d ∈ [Iteration.pair.data, (LoadOutcome.single .pair).data],
      Json.isWritable d = true ∧ Json.depth d ≤ Json.depthLimit := by decide +kernel
  have hpretty : ∀ d ∈ [ScenarioReport.pair.data, (LoadOutcome.staged .pair).data],
      Json.isWritable d = true ∧ Json.depth d ≤ Json.depthLimit := by decide +kernel
  obtain ⟨hwritable₁, hdepth₁⟩ := hcompact _ List.mem_cons_self
  obtain ⟨hwritable₂, hdepth₂⟩ := hpretty _ List.mem_cons_self
  obtain ⟨hwritable₃, hdepth₃⟩ := hcompact _ (List.mem_cons_of_mem _ List.mem_cons_self)
  obtain ⟨hwritable₄, hdepth₄⟩ := hpretty _ (List.mem_cons_of_mem _ List.mem_cons_self)
  refine ⟨?_, ?_, ?_, ?_⟩
  · exact (hiteration _ Iteration.fits_pair).compact hwritable₁ hdepth₁
  · exact (hscenario _ ScenarioReport.fits_pair).pretty hwritable₂ hdepth₂
  · exact (hload (.single .pair) LoadReport.fits_pair).compact hwritable₃ hdepth₃
  · exact (hload (.staged .pair) StagedReport.fits_pair).pretty hwritable₄ hdepth₄

/-! ## A payload that is nested too deep -/

/-- Lists in lists, around nothing. -/
def Data.nested : Nat → Data
  | 0 => .null
  | n + 1 => .list [nested n]

namespace Data

theorem normal_nested (n : Nat) : (nested n).normal = nested n := by
  induction n with
  | zero => rfl
  | succ n ih => rw [nested, normal_list, List.map_singleton, ih]

theorem isWritable_nested (n : Nat) : Json.isWritable (nested n) = true := by
  induction n with
  | zero => rfl
  | succ n ih =>
    rw [nested, Json.isWritable_list]
    intro d hd
    rwa [List.mem_singleton.mp hd]

theorem depth_nested (n : Nat) : Json.depth (nested n) = n := by
  induction n with
  | zero => rfl
  | succ n ih => rw [nested, Json.depth, Json.itemsDepth, Json.itemsDepth, Nat.max_zero, ih]

theorem parse?_nested {n : Nat} (h : n ≤ Json.depthLimit) :
    Json.parse? (Json.compact (nested n)) = some (nested n) := by
  rw [Json.parse?_compact (isWritable_nested n), depth_nested, if_pos h, normal_nested]

end Data

/-- A payload that could be read when it came need not be read as a part of its result. -/
theorem not_results_kept : ¬ ∀ r : CallResult, r.Fits → Json.isWritable r.data = true →
    (∀ payload, r.outcome = .success payload →
      Json.parse? (Json.compact payload) = some payload) →
    (Json.parse? (Json.compact r.data)).bind CallResult.read? = some r := by
  intro hclaim
  have hfits := CallResult.fits_answered (Data.normal_nested 126)
  have hwritable : Json.isWritable (CallResult.answered (.nested 126)).data = true := by
    decide +kernel
  have hreceived : ∀ payload, (CallResult.answered (.nested 126)).outcome = .success payload →
      Json.parse? (Json.compact payload) = some payload := by
    rintro payload ⟨⟩
    exact Data.parse?_nested (by decide)
  have hread := hclaim _ hfits hwritable hreceived
  rw [Json.parse?_compact hwritable, if_neg (by decide +kernel)] at hread
  cases hread

end LoadBench
