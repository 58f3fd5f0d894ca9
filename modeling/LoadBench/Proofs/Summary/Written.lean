import LoadBench.Proofs.Measure.Written
import LoadBench.Summary.Comparison
import LoadBench.Summary.StagedReport

/-!
# Written reports are restored

Reports hold results, figures and counts, and are written record by record. Their readers restore
them under the conditions under which the results in them are restored.

Results:
* `ScenarioReport.restores`, `LoadReport.restores`, `StagedReport.restores`, `Comparison.restores`.
* `ByComplexity.restores`: figures under names that are not written in ascending order.
* `LoadOutcome.restores`: a report of either kind, which is named in front of its fields.
-/

namespace LoadBench

open Source

/-! ## Iterations and scenario reports -/

section

variable {δ : Type} [TreeSource δ] {R : δ → Data → Prop}

namespace Iteration

/-- What the iteration holds can be written. -/
structure Fits (it : Iteration) : Prop where
  index : it.index < Counter.size
  results : ∀ r ∈ it.results, r.Fits
  finishedAt : it.finishedAt.ReadsBack

theorem restores (hR : FaithfulTree R) {it : Iteration} (h : it.Fits) :
    Restores R Iteration.read? it.data it := by
  have hR' := hR.toFaithful
  unfold Iteration.read? Iteration.data
  refine restores_record hR' (by simp) ?_
  refine (gives_required (by simp) (restores_count hR' h.index)).bind ?_
  have hresults := restores_listOf hR' _ fun r hr => CallResult.restores hR (h.results r hr)
  refine (gives_required (by simp) hresults).bind ?_
  refine (gives_required (by simp) (restores_real hR' it.elapsedMs)).bind ?_
  refine (gives_required (by simp) (Instant.restores hR' h.finishedAt)).bind ?_
  refine (gives_required (by simp) (restores_flag hR' it.failed)).bind ?_
  exact gives_pure it

end Iteration

namespace ScenarioReport

/-- What the report holds can be written. -/
structure Fits (r : ScenarioReport) : Prop where
  iterations : r.iterations < Counter.size
  totalRequests : r.totalRequests < Counter.size
  completedRequests : r.completedRequests < Counter.size
  failedIterations : ∀ n ∈ r.failedIterations, n < Counter.size
  errors : ∀ e ∈ r.errors, e.Fits
  connections : r.connections.Fits
  telemetry : r.telemetry.Fits
  results : ∀ c ∈ r.results, c.Fits

theorem restores (hR : FaithfulTree R) {r : ScenarioReport} (h : r.Fits) :
    Restores R ScenarioReport.read? r.data r := by
  have hR' := hR.toFaithful
  unfold ScenarioReport.read? ScenarioReport.data
  refine restores_record hR' (by simp) ?_
  refine (gives_required (by simp) (RunId.restores hR' r.runId)).bind ?_
  refine (gives_required (by simp) (restores_text hR' r.scenarioName)).bind ?_
  refine (gives_required (by simp) (restores_text hR' r.description)).bind ?_
  refine (gives_required (by simp) (restores_flag hR' r.triggersStream)).bind ?_
  refine (gives_required (by simp) (restores_count hR' h.iterations)).bind ?_
  refine (gives_required (by simp) (restores_count hR' h.totalRequests)).bind ?_
  refine (gives_required (by simp) (restores_count hR' h.completedRequests)).bind ?_
  have hfailed := restores_listOf hR' _ fun n hn => restores_count hR' (h.failedIterations n hn)
  refine (gives_required (by simp) hfailed).bind ?_
  refine (gives_required (by simp) (restores_real hR' r.totalElapsedMs)).bind ?_
  refine (gives_required (by simp) (restores_real hR' r.theoreticalMs)).bind ?_
  refine (gives_required (by simp) (restores_real hR' r.totalTheoreticalMs)).bind ?_
  refine (gives_required (by simp) (restores_real hR' r.averageIterationMs)).bind ?_
  have htimes := restores_listOf hR' r.iterationTimesMs fun x _ => restores_real hR' x
  refine (gives_required (by simp) htimes).bind ?_
  refine (gives_required (by simp) (restores_real hR' r.averageRequestMs)).bind ?_
  refine (gives_required (by simp) (restores_real hR' r.averageTimeoutMs)).bind ?_
  refine (gives_required (by simp) (restores_real hR' r.successRate)).bind ?_
  refine (gives_required (by simp) (restores_real hR' r.efficiency)).bind ?_
  refine (gives_required (by simp) (restores_real hR' r.overheadMs)).bind ?_
  refine (gives_required (by simp) (Latency.restores hR' r.latency)).bind ?_
  refine (gives_optionalNamed hR' ErrorSummary.data r.errors (by simp) fun e he =>
    ⟨Data.noConfusion, ErrorSummary.restores hR' (h.errors e he)⟩).bind ?_
  refine (gives_required (by simp) (Connections.restores hR' h.connections)).bind ?_
  refine (gives_required (by simp) (Telemetry.restores hR' h.telemetry)).bind ?_
  refine (gives_required (by simp) (Analysis.restores hR' r.analysis)).bind ?_
  have hresults := restores_listOf hR' _ fun c hc => CallResult.restores hR (h.results c hc)
  refine (gives_required (by simp) hresults).bind ?_
  exact gives_pure r

end ScenarioReport

/-! ## Visits and walks -/

namespace PageVisit

/-- What the visit holds can be written. -/
structure Fits (v : PageVisit) : Prop where
  totalRequests : v.totalRequests < Counter.size
  results : ∀ r ∈ v.results, r.Fits

theorem restores (hR : FaithfulTree R) {v : PageVisit} (h : v.Fits) :
    Restores R PageVisit.read? v.data v := by
  have hR' := hR.toFaithful
  unfold PageVisit.read? PageVisit.data
  refine restores_record hR' (by simp) ?_
  refine (gives_required (by simp) (restores_text hR' v.pageName)).bind ?_
  refine (gives_required (by simp) (restores_real hR' v.totalTimeMs)).bind ?_
  have hresults := restores_listOf hR' _ fun r hr => CallResult.restores hR (h.results r hr)
  refine (gives_required (by simp) hresults).bind ?_
  refine (gives_required (by simp) (restores_count hR' h.totalRequests)).bind ?_
  refine (gives_required (by simp) (restores_real hR' v.successRate)).bind ?_
  refine (gives_required (by simp) (restores_real hR' v.averageResponseMs)).bind ?_
  refine (gives_required (by simp) (restores_flag hR' v.failed)).bind ?_
  exact gives_pure v

end PageVisit

namespace UserWalk

/-- What the walk holds can be written. -/
structure Fits (w : UserWalk) : Prop where
  userIndex : w.userIndex < Counter.size
  totalRequests : w.totalRequests < Counter.size
  visits : ∀ v ∈ w.visits, v.Fits

theorem restores (hR : FaithfulTree R) {w : UserWalk} (h : w.Fits) :
    Restores R UserWalk.read? w.data w := by
  have hR' := hR.toFaithful
  unfold UserWalk.read? UserWalk.data
  refine restores_record hR' (by simp) ?_
  refine (gives_required (by simp) (restores_count hR' h.userIndex)).bind ?_
  refine (gives_required (by simp) (restores_text hR' w.actionName)).bind ?_
  have hvisits := restores_listOf hR' _ fun v hv => PageVisit.restores hR (h.visits v hv)
  refine (gives_required (by simp) hvisits).bind ?_
  refine (gives_required (by simp) (restores_real hR' w.totalTimeMs)).bind ?_
  refine (gives_required (by simp) (restores_count hR' h.totalRequests)).bind ?_
  refine (gives_required (by simp) (restores_real hR' w.successRate)).bind ?_
  refine (gives_required (by simp) (restores_real hR' w.averageResponseMs)).bind ?_
  refine (gives_defaulted (by simp) _ (restores_flag hR' w.failed)).bind ?_
  exact gives_pure w

end UserWalk

end

section

variable {δ : Type} [Source δ] {R : δ → Data → Prop}

/-! ## Figures of load runs -/

theorem PageTimeline.restores (hR : Faithful R) (t : PageTimeline) :
    Restores R PageTimeline.read? t.data t := by
  unfold PageTimeline.read? PageTimeline.data
  refine restores_record hR (by simp) ?_
  refine (gives_required (by simp) (restores_text hR t.name)).bind ?_
  have htimes := restores_listOf hR t.times fun x _ => restores_real hR x
  refine (gives_required (by simp) htimes).bind ?_
  refine (gives_required (by simp) (restores_real hR t.average)).bind ?_
  refine (gives_required (by simp) (restores_real hR t.least)).bind ?_
  refine (gives_required (by simp) (restores_real hR t.greatest)).bind ?_
  exact gives_pure t

/-- A figure is looked up in the same way in whatever order the figures come. -/
theorem lookup_eq_of_perm {α β : Type} [BEq α] [LawfulBEq α] {first second : List (α × β)}
    (hperm : first.Perm second) (hkeys : (first.map Prod.fst).Nodup) (key : α) :
    first.lookup key = second.lookup key := by
  induction hperm with
  | nil => rfl
  | cons p _ ih =>
    rw [List.map_cons, List.nodup_cons] at hkeys
    rw [List.lookup_cons, List.lookup_cons, ih hkeys.2]
  | swap p q rest =>
    have hne : q.1 ≠ p.1 := by
      intro heq
      simp [heq] at hkeys
    rw [List.lookup_cons, List.lookup_cons, List.lookup_cons, List.lookup_cons]
    by_cases hq : key = q.1
    · have hp : (key == p.1) = false := by simp [hq, hne]
      simp only [hp]
    · have hq' : (key == q.1) = false := by simp [hq]
      simp only [hq']
  | trans hfirst _ ih₁ ih₂ =>
    rw [ih₁ hkeys, ih₂ ((hfirst.map Prod.fst).nodup_iff.mp hkeys)]

theorem Complexity.named?_name (c : Complexity) : named? c.name = some c := by
  cases c <;> rfl

theorem Complexity.name_injective : Function.Injective name := by
  intro c c' h
  have hnamed := congrArg named? h
  rwa [named?_name, named?_name, Option.some.injEq] at hnamed

namespace ByComplexity

theorem lookup_entries (b : ByComplexity) (c : Complexity) : b.entries.lookup c = b.get? c := by
  obtain ⟨low, medium, high⟩ := b
  cases low <;> cases medium <;> cases high <;> cases c <;> rfl

theorem nodup_entries (b : ByComplexity) : (b.entries.map Prod.fst).Nodup := by
  obtain ⟨low, medium, high⟩ := b
  cases low <;> cases medium <;> cases high <;> simp [entries, Complexity.all, get?]

/-- The names of complexities do not ascend with them, so the figures come back in another order. -/
theorem restores (hR : Faithful R) (b : ByComplexity) :
    Restores R ByComplexity.read? b.data b := by
  intro v hv
  have hnames : (b.entries.map fun p => p.1.name).Nodup := by
    have hmap := b.nodup_entries.map Complexity.name_injective
    rwa [List.map_map] at hmap
  obtain ⟨pairs, hpairs, hperm⟩ := exists_pairsOf hR Complexity.name hnames
    (fun p _ => ⟨p.1.named?_name, restores_real hR p.2⟩) hv
  have hkeys : (pairs.map Prod.fst).Nodup :=
    (hperm.map Prod.fst).nodup_iff.mpr b.nodup_entries
  show (pairsOf Complexity.named? real v).bind
    (fun pairs => some (tabulate fun c => pairs.lookup c)) = some b
  rw [hpairs, Option.bind_some]
  have hlookup : (fun c => pairs.lookup c) = b.get? := by
    funext c
    rw [lookup_eq_of_perm hperm hkeys, lookup_entries]
  rw [hlookup]
  rfl

end ByComplexity

theorem ComplexityProfile.restores (hR : Faithful R) (p : ComplexityProfile) :
    Restores R ComplexityProfile.read? p.data p := by
  unfold ComplexityProfile.read? ComplexityProfile.data
  refine restores_record hR (by simp) ?_
  refine (gives_required (by simp) (ByComplexity.restores hR p.averageTimes)).bind ?_
  refine (gives_required (by simp) (ByComplexity.restores hR p.distribution)).bind ?_
  exact gives_pure p

end

/-! ## Load reports -/

section

variable {δ : Type} [TreeSource δ] {R : δ → Data → Prop}

namespace LoadReport

/-- What the report holds can be written. -/
structure Fits (r : LoadReport) : Prop where
  nominalUsers : r.nominalUsers < Counter.size
  concurrentUsers : r.concurrentUsers < Counter.size
  failedUsers : r.failedUsers < Counter.size
  totalRequests : r.totalRequests < Counter.size
  pageNames : (r.averagePageLoadMs.map Prod.fst).Pairwise (· < ·)
  errors : ∀ e ∈ r.errors, e.Fits
  walks : ∀ w ∈ r.walks, w.Fits

/-- The fields of the written form. -/
def entries (r : LoadReport) : List (String × Data) :=
  [("scenario_name", .text r.scenarioName), ("description", .text r.description),
    ("nominal_users", .natural r.nominalUsers), ("concurrent_users", .natural r.concurrentUsers),
    ("failed_users", .natural r.failedUsers), ("total_time_ms", .real r.totalTimeMs),
    ("total_requests", .natural r.totalRequests), ("success_rate", .real r.successRate),
    ("failure_rate", .real r.failureRate), ("average_response_ms", .real r.averageResponseMs),
    ("min_response_ms", .real r.leastResponseMs), ("max_response_ms", .real r.greatestResponseMs),
    ("latency", r.latency.data),
    ("average_page_load_ms", .record (r.averagePageLoadMs.map fun (k, x) => (k, .real x))),
    ("average_page_load_time", .real r.averagePageLoadTime),
    ("page_timelines", .list (r.pageTimelines.map PageTimeline.data)),
    ("complexity", r.complexity.data), ("throughput", .real r.throughput),
    ("errors", .optional ErrorSummary.data r.errors),
    ("users", .list (r.walks.map UserWalk.data))]

theorem gives_fields (hR : FaithfulTree R) {r : LoadReport} (h : r.Fits) :
    Gives R fields r.entries r := by
  have hR' := hR.toFaithful
  unfold fields
  refine (gives_required (by simp [entries]) (restores_text hR' r.scenarioName)).bind ?_
  refine (gives_required (by simp [entries]) (restores_text hR' r.description)).bind ?_
  refine (gives_required (by simp [entries]) (restores_count hR' h.nominalUsers)).bind ?_
  refine (gives_required (by simp [entries]) (restores_count hR' h.concurrentUsers)).bind ?_
  refine (gives_defaulted (by simp [entries]) _ (restores_count hR' h.failedUsers)).bind ?_
  refine (gives_required (by simp [entries]) (restores_real hR' r.totalTimeMs)).bind ?_
  refine (gives_required (by simp [entries]) (restores_count hR' h.totalRequests)).bind ?_
  refine (gives_required (by simp [entries]) (restores_real hR' r.successRate)).bind ?_
  refine (gives_required (by simp [entries]) (restores_real hR' r.failureRate)).bind ?_
  refine (gives_required (by simp [entries]) (restores_real hR' r.averageResponseMs)).bind ?_
  refine (gives_required (by simp [entries]) (restores_real hR' r.leastResponseMs)).bind ?_
  refine (gives_required (by simp [entries]) (restores_real hR' r.greatestResponseMs)).bind ?_
  refine (gives_required (by simp [entries]) (Latency.restores hR' r.latency)).bind ?_
  have hloads := restores_pairsOf hR' id h.pageNames fun t _ => ⟨rfl, restores_real hR' t.2⟩
  refine (gives_required (by simp [entries, pairFields]) hloads).bind ?_
  refine (gives_required (by simp [entries]) (restores_real hR' r.averagePageLoadTime)).bind ?_
  have htimelines := restores_listOf hR' r.pageTimelines fun t _ => PageTimeline.restores hR' t
  refine (gives_required (by simp [entries]) htimelines).bind ?_
  refine (gives_required (by simp [entries]) (ComplexityProfile.restores hR' r.complexity)).bind ?_
  refine (gives_required (by simp [entries]) (restores_real hR' r.throughput)).bind ?_
  refine (gives_optionalNamed hR' ErrorSummary.data r.errors (by simp [entries]) fun e he =>
    ⟨Data.noConfusion, ErrorSummary.restores hR' (h.errors e he)⟩).bind ?_
  have hwalks := restores_listOf hR' _ fun w hw => UserWalk.restores hR (h.walks w hw)
  refine (gives_required (by simp [entries]) hwalks).bind ?_
  exact gives_pure r

theorem restores (hR : FaithfulTree R) {r : LoadReport} (h : r.Fits) :
    Restores R LoadReport.read? r.data r :=
  restores_record hR.toFaithful (by simp) (gives_fields hR h)

end LoadReport

/-! ## Staged reports -/

theorem StagingMode.restores (hR : Faithful R) (m : StagingMode) :
    Restores R StagingMode.read? m.data m := by
  apply restores_choice hR
  cases m <;> rfl


theorem StageRow.restores (hR : Faithful R) {row : StageRow} (h : row.userCount < Counter.size) :
    Restores R StageRow.read? row.data row := by
  unfold StageRow.read? StageRow.data
  refine restores_record hR (by simp) ?_
  refine (gives_required (by simp) (restores_text hR row.name)).bind ?_
  refine (gives_required (by simp) (restores_count hR h)).bind ?_
  refine (gives_required (by simp) (restores_real hR row.averageResponseMs)).bind ?_
  refine (gives_required (by simp) (restores_real hR row.p95)).bind ?_
  refine (gives_required (by simp) (restores_real hR row.throughput)).bind ?_
  refine (gives_required (by simp) (restores_real hR row.successRate)).bind ?_
  exact gives_pure row

namespace StagedReport

/-- What the report holds can be written. -/
structure Fits (r : StagedReport) : Prop where
  stages : ∀ stage ∈ r.stages, stage.Fits
  totalUsers : r.totalUsers < Counter.size
  totalRequests : r.totalRequests < Counter.size
  comparison : ∀ row ∈ r.comparison, row.userCount < Counter.size

theorem gives_fields (hR : FaithfulTree R) {r : StagedReport} (h : r.Fits) :
    Gives R fields (r.entries LoadReport.data) r := by
  have hR' := hR.toFaithful
  unfold fields
  refine (gives_required (by simp [entries]) (restores_text hR' r.scenarioName)).bind ?_
  refine (gives_required (by simp [entries]) (restores_text hR' r.description)).bind ?_
  refine (gives_required (by simp [entries]) (StagingMode.restores hR' r.mode)).bind ?_
  have hstages := restores_listOf hR' _ fun stage hs => LoadReport.restores hR (h.stages stage hs)
  refine (gives_required (by simp [entries]) hstages).bind ?_
  refine (gives_required (by simp [entries]) (restores_count hR' h.totalUsers)).bind ?_
  refine (gives_required (by simp [entries]) (restores_count hR' h.totalRequests)).bind ?_
  refine (gives_required (by simp [entries]) (restores_real hR' r.averageResponseMs)).bind ?_
  refine (gives_required (by simp [entries]) (restores_real hR' r.successRate)).bind ?_
  refine (gives_required (by simp [entries]) (Latency.restores hR' r.latency)).bind ?_
  have hrows := restores_listOf hR' _ fun row hr => StageRow.restores hR' (h.comparison row hr)
  refine (gives_required (by simp [entries]) hrows).bind ?_
  exact gives_pure r

theorem restores (hR : FaithfulTree R) {r : StagedReport} (h : r.Fits) :
    Restores R StagedReport.read? r.data r :=
  restores_record hR.toFaithful (by simp [entries]) (gives_fields hR h)

end StagedReport

namespace LoadOutcome

/-- What the report holds can be written. -/
def Fits : LoadOutcome → Prop
  | .single r => r.Fits
  | .staged r => r.Fits

/-- The kind of a report stands beside its fields, which have other names. -/
theorem restores (hR : FaithfulTree R) {o : LoadOutcome} (h : o.Fits) :
    Restores R LoadOutcome.read? o.data o := by
  cases o with
  | single r =>
    have hfields := LoadReport.gives_fields SetAside.faithful h
    exact restores_tagged hR (by simp) rfl hfields.map
  | staged r =>
    have hfields := StagedReport.gives_fields SetAside.faithful h
    exact restores_tagged hR (by simp [StagedReport.entries]) rfl hfields.map

end LoadOutcome

end

/-! ## Comparisons -/

section

variable {δ : Type} [Source δ] {R : δ → Data → Prop}

theorem Snapshot.restores (hR : Faithful R) (s : Snapshot) :
    Restores R Snapshot.read? s.data s := by
  unfold Snapshot.read? Snapshot.readWith? Snapshot.data
  refine restores_record hR (by simp) ?_
  refine (gives_required (by simp) (restores_text hR s.name)).bind ?_
  refine (gives_required (by simp) (restores_real hR s.successRate)).bind ?_
  refine (gives_required (by simp) (restores_real hR s.averageResponseMs)).bind ?_
  refine (gives_required (by simp) (restores_real hR s.p95)).bind ?_
  refine (gives_required (by simp) (restores_real hR s.throughput)).bind ?_
  exact gives_pure s

theorem Verdict.restores (hR : Faithful R) (v : Verdict) : Restores R Verdict.read? v.data v := by
  apply restores_choice hR
  cases v <;> rfl

theorem Comparison.restores (hR : Faithful R) (c : Comparison) :
    Restores R Comparison.read? c.data c := by
  unfold Comparison.read? Comparison.data
  refine restores_record hR (by simp) ?_
  refine (gives_required (by simp) (Snapshot.restores hR c.baseline)).bind ?_
  refine (gives_required (by simp) (Snapshot.restores hR c.candidate)).bind ?_
  refine (gives_required (by simp) (restores_real hR c.successPoints)).bind ?_
  refine (gives_required (by simp) (restores_real hR c.averageResponseChange)).bind ?_
  refine (gives_required (by simp) (restores_real hR c.p95Change)).bind ?_
  refine (gives_required (by simp) (restores_real hR c.throughputChange)).bind ?_
  refine (gives_required (by simp) (Verdict.restores hR c.verdict)).bind ?_
  exact gives_pure c

end

end LoadBench
