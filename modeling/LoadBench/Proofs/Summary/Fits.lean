import LoadBench.Proofs.Measure.Errors
import LoadBench.Proofs.Summary.Pages
import LoadBench.Proofs.Summary.Written

/-!
# What runs report can be written

A report counts the results that it is drawn from, and what their payloads say about the service.
If the results can be written, and there are no more of them than a counter can hold, the report on
them can be written as well.

Results:
* `ErrorSummary.fits_ofResults`: failures by their messages.
* `Telemetry.fits_ofPayload`, `Connections.fits_ofTelemetry`: whatever a payload says, what is read
  from it can be held.
* `ScenarioReport.fits_ofIterations`, `LoadReport.fits_ofWalks`, `StagedReport.fits_ofStages`:
  reports on runs.
-/

namespace LoadBench

/-! ## Failures -/

theorem ErrorSummary.fits_ofResults {results : List CallResult}
    (h : results.length < Counter.size) : ∀ e ∈ ofResults results, e.Fits := by
  intro e he
  obtain ⟨hcount, -, htotal⟩ := Tallies.of_ofResults he
  have hfits : e.count < Counter.size := by omega
  refine ⟨hfits, (Classifies.of_ofResults he).wellFormed.ascending, fun entry hentry => ?_⟩
  · have hle := Histogram.le_total hentry
    omega

/-! ## What payloads say -/

theorem integerPart_le (x : Float) : integerPart x ≤ signedMax := by
  unfold integerPart
  split
  · exact max_le (by decide) (min_le_right _ _)
  · decide

theorem leadingIntOfText_le (s : String) : leadingIntOfText s ≤ signedMax := by
  have hmax : (0 : Int) ≤ signedMax := by decide
  unfold leadingIntOfText
  split
  dsimp only
  split_ifs with hlarge
  · exact hmax
  · omega
  · exact not_lt.mp hlarge

/-- However large a counter is said to be, a signed word is the largest that is believed. -/
theorem leadingInt_le (d : Option Data) : leadingInt d ≤ signedMax := by
  unfold leadingInt
  split
  · split_ifs with hrange
    · simp only [Bool.and_eq_true, decide_eq_true_eq] at hrange
      exact hrange.2
    · exact integerPart_le _
  · exact integerPart_le _
  · exact leadingIntOfText_le _
  · decide

theorem counter_lt (d : Option Data) : counter d < Counter.size := by
  have hle : leadingInt d ≤ signedMax := leadingInt_le d
  have hmax : signedMax < Counter.size := by decide
  have hsize : 0 < Counter.size := by decide
  unfold counter
  omega

theorem SessionSample.fits_ofReport {iteration : Nat} {timestamp : Instant}
    (hiteration : iteration < Counter.size) (htimestamp : timestamp.ReadsBack) (report : Data) :
    (ofReport iteration timestamp report).Fits :=
  ⟨hiteration, htimestamp, counter_lt _, counter_lt _, counter_lt _, counter_lt _, counter_lt _⟩

theorem PoolSample.fits_ofReport {iteration : Nat} {timestamp : Instant}
    (hiteration : iteration < Counter.size) (htimestamp : timestamp.ReadsBack) (report : Data) :
    (ofReport iteration timestamp report).Fits :=
  ⟨hiteration, htimestamp, counter_lt _, counter_lt _, counter_lt _, counter_lt _⟩

namespace Telemetry

theorem fits_empty : empty.Fits := ⟨by simp [empty], by simp [empty], by simp [empty]⟩

theorem Fits.append {t u : Telemetry} (ht : t.Fits) (hu : u.Fits) : (t ++ u).Fits where
  sessions s hs := (List.mem_append.mp hs).elim (ht.sessions s) (hu.sessions s)
  pools s hs := (List.mem_append.mp hs).elim (ht.pools s) (hu.pools s)
  queries s hs := (List.mem_append.mp hs).elim (ht.queries s) (hu.queries s)

/-- Whatever a payload says, its samples can be held. -/
theorem fits_ofPayload {iteration : Nat} {timestamp : Instant}
    (hiteration : iteration < Counter.size) (htimestamp : timestamp.ReadsBack) (payload : Data) :
    (ofPayload iteration timestamp payload).Fits where
  sessions s hs := by
    obtain ⟨report, -, rfl⟩ := Option.map_eq_some_iff.mp (Option.mem_toList.mp hs)
    exact SessionSample.fits_ofReport hiteration htimestamp report
  pools s hs := by
    obtain ⟨report, -, rfl⟩ := Option.map_eq_some_iff.mp (Option.mem_toList.mp hs)
    exact PoolSample.fits_ofReport hiteration htimestamp report
  queries s hs := by
    obtain ⟨entry, -, rfl⟩ := List.mem_map.mp hs
    exact hiteration

end Telemetry

theorem Iteration.fits_telemetry {it : Iteration} (h : it.Fits) : it.telemetry.Fits := by
  refine List.foldlRecOn it.results _ Telemetry.fits_empty fun t ht r hr => ?_
  split
  · next payload _ =>
    exact ht.append (Telemetry.fits_ofPayload h.index (h.results r hr).completedAt payload)
  · exact ht

namespace SessionSummary

/-- The largest of some counters can be held as they can. -/
theorem largest_lt {ns : List Nat} (h : ∀ n ∈ ns, n < Counter.size) : largest ns < Counter.size :=
  List.foldlRecOn (motive := (· < Counter.size)) ns max (by decide) fun _ hb n hn =>
    max_lt hb (h n hn)

theorem fits_ofSamples {samples : List SessionSample} (h : ∀ s ∈ samples, s.Fits) :
    ∀ s ∈ ofSamples samples, s.Fits := by
  intro s hs
  have hlargest {f : SessionSample → Nat} (hf : ∀ s, s.Fits → f s < Counter.size) :
      largest (samples.map f) < Counter.size := by
    refine largest_lt fun n hn => ?_
    obtain ⟨s, hs, rfl⟩ := List.mem_map.mp hn
    exact hf s (h s hs)
  change ofSamples samples = some s at hs
  unfold ofSamples at hs
  split_ifs at hs
  obtain rfl := Option.some.inj hs
  exact ⟨hlargest fun s hs => hs.threadsConnected, hlargest fun s hs => hs.threadsRunning,
    hlargest fun s hs => hs.maxUsedConnections⟩

end SessionSummary

theorem PoolSummary.fits_ofSamples {samples : List PoolSample} (h : ∀ s ∈ samples, s.Fits) :
    ∀ s ∈ ofSamples samples, s.Fits := by
  intro s hs
  cases samples with
  | nil => cases hs
  | cons first rest =>
    obtain rfl := Option.some.inj hs
    have hfirst := h first List.mem_cons_self
    exact ⟨hfirst.maxConnections, hfirst.waitTimeout⟩

theorem QuerySummary.count_ofSamples {samples : List QuerySample} :
    ∀ s ∈ ofSamples samples, s.count = samples.length := by
  intro s hs
  change ofSamples samples = some s at hs
  unfold ofSamples at hs
  split_ifs at hs
  obtain rfl := Option.some.inj hs
  rfl

theorem Connections.fits_ofTelemetry {t : Telemetry} (h : t.Fits)
    (hqueries : t.queries.length < Counter.size) : (ofTelemetry t).Fits where
  session := SessionSummary.fits_ofSamples h.sessions
  pool := PoolSummary.fits_ofSamples h.pools
  queries s hs := (QuerySummary.count_ofSamples s hs).trans_lt hqueries

/-! ## Scenarios -/

/-- The samples of the iterations, one after the other. -/
theorem Telemetry.fits_ofIterations {iterations : List Iteration} (h : ∀ it ∈ iterations, it.Fits) :
    (iterations.foldl (fun t it => t ++ it.telemetry) empty).Fits :=
  List.foldlRecOn iterations _ fits_empty fun _ ht it hit =>
    ht.append (Iteration.fits_telemetry (h it hit))

/-- A report on iterations can be written if they can, and if there are not too many calls, results
    and samples. -/
theorem ScenarioReport.fits_ofIterations {s : Scenario} {iterations : List Iteration}
    (hs : s.Fits) (h : ∀ it ∈ iterations, it.Fits) (elapsedMs : Float)
    (hcalls : s.totalRequests < Counter.size)
    (hresults : (ofIterations s iterations elapsedMs).results.length < Counter.size)
    (hqueries : (ofIterations s iterations elapsedMs).telemetry.queries.length < Counter.size) :
    (ofIterations s iterations elapsedMs).Fits where
  iterations := hs.1
  totalRequests := hcalls
  completedRequests := hresults
  failedIterations n hn := by
    obtain ⟨it, hit, rfl⟩ := List.mem_map.mp hn
    exact (h it (List.mem_filter.mp hit).1).index
  errors := ErrorSummary.fits_ofResults hresults
  connections := Connections.fits_ofTelemetry (Telemetry.fits_ofIterations h) hqueries
  telemetry := Telemetry.fits_ofIterations h
  results c hc := by
    obtain ⟨it, hit, hc⟩ := List.mem_flatMap.mp hc
    exact (h it hit).results c hc

/-! ## Mixes -/

theorem PageVisit.Made.fits {v : PageVisit} (h : v.Made) (hresults : ∀ r ∈ v.results, r.Fits)
    (hlength : v.results.length < Counter.size) : v.Fits := by
  refine ⟨?_, hresults⟩
  rwa [h.totalRequests_eq]

theorem UserWalk.Made.fits {w : UserWalk} (h : w.Made) (hindex : w.userIndex < Counter.size)
    (hresults : ∀ r ∈ w.results, r.Fits) (hlength : w.results.length < Counter.size) : w.Fits := by
  refine ⟨hindex, ?_, fun v hv => ?_⟩
  · rwa [h.totalRequests_eq]
  · have hsublist : v.results.Sublist w.results :=
      List.sublist_flatten_of_mem (List.mem_map_of_mem hv)
    exact (h.visits_made v hv).fits (fun r hr => hresults r (hsublist.subset hr))
      (hsublist.length_le.trans_lt hlength)

namespace LoadReport

/-- A report on walks can be written if the calls in them can, and if there are not too many calls
    and users. -/
theorem fits_ofWalks {m : Mix} {walks : List UserWalk} (hm : m.users < Counter.size)
    (h : ∀ w ∈ walks, w.Made) (hindex : ∀ w ∈ walks, w.userIndex < Counter.size)
    (hcalls : ∀ w ∈ walks, ∀ r ∈ w.results, r.Fits) (totalTimeMs : Float)
    (hwalks : walks.length < Counter.size)
    (hresults : (walks.flatMap UserWalk.results).length < Counter.size) :
    (ofWalks m walks totalTimeMs).Fits := by
  have hperm := perm_inOrder walks
  have hlength : ((inOrder walks).flatMap UserWalk.results).length < Counter.size := by
    rwa [(hperm.flatMap_right _).length_eq]
  refine ⟨hm, ?_, ?_, hlength, ?_, ErrorSummary.fits_ofResults hlength, ?_⟩
  · rwa [← hperm.length_eq] at hwalks
  · show (inOrder walks).countP _ < _
    rw [hperm.countP_eq]
    exact List.countP_le_length.trans_lt hwalks
  · refine ascending_sortedFigures ?_
    rw [List.map_map]
    exact (PageTimeline.partitions_ofVisits _).distinct
  · intro w hw
    have hw : w ∈ walks := hperm.mem_iff.mp hw
    have hsublist : w.results.Sublist (walks.flatMap UserWalk.results) :=
      List.sublist_flatten_of_mem (List.mem_map_of_mem hw)
    exact (h w hw).fits (hindex w hw) (hcalls w hw) (hsublist.length_le.trans_lt hresults)

end LoadReport

/-- A report on stages can be written if those on the stages can. -/
theorem StagedReport.fits_ofStages {m : Mix} {stages : List LoadReport}
    (hm : m.users < Counter.size) (h : ∀ stage ∈ stages, stage.Fits) (mode : StagingMode)
    (hresults : (stages.flatMap LoadReport.results).length < Counter.size) :
    (ofStages mode m stages).Fits where
  stages := h
  totalUsers := hm
  totalRequests := hresults
  comparison row hrow := by
    obtain ⟨stage, hstage, rfl⟩ := List.mem_map.mp hrow
    exact (h stage hstage).concurrentUsers

end LoadBench
