import Mathlib.Tactic
import LoadBench.Proofs.Run.LoadRun

/-!
# Reports without what is measured

How long a run, a walk and the visit of a page take is measured, and is another time in every run.
The rest of a report comes from the mix and from what its calls come to, so runs of one mix whose
calls come to the same make reports that differ in the measured figures only.

Results:
* `LoadReport.unmeasured_ofWalks`: without what is measured, a report on walks depends on nothing
  that is measured of the walks.
* `Mix.ReportInTurn.unmeasured_eq`: reports on uncancelled runs of a mix are the same, apart from
  what is measured.
-/

namespace LoadBench

/-! ## What is measured -/

/-- A visit without the time it took. -/
def PageVisit.unmeasured (v : PageVisit) : PageVisit := { v with totalTimeMs := 0.0 }

/-- A walk without the time it took, and its visits without theirs. -/
def UserWalk.unmeasured (w : UserWalk) : UserWalk :=
  { w with visits := w.visits.map PageVisit.unmeasured, totalTimeMs := 0.0 }

/-- The visits of a page without their times: it stays how many there were. -/
def PageTimeline.unmeasured (t : PageTimeline) : PageTimeline :=
  { t with times := t.times.map fun _ => 0.0, average := 0.0, least := 0.0, greatest := 0.0 }

/-- A report without the times of its run, walks and visits, and without the figures that are drawn
    from these times. The times of the calls stay: they are part of what the calls come to. -/
def LoadReport.unmeasured (r : LoadReport) : LoadReport :=
  { r with
    totalTimeMs := 0.0
    averagePageLoadMs := r.averagePageLoadMs.map fun figure => (figure.1, 0.0)
    averagePageLoadTime := 0.0
    pageTimelines := r.pageTimelines.map PageTimeline.unmeasured
    throughput := 0.0
    walks := r.walks.map UserWalk.unmeasured }

/-! ## Visits and walks -/

theorem PageVisit.unmeasured_unmeasured (v : PageVisit) : v.unmeasured.unmeasured = v.unmeasured :=
  rfl

theorem flatMap_results_unmeasured (visits : List PageVisit) :
    (visits.map PageVisit.unmeasured).flatMap (·.results) = visits.flatMap (·.results) := by
  rw [List.flatMap_map]
  rfl

namespace UserWalk

theorem unmeasured_unmeasured (w : UserWalk) : w.unmeasured.unmeasured = w.unmeasured := by
  simp only [unmeasured, List.map_map, Function.comp_def, PageVisit.unmeasured_unmeasured]

@[simp] theorem results_unmeasured (w : UserWalk) : w.unmeasured.results = w.results :=
  flatMap_results_unmeasured w.visits

/-- Without what is measured, a walk depends on nothing that is measured of its visits. -/
theorem unmeasured_ofVisits (index : Nat) (name : String) (visits : List PageVisit) :
    (ofVisits index name visits).unmeasured =
      (ofVisits index name (visits.map PageVisit.unmeasured)).unmeasured := by
  simp only [ofVisits, unmeasured, flatMap_results_unmeasured, List.map_map, Function.comp_def,
    PageVisit.unmeasured_unmeasured]

end UserWalk

theorem flatMap_walkResults_unmeasured (walks : List UserWalk) :
    (walks.map UserWalk.unmeasured).flatMap UserWalk.results = walks.flatMap UserWalk.results := by
  simp only [List.flatMap_map, UserWalk.results_unmeasured]

theorem flatMap_visits_unmeasured (walks : List UserWalk) :
    (walks.map UserWalk.unmeasured).flatMap (·.visits) =
      (walks.flatMap (·.visits)).map PageVisit.unmeasured := by
  rw [List.flatMap_map, List.map_flatMap]
  rfl

/-! ## Pages -/

namespace PageTimeline

/-- Which pages there are, and how often each was visited, is not measured. -/
theorem map_unmeasured_ofVisits (visits : List PageVisit) :
    (ofVisits (visits.map PageVisit.unmeasured)).map unmeasured =
      (ofVisits visits).map unmeasured := by
  have hnames : (visits.map PageVisit.unmeasured).map (·.pageName) = visits.map (·.pageName) := by
    rw [List.map_map]
    rfl
  have htimes : ∀ name,
      (timesOf (visits.map PageVisit.unmeasured) name).map (fun _ => (0.0 : Float)) =
        (timesOf visits name).map fun _ => 0.0 := by
    intro name
    simp only [timesOf, List.filter_map, List.map_map, Function.comp_def]
    rfl
  unfold ofVisits
  rw [hnames, List.map_map, List.map_map]
  apply List.map_congr_left
  intro name _
  simp only [Function.comp_apply, unmeasured, ofTimes, htimes]

theorem map_name_unmeasured {timelines others : List PageTimeline}
    (h : timelines.map unmeasured = others.map unmeasured) :
    timelines.map (·.name) = others.map (·.name) := by
  have hnames := congrArg (List.map (·.name)) h
  rw [List.map_map, List.map_map] at hnames
  exact hnames

end PageTimeline

/-- Without the figures it stays in which order their names come. -/
theorem sortedFigures_unmeasured (timelines : List PageTimeline) :
    (sortedFigures (timelines.map fun t => (t.name, t.average))).map
        (fun figure => (figure.1, 0.0)) =
      sortedFigures ((timelines.map (·.name)).map fun name => (name, 0.0)) := by
  unfold sortedFigures
  have hsort := List.map_mergeSort (f := fun figure : String × Float => (figure.1, (0.0 : Float)))
    (l := timelines.map fun t => (t.name, t.average)) (r := fun a b => decide (a.1 ≤ b.1))
    (s := fun a b => decide (a.1 ≤ b.1)) fun _ _ _ _ => rfl
  rw [hsort, List.map_map, List.map_map]
  rfl

/-! ## Reports -/

namespace LoadReport

theorem inOrder_unmeasured (walks : List UserWalk) :
    inOrder (walks.map UserWalk.unmeasured) = (inOrder walks).map UserWalk.unmeasured := by
  unfold inOrder
  rw [List.map_mergeSort]
  intro a _ b _
  rfl

/-- Without what is measured, a report depends on nothing that is measured of the walks and of the
    run. -/
theorem unmeasured_ofWalks (m : Mix) (walks : List UserWalk) (totalTimeMs : Float) :
    (ofWalks m walks totalTimeMs).unmeasured =
      (ofWalks m (walks.map UserWalk.unmeasured) 0.0).unmeasured := by
  have htimelines := PageTimeline.map_unmeasured_ofVisits ((inOrder walks).flatMap (·.visits))
  have hnames := PageTimeline.map_name_unmeasured htimelines
  have hfailed : ((inOrder walks).map UserWalk.unmeasured).countP (·.failed) =
      (inOrder walks).countP (·.failed) := List.countP_map
  have hwalks : ((inOrder walks).map UserWalk.unmeasured).map UserWalk.unmeasured =
      (inOrder walks).map UserWalk.unmeasured := by
    simp only [List.map_map, Function.comp_def, UserWalk.unmeasured_unmeasured]
  simp only [ofWalks, unmeasured, inOrder_unmeasured, flatMap_walkResults_unmeasured,
    flatMap_visits_unmeasured, htimelines, sortedFigures_unmeasured, hnames, hfailed, hwalks,
    List.length_map]

end LoadReport

/-! ## Runs in turn -/

theorem map_mapIdx_congr {α β γ : Type} {f f' : Nat → α → β} {g : β → γ}
    (h : ∀ i x, g (f i x) = g (f' i x)) (l : List α) :
    (l.mapIdx f).map g = (l.mapIdx f').map g := by
  apply List.ext_getElem?
  intro i
  simp only [List.getElem?_map, List.getElem?_mapIdx, Option.map_map, Function.comp_def, h]

theorem Page.unmeasured_visitInTurn (p : Page) (ends : Nat → CallEnd)
    (elapsedMs elapsedMs' : Float) :
    (p.visitInTurn ends elapsedMs).unmeasured = (p.visitInTurn ends elapsedMs').unmeasured := by
  unfold visitInTurn
  cases resultsInTurn p.size ends <;> rfl

namespace UserAction

variable (a : UserAction) (index : Nat) (service : Nat → Nat → CallEnd)
  (times times' : Nat → Float)

theorem unmeasured_walkInTurn :
    (a.walkInTurn index service times).unmeasured =
      (a.walkInTurn index service times').unmeasured := by
  unfold walkInTurn
  have hvisits := map_mapIdx_congr (g := PageVisit.unmeasured)
    (fun k page => Page.unmeasured_visitInTurn page (service k) (times k) (times' k)) a.pages
  rw [UserWalk.unmeasured_ofVisits, hvisits, ← UserWalk.unmeasured_ofVisits]

theorem unmeasured_recordInTurn :
    (a.recordInTurn index service times).unmeasured =
      (a.recordInTurn index service times').unmeasured := by
  unfold recordInTurn
  split_ifs
  · exact unmeasured_walkInTurn a index service times times'
  · rfl

end UserAction

namespace Mix

variable {m : Mix} {service : Nat → Nat → Nat → CallEnd} {report report' : LoadReport}

/-- What is on record of the users does not depend on the times, apart from what is measured. -/
theorem map_unmeasured_recordsInTurn (m : Mix) (service : Nat → Nat → Nat → CallEnd)
    (times times' : Nat → Nat → Float) :
    (m.recordsInTurn service times).map UserWalk.unmeasured =
      (m.recordsInTurn service times').map UserWalk.unmeasured :=
  map_mapIdx_congr (fun user action =>
    action.unmeasured_recordInTurn user (service user) (times user) (times' user)) m.roster

/-- Reports on uncancelled runs of a mix whose calls come to the same are the same, apart from what
    is measured. -/
theorem ReportInTurn.unmeasured_eq (h : m.ReportInTurn service report)
    (h' : m.ReportInTurn service report') : report.unmeasured = report'.unmeasured := by
  obtain ⟨times, totalTimeMs, rfl⟩ := h.report_eq
  obtain ⟨times', totalTimeMs', rfl⟩ := h'.report_eq
  rw [LoadReport.unmeasured_ofWalks, map_unmeasured_recordsInTurn m service times times',
    ← LoadReport.unmeasured_ofWalks]

end Mix

end LoadBench
