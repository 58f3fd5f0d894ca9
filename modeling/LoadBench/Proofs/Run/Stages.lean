import Mathlib.Tactic
import LoadBench.Proofs.Plan.Ramp
import LoadBench.Proofs.Run.Cancellation
import LoadBench.Proofs.Run.Completion
import LoadBench.Proofs.Run.Report
import LoadBench.Proofs.Summary.Unmeasured

/-!
# Staged runs

A staged run performs a mix for one number of users after the other. The stages that are planned,
the reports on them and the rows that compare them are lists of one order: every stage has the
report that it would have alone, and the row that repeats figures of that report. A cancellation
ends the run with the stage in which it comes, and so does a stage whose roster cannot be held.

Results:
* `Scheduler.stagesInTurn_of_runStages`: uncancelled stages have their reports, one a stage.
* `Scheduler.continues_append`: stages that have come somewhere can go on to a result.
* `Scheduler.end_of_runStages`: stages have all their reports, or end with the fault of one of them.
* `StagesInTurn.linesUp`: the stages, the reports and the rows of a staged report line up.
* `stagedRuns_lineUp`: they do in gradual runs and in bursts.
* `not_stagedRuns_lineUp`: stages that cannot be held have no report.
-/

namespace LoadBench

/-! ## Stages one after the other -/

/-- A list is made of the entries in front of a place, the entry at the place and those after it. -/
theorem take_append_drop_of_getElem? {α : Type} {l : List α} {k : Nat} {x : α}
    (h : l[k]? = some x) : l.take k ++ x :: l.drop (k + 1) = l ∧ (l.take k).length = k := by
  obtain ⟨hk, hat⟩ := List.getElem?_eq_some_iff.mp h
  constructor
  · rw [← hat, ← List.drop_eq_getElem_cons hk, List.take_append_drop]
  · rw [List.length_take]
    omega

/-- The reports of stages, the first of which runs at a place: one a stage, each that of the users
    of the stage walking one after the other. -/
structure StagesInTurn (place : Nat) (services : Nat → Nat → Nat → Nat → CallEnd)
    (stages : List Mix) (reports : List LoadReport) : Prop where
  length : reports.length = stages.length
  stage : ∀ (k : Nat) (m : Mix), stages[k]? = some m →
    ∃ r, reports[k]? = some r ∧ m.ReportInTurn (services (place + k)) r

theorem StagesInTurn.nil (place : Nat) (services : Nat → Nat → Nat → Nat → CallEnd) :
    StagesInTurn place services [] [] where
  length := rfl
  stage k m hm := by simp at hm

theorem StagesInTurn.cons {place : Nat} {services : Nat → Nat → Nat → Nat → CallEnd}
    {stages : List Mix} {reports : List LoadReport} {m : Mix} {r : LoadReport}
    (hr : m.ReportInTurn (services place) r)
    (h : StagesInTurn (place + 1) services stages reports) :
    StagesInTurn place services (m :: stages) (r :: reports) where
  length := congrArg (· + 1) h.length
  stage k m' hm' := by
    cases k with
    | zero =>
      cases hm'
      exact ⟨r, rfl, hr⟩
    | succ k =>
      have hplace : place + (k + 1) = place + 1 + k := by omega
      rw [hplace]
      exact h.stage k m' hm'

/-- No move of the stages, the first of which runs at a place, is a cancellation. -/
def Uncancelled (place : Nat) (courses : Nat → Course) (stages : List Mix) : Prop :=
  ∀ (k : Nat) (m : Mix), stages[k]? = some m →
    LoadMove.cancel ∉ (courses (place + k)).moves (.start m false)

theorem uncancelled_cons {place : Nat} {courses : Nat → Course} {m : Mix} {stages : List Mix} :
    Uncancelled place courses (m :: stages) ↔
      LoadMove.cancel ∉ (courses place).moves (.start m false) ∧
        Uncancelled (place + 1) courses stages := by
  have hplace : ∀ k, place + (k + 1) = place + 1 + k := fun k => by omega
  constructor
  · intro h
    refine ⟨h 0 m rfl, fun k m' hm' => ?_⟩
    rw [← hplace]
    exact h (k + 1) m' hm'
  · rintro ⟨hfirst, hlater⟩ k m' hm'
    cases k with
    | zero =>
      cases hm'
      exact hfirst
    | succ k =>
      rw [hplace]
      exact hlater k m' hm'

theorem uncancelled_append {place : Nat} {courses : Nat → Course} {earlier later : List Mix} :
    Uncancelled place courses (earlier ++ later) ↔
      Uncancelled place courses earlier ∧ Uncancelled (place + earlier.length) courses later := by
  induction earlier generalizing place with
  | nil =>
    have hnone : Uncancelled place courses [] := fun k m hm => by simp at hm
    simp [hnone]
  | cons m earlier ih =>
    have hplace : place + (m :: earlier).length = place + 1 + earlier.length := by
      rw [List.length_cons]
      omega
    rw [List.cons_append, uncancelled_cons, uncancelled_cons, ih, hplace, and_assoc]

namespace Scheduler

variable {sched : Scheduler} {m : Mix} {place : Nat} {courses courses' : Nat → Course}
  {stages : List Mix}

theorem cancelled_of_runMix (hready : m.ready = .ok ()) (hlive : sched.cancelled = false)
    {course : Course} (hmoves : LoadMove.cancel ∉ course.moves (.start m false))
    {o : Operation LoadReport} (hrun : sched.runMix m place course = some o) :
    o.scheduler.cancelled = false := by
  obtain ⟨r, hplay, -, -, hscheduler⟩ := (runMix_of_ready hready).mp hrun
  rw [hlive] at hplay
  rw [hscheduler]
  exact LoadRun.cancelled_of_play rfl hmoves hplay

/-- Uncancelled stages have their reports, by induction on those that are still to run: none leaves
    the scheduler cancelled. -/
theorem stagesInTurn_of_runStages (hready : ∀ stage ∈ stages, stage.ready = .ok ())
    (hlive : sched.cancelled = false) (hmoves : Uncancelled place courses stages)
    {o : Operation (List LoadReport)} (h : sched.runStages place courses stages = some o) :
    ∃ reports, o.result = .ok reports ∧
      StagesInTurn place (fun k => (courses k).service) stages reports ∧
      o.scheduler.cancelled = false := by
  induction stages generalizing sched place o with
  | nil =>
    cases h
    exact ⟨[], rfl, .nil place _, hlive⟩
  | cons m later ih =>
    rw [uncancelled_cons] at hmoves
    have hm := hready m List.mem_cons_self
    have hlater : ∀ stage ∈ later, stage.ready = .ok () :=
      fun stage hstage => hready stage (List.mem_cons_of_mem _ hstage)
    obtain ⟨first, hfirst, -⟩ := Option.bind_eq_some_iff.mp h
    obtain ⟨report, hok, hreport⟩ := report_of_runMix hm hlive hmoves.1 hfirst
    rw [runStages_of_report hfirst hok] at h
    obtain ⟨others, hothers, rfl⟩ := Option.map_eq_some_iff.mp h
    have hcancel := cancelled_of_runMix hm hlive hmoves.1 hfirst
    obtain ⟨reports, hresult, hstages, hcancel⟩ := ih hlater hcancel hmoves.2 hothers
    refine ⟨report :: reports, ?_, hstages.cons hreport, hcancel⟩
    show others.result.map (report :: ·) = .ok (report :: reports)
    rw [hresult]
    rfl

/-! ## Stages go on -/

/-- Stages depend on the courses at their own places only. -/
theorem runStages_congr (h : ∀ k < stages.length, courses (place + k) = courses' (place + k)) :
    sched.runStages place courses stages = sched.runStages place courses' stages := by
  induction stages generalizing sched place with
  | nil => rfl
  | cons m later ih =>
    have hfirst : courses place = courses' place := h 0 (Nat.succ_pos _)
    have hlater : ∀ sched : Scheduler, sched.runStages (place + 1) courses later =
        sched.runStages (place + 1) courses' later := by
      intro sched
      apply ih
      intro k hk
      have hplace : place + 1 + k = place + (k + 1) := by omega
      rw [hplace]
      exact h (k + 1) (Nat.succ_lt_succ hk)
    rw [runStages, runStages, hfirst]
    simp only [hlater]

/-- The courses with the one at a place changed to some moves. -/
def movesAt (courses : Nat → Course) (place : Nat) (moves : List LoadMove) : Nat → Course :=
  Function.update courses place ⟨(courses place).service, fun _ => moves⟩

@[simp] theorem movesAt_self (courses : Nat → Course) (place : Nat) (moves : List LoadMove) :
    movesAt courses place moves place = ⟨(courses place).service, fun _ => moves⟩ :=
  Function.update_self ..

theorem movesAt_of_ne {k : Nat} (hk : k ≠ place) (moves : List LoadMove) :
    movesAt courses place moves k = courses k := Function.update_of_ne hk ..

@[simp] theorem movesAt_service (courses : Nat → Course) (place : Nat) (moves : List LoadMove)
    (k : Nat) : (movesAt courses place moves k).service = (courses k).service := by
  by_cases hk : k = place
  · rw [hk, movesAt_self]
  · rw [movesAt_of_ne hk]

/-- Stages, the first of which runs at a place, go on to a result without a cancellation: the
    courses in front of them stay as they are, and the calls come to the same. -/
structure Continues (sched : Scheduler) (place : Nat) (stages : List Mix)
    (courses courses' : Nat → Course) (o : Operation (List LoadReport)) : Prop where
  before : ∀ k < place, courses' k = courses k
  service : ∀ k, (courses' k).service = (courses k).service
  uncancelled : Uncancelled place courses' stages
  run : sched.runStages place courses' stages = some o

/-- A stage that has made some moves can go on to its report, and later stages after it. -/
theorem continues_cons {later : List Mix} (hready : m.ready = .ok ())
    (hlater : ∀ sched courses, sched.cancelled = false →
      ∃ courses' o, Continues sched (place + 1) later courses courses' o)
    (hlive : sched.cancelled = false) {before : List LoadMove} {r : LoadRun}
    (hbefore : LoadMove.cancel ∉ before)
    (hplay : (LoadRun.start m false).play? m (courses place).service before = some r) :
    ∃ after courses' o, courses' place = ⟨(courses place).service, fun _ => before ++ after⟩ ∧
      Continues sched place (m :: later) courses courses' o := by
  rw [← hlive] at hplay
  obtain ⟨after, first, hafter, hfirst⟩ := exists_runMix hready place hplay
  have hmoves : LoadMove.cancel ∉ before ++ after := by simp [hbefore, hafter]
  obtain ⟨report, hok, -⟩ := report_of_runMix hready hlive hmoves hfirst
  have hcancel := cancelled_of_runMix hready hlive hmoves hfirst
  obtain ⟨courses', others, h⟩ :=
    hlater first.scheduler (movesAt courses place (before ++ after)) hcancel
  have hplace : courses' place = ⟨(courses place).service, fun _ => before ++ after⟩ := by
    rw [h.before place (Nat.lt_succ_self place), movesAt_self]
  refine ⟨after, courses', ⟨others.scheduler, first.log ++ others.log,
    others.result.map (report :: ·)⟩, hplace, ?_, ?_, ?_, ?_⟩
  · intro k hk
    rw [h.before k (by omega), movesAt_of_ne (by omega)]
  · intro k
    rw [h.service, movesAt_service]
  · rw [uncancelled_cons, hplace]
    exact ⟨hmoves, h.uncancelled⟩
  · rw [← hplace] at hfirst
    rw [runStages_of_report hfirst hok, h.run]
    rfl

/-- Stages can run to a result whatever their calls come to, by induction on those that are still to
    run. -/
theorem exists_continues (hready : ∀ stage ∈ stages, stage.ready = .ok ())
    (hlive : sched.cancelled = false) (place : Nat) (courses : Nat → Course) :
    ∃ courses' o, Continues sched place stages courses courses' o := by
  induction stages generalizing sched place courses with
  | nil => exact ⟨courses, _, fun _ _ => rfl, fun _ => rfl, fun k m hm => by simp at hm, rfl⟩
  | cons m later ih =>
    have hlater : ∀ stage ∈ later, stage.ready = .ok () :=
      fun stage hstage => hready stage (List.mem_cons_of_mem _ hstage)
    obtain ⟨after, courses', o, -, h⟩ :=
      continues_cons (hready m List.mem_cons_self)
        (fun _ courses hlive => ih hlater hlive (place + 1) courses) hlive List.not_mem_nil rfl
    exact ⟨courses', o, h⟩

/-- Stages of which some have their reports and the next one has made some moves can go on to a
    result. -/
theorem continues_append {earlier later : List Mix}
    (hready : ∀ stage ∈ earlier ++ m :: later, stage.ready = .ok ())
    (hlive : sched.cancelled = false) (hmoves : Uncancelled place courses earlier)
    {reached : Operation (List LoadReport)}
    (hreached : sched.runStages place courses earlier = some reached)
    {before : List LoadMove} {r : LoadRun} (hbefore : LoadMove.cancel ∉ before)
    (hplay : (LoadRun.start m false).play? m (courses (place + earlier.length)).service before =
      some r) :
    ∃ after courses' o,
      courses' (place + earlier.length) =
        ⟨(courses (place + earlier.length)).service, fun _ => before ++ after⟩ ∧
      (∀ k < place + earlier.length, courses' k = courses k) ∧
      Continues sched place (earlier ++ m :: later) courses courses' o := by
  have hearlier : ∀ stage ∈ earlier, stage.ready = .ok () :=
    fun stage hstage => hready stage (List.mem_append_left _ hstage)
  have hlater : ∀ stage ∈ later, stage.ready = .ok () :=
    fun stage hstage => hready stage (by simp [hstage])
  obtain ⟨reports, hok, -, hcancel⟩ := stagesInTurn_of_runStages hearlier hlive hmoves hreached
  obtain ⟨after, courses', o, hplace, h⟩ :=
    continues_cons (hready m (by simp))
      (fun _ courses hlive => exists_continues hlater hlive _ courses) hcancel hbefore hplay
  -- the stages in front do not see the change of the courses
  have hreached' : sched.runStages place courses' earlier = some reached := by
    rw [← hreached]
    exact runStages_congr fun k hk => h.before (place + k) (by omega)
  refine ⟨after, courses', ⟨o.scheduler, reached.log ++ o.log, o.result.map (reports ++ ·)⟩, hplace,
    h.before, fun k hk => h.before k (by omega), h.service, ?_, ?_⟩
  · rw [uncancelled_append]
    refine ⟨fun k stage hstage => ?_, h.uncancelled⟩
    have hk := (List.getElem?_eq_some_iff.mp hstage).1
    rw [h.before (place + k) (by omega)]
    exact hmoves k stage hstage
  · rw [runStages_append (m :: later) hreached' hok, h.run]
    rfl

/-! ## Stages without all their reports -/

/-- Why a stage of an accepted mix can end without a report: it is cancelled, or its roster cannot
    be held. -/
def EndsWith (m : Mix) (fault : Fault) : Prop :=
  fault = .cancelled m.name ∨ Mix.rosterLimit ≤ m.roster.length ∧ fault = .broken .capacity

/-- A run without a report is cancelled or breaks down, and everything that can be seen of it has
    its place. -/
theorem end_of_runMix (hvalid : m.validate = .ok ()) {course : Course} {o : Operation LoadReport}
    (h : sched.runMix m place course = some o) :
    (∀ fault, o.result = .error fault → EndsWith m fault) ∧
      ∀ q e, (q, e) ∈ o.log → q = place := by
  rcases runMix_cases h with ⟨fault, hfault, rfl⟩ | ⟨r, -, hplay, hresult, hlog, -⟩
  · refine ⟨?_, by simp [refuse]⟩
    rintro _ ⟨⟩
    rcases Mix.ready_eq_error_iff.mp hfault with hbad | ⟨-, hroster, hbroken⟩
    · rw [hvalid] at hbad
      cases hbad
    · exact .inr ⟨hroster, hbroken⟩
  · have hr := (LoadRun.sound_start m course.service sched.cancelled).play hplay
    constructor
    · intro fault hfault
      rcases hr.of_result hresult with ⟨-, hcancelled⟩ | ⟨totalTimeMs, -, hok⟩
      · rw [hfault] at hcancelled
        cases hcancelled
        exact .inl rfl
      · rw [hfault] at hok
        cases hok
    · intro q e hmem
      rw [hlog] at hmem
      exact (mem_map_place.mp hmem).1

/-- Stages have all their reports, or end with the fault of one of them, and none is run after it;
    by induction on those that are still to run. -/
theorem end_of_runStages (hvalid : ∀ stage ∈ stages, stage.validate = .ok ())
    {o : Operation (List LoadReport)} (h : sched.runStages place courses stages = some o) :
    (∃ reports, o.result = .ok reports ∧ reports.length = stages.length) ∨
      ∃ (k : Nat) (m : Mix) (fault : Fault), stages[k]? = some m ∧ EndsWith m fault ∧
        o.result = .error fault ∧ ∀ q e, (q, e) ∈ o.log → q ≤ place + k := by
  induction stages generalizing sched place o with
  | nil =>
    cases h
    exact .inl ⟨[], rfl, rfl⟩
  | cons m later ih =>
    have hlater : ∀ stage ∈ later, stage.validate = .ok () :=
      fun stage hstage => hvalid stage (List.mem_cons_of_mem _ hstage)
    obtain ⟨first, hfirst, ⟨fault, hresult, rfl⟩ | ⟨report, others, -, hothers, rfl⟩⟩ :=
      runStages_cons_some h
    · obtain ⟨hfault, hplace⟩ := end_of_runMix (hvalid m List.mem_cons_self) hfirst
      exact .inr ⟨0, m, fault, rfl, hfault fault hresult, rfl,
        fun q e hmem => (hplace q e hmem).le⟩
    · obtain ⟨-, hplace⟩ := end_of_runMix (hvalid m List.mem_cons_self) hfirst
      rcases ih hlater hothers with
        ⟨reports, hreports, hlength⟩ | ⟨k, stage, fault, hstage, hend, hfault, hplaces⟩
      · refine .inl ⟨report :: reports, ?_, congrArg (· + 1) hlength⟩
        show others.result.map (report :: ·) = .ok (report :: reports)
        rw [hreports]
        rfl
      · refine .inr ⟨k + 1, stage, fault, hstage, hend, ?_, ?_⟩
        · show others.result.map (report :: ·) = .error fault
          rw [hfault]
          rfl
        · intro q e hmem
          rcases List.mem_append.mp hmem with hmem | hmem
          · have := hplace q e hmem
            omega
          · have := hplaces q e hmem
            omega

/-- Stages of which one is cancelled in time end with its fault, and none is run after it. -/
theorem fault_of_cancelledInTime {k : Nat} (hm : stages[k]? = some m)
    (hready : m.ready = .ok ()) {reached : Operation (List LoadReport)}
    {reports : List LoadReport}
    (hreached : sched.runStages 0 courses (stages.take k) = some reached)
    (hok : reached.result = .ok reports) {before after : List LoadMove} {r : LoadRun}
    (hcancelled : LoadRun.CancelledInTime m (courses k).service reached.scheduler.cancelled
      before r)
    (hmoves : (courses k).moves (.start m reached.scheduler.cancelled) = before ++ after)
    {o : Operation (List LoadReport)} (h : sched.runStages 0 courses stages = some o) :
    o.result = .error (.cancelled m.name) ∧ ∀ q e, (q, e) ∈ o.log → q ≤ k := by
  obtain ⟨hsplit, hlength⟩ := take_append_drop_of_getElem? hm
  rw [← Nat.zero_add (stages.take k).length] at hlength
  rw [← hsplit] at h
  rw [← hlength] at hcancelled hmoves
  obtain ⟨hfault, log, hlog, hplaces⟩ :=
    (Mix.stopsWhenCancelled hready).stages sched 0 courses _ _ reached reports before r after o
      hreached hok hcancelled hmoves h
  refine ⟨hfault, fun q e hmem => ?_⟩
  rw [hlog] at hmem
  rcases List.mem_append.mp hmem with hmem | hmem
  · obtain ⟨j, hj, rfl⟩ := (stagesApart hreached).planned q e hmem
    omega
  · rw [hplaces q e hmem, hlength]

end Scheduler

/-! ## Reports on staged runs -/

/-- A stage, the report on it and its row: apart from what is measured, the report is the one that
    the stage has when it is run alone, and the row repeats figures of the report. -/
structure Mix.StageOnReport (stage : Mix) (service : Nat → Nat → Nat → CallEnd) (r : LoadReport)
    (row : StageRow) : Prop where
  scenarioName : r.scenarioName = stage.name
  nominalUsers : r.nominalUsers = stage.users
  concurrentUsers : r.concurrentUsers = stage.realizedUsers
  alone : ∀ (sched : Scheduler) place moves o, sched.cancelled = false →
    LoadMove.cancel ∉ moves (.start stage false) →
    sched.runMix stage place ⟨service, moves⟩ = some o →
    ∃ r', o.result = .ok r' ∧ r.unmeasured = r'.unmeasured
  row : row = ⟨r.scenarioName, r.concurrentUsers, r.averageResponseMs, r.latency.p95, r.throughput,
    r.successRate⟩

theorem Mix.ReportInTurn.totalRequests_eq {m : Mix} {service : Nat → Nat → Nat → CallEnd}
    {r : LoadReport} (h : m.ReportInTurn service r) : r.totalRequests = r.results.length := by
  obtain ⟨times, totalTimeMs, rfl⟩ := h.report_eq
  rfl

theorem Mix.ReportInTurn.stageOnReport {m : Mix} (hready : m.ready = .ok ())
    {service : Nat → Nat → Nat → CallEnd} {r : LoadReport} (h : m.ReportInTurn service r) :
    m.StageOnReport service r (.ofStage r) where
  scenarioName := by
    obtain ⟨times, totalTimeMs, rfl⟩ := h.report_eq
    rfl
  nominalUsers := by
    obtain ⟨times, totalTimeMs, rfl⟩ := h.report_eq
    rfl
  concurrentUsers := by rw [h.concurrentUsers_eq, realizedUsers_eq]
  alone sched place moves o hlive hmoves hrun := by
    obtain ⟨r', hok, hr'⟩ := Scheduler.report_of_runMix hready hlive hmoves hrun
    exact ⟨r', hok, h.unmeasured_eq hr'⟩
  row := rfl

/-- A report on a staged run lines up with the stages: it has one report and one row a stage, in
    their order, and its totals are those of the mix and of all stages. -/
structure StagedReport.LinesUp (report : StagedReport) (m : Mix) (mode : StagingMode)
    (stages : List Mix) (services : Nat → Nat → Nat → Nat → CallEnd) : Prop where
  mode : report.mode = mode
  length_stages : report.stages.length = stages.length
  length_comparison : report.comparison.length = stages.length
  stage : ∀ (k : Nat) (stage : Mix), stages[k]? = some stage →
    ∃ r row, report.stages[k]? = some r ∧ report.comparison[k]? = some row ∧
      stage.StageOnReport (services k) r row
  totalUsers : report.totalUsers = m.users
  totalRequests : report.totalRequests = (report.stages.map (·.totalRequests)).sum

/-- The reports of stages all have the number of their requests. -/
theorem StagesInTurn.totalRequests_eq {place : Nat}
    {services : Nat → Nat → Nat → Nat → CallEnd} {stages : List Mix} {reports : List LoadReport}
    (h : StagesInTurn place services stages reports) {r : LoadReport} (hr : r ∈ reports) :
    r.totalRequests = r.results.length := by
  obtain ⟨k, hk, rfl⟩ := List.getElem_of_mem hr
  have hstage := List.getElem?_eq_getElem (h.length ▸ hk)
  obtain ⟨r', hr', hturn⟩ := h.stage k _ hstage
  rw [List.getElem?_eq_getElem hk, Option.some_inj] at hr'
  rw [hr']
  exact hturn.totalRequests_eq

theorem StagesInTurn.linesUp {services : Nat → Nat → Nat → Nat → CallEnd} {stages : List Mix}
    {reports : List LoadReport} (h : StagesInTurn 0 services stages reports)
    (hready : ∀ stage ∈ stages, stage.ready = .ok ()) (mode : StagingMode) (m : Mix) :
    (StagedReport.ofStages mode m reports).LinesUp m mode stages services where
  mode := rfl
  length_stages := h.length
  length_comparison := (List.length_map _).trans h.length
  stage k stage hstage := by
    obtain ⟨r, hr, hturn⟩ := h.stage k stage hstage
    rw [Nat.zero_add] at hturn
    refine ⟨r, .ofStage r, hr, ?_, hturn.stageOnReport (hready stage (List.mem_of_getElem? hstage))⟩
    show (reports.map StageRow.ofStage)[k]? = some (.ofStage r)
    rw [List.getElem?_map, hr, Option.map_some]
  totalUsers := rfl
  totalRequests := by
    show (reports.flatMap LoadReport.results).length = (reports.map (·.totalRequests)).sum
    rw [List.length_flatMap]
    congr 1
    apply List.map_congr_left
    intro r hr
    exact (h.totalRequests_eq hr).symm

/-! ## Staged runs -/

theorem Operation.result_map_of_ok {α β : Type} {o : Operation α} {x : α} (h : o.result = .ok x)
    (f : α → β) : (o.map f).result = .ok (f x) := by
  rw [Operation.map, h]
  rfl

theorem Operation.result_map_of_error {α β : Type} {o : Operation α} {fault : Fault}
    (h : o.result = .error fault) (f : α → β) : (o.map f).result = .error fault := by
  rw [Operation.map, h]
  rfl

/-- The rosters of all stages can be held. -/
def Mix.AreHeld (stages : List Mix) : Prop := ∀ stage ∈ stages, stage.roster.length < rosterLimit

/-- What can be said of an operation of a scheduler that runs a mix in stages. -/
structure Scheduler.StagesLineUp (sched : Scheduler) (m : Mix) (mode : StagingMode)
    (stages : List Mix) (run : (Nat → Course) → Option (Operation StagedReport)) : Prop where
  /-- Uncancelled, it has a report that lines up with the stages. -/
  report : Mix.AreHeld stages → ∀ courses o, sched.cancelled = false →
    Uncancelled 0 courses stages → run courses = some o → ∃ report, o.result = .ok report ∧
      report.LinesUp m mode stages fun k => (courses k).service
  /-- When some stages are over and the next one has made some moves, it can go on to a result. -/
  goesOn : Mix.AreHeld stages → ∀ courses k stage reached before r, sched.cancelled = false →
    Uncancelled 0 courses (stages.take k) → stages[k]? = some stage →
    sched.runStages 0 courses (stages.take k) = some reached → LoadMove.cancel ∉ before →
    (LoadRun.start stage false).play? stage (courses k).service before = some r →
    ∃ after courses' o, courses' k = ⟨(courses k).service, fun _ => before ++ after⟩ ∧
      (∀ j < k, courses' j = courses j) ∧ (∀ j, (courses' j).service = (courses j).service) ∧
      Uncancelled 0 courses' stages ∧ run courses' = some o
  /-- If a stage is cancelled before it is over, the result is its fault, and no later stage is
      run. -/
  cancelled : ∀ courses k stage reached reports before after r o, stages[k]? = some stage →
    stage.roster.length < Mix.rosterLimit →
    sched.runStages 0 courses (stages.take k) = some reached → reached.result = .ok reports →
    LoadRun.CancelledInTime stage (courses k).service reached.scheduler.cancelled before r →
    (courses k).moves (.start stage reached.scheduler.cancelled) = before ++ after →
    run courses = some o →
    o.result = .error (.cancelled stage.name) ∧ ∀ q e, (q, e) ∈ o.log → q ≤ k
  /-- There is no other result, apart from that of a stage whose roster cannot be held. -/
  ends : ∀ courses o, run courses = some o →
    (∃ report, o.result = .ok report ∧ report.stages.length = stages.length) ∨
      ∃ (k : Nat) (stage : Mix) (fault : Fault), stages[k]? = some stage ∧
        EndsWith stage fault ∧ o.result = .error fault ∧ ∀ q e, (q, e) ∈ o.log → q ≤ k

namespace Scheduler

variable {sched : Scheduler} {m : Mix} {mode : StagingMode} {stages : List Mix}

theorem ready_of_areHeld (hvalid : ∀ stage ∈ stages, stage.validate = .ok ())
    (hheld : Mix.AreHeld stages) : ∀ stage ∈ stages, stage.ready = .ok () :=
  fun stage hstage => Mix.ready_eq_ok_iff.mpr ⟨hvalid stage hstage, hheld stage hstage⟩

theorem stagesLineUp_of_runStages {run : (Nat → Course) → Option (Operation StagedReport)}
    (hrun : ∀ courses,
      run courses = (sched.runStages 0 courses stages).map (·.map (.ofStages mode m)))
    (hvalid : ∀ stage ∈ stages, stage.validate = .ok ()) :
    sched.StagesLineUp m mode stages run where
  report hheld courses o hlive hmoves ho := by
    rw [hrun] at ho
    obtain ⟨made, hmade, rfl⟩ := Option.map_eq_some_iff.mp ho
    have hready := ready_of_areHeld hvalid hheld
    obtain ⟨reports, hok, hturn, -⟩ := stagesInTurn_of_runStages hready hlive hmoves hmade
    exact ⟨_, Operation.result_map_of_ok hok _, hturn.linesUp hready mode m⟩
  goesOn hheld courses k stage reached before r hlive hmoves hstage hreached hbefore hplay := by
    obtain ⟨hsplit, hlength⟩ := take_append_drop_of_getElem? hstage
    have hready := ready_of_areHeld hvalid hheld
    rw [← Nat.zero_add (stages.take k).length] at hlength
    rw [← hsplit] at hready
    rw [← hlength] at hplay
    obtain ⟨after, courses', o, hplace, hbefore', h⟩ :=
      continues_append hready hlive hmoves hreached hbefore hplay
    rw [hlength] at hplace hbefore'
    rw [hsplit] at h
    refine ⟨after, courses', o.map (.ofStages mode m), hplace, hbefore', h.service,
      h.uncancelled, ?_⟩
    rw [hrun, h.run]
    rfl
  cancelled courses k stage reached reports before after r o hstage hroster hreached hok hcancelled
      hmoves ho := by
    rw [hrun] at ho
    obtain ⟨made, hmade, rfl⟩ := Option.map_eq_some_iff.mp ho
    have hready := Mix.ready_eq_ok_iff.mpr ⟨hvalid stage (List.mem_of_getElem? hstage), hroster⟩
    obtain ⟨hfault, hplaces⟩ :=
      fault_of_cancelledInTime hstage hready hreached hok hcancelled hmoves hmade
    exact ⟨Operation.result_map_of_error hfault _, hplaces⟩
  ends courses o ho := by
    rw [hrun] at ho
    obtain ⟨made, hmade, rfl⟩ := Option.map_eq_some_iff.mp ho
    rcases end_of_runStages hvalid hmade with
      ⟨reports, hok, hlength⟩ | ⟨k, stage, fault, hstage, hend, hfault, hlog⟩
    · exact .inl ⟨_, Operation.result_map_of_ok hok _, hlength⟩
    · refine .inr ⟨k, stage, fault, hstage, hend, Operation.result_map_of_error hfault _,
        fun q e hmem => ?_⟩
      have := hlog q e hmem
      omega

theorem runGradual_stagesLineUp (hvalid : m.validate = .ok ()) {count : Nat} (hcount : 1 ≤ count)
    {mixes : List Mix} (hplan : m.planRamp count = .ok mixes) :
    sched.StagesLineUp m .gradual mixes (sched.runGradual m count) := by
  apply stagesLineUp_of_runStages
  · exact fun courses => runGradual_of_planRamp (by omega) hplan
  · rw [← Mix.ramp_of_planRamp hplan]
    exact fun stage hstage => (Mix.validate_ramp hstage).mpr hvalid

theorem runBurst_stagesLineUp (hvalid : m.validate = .ok ())
    (hsettings : sched.settings.validate = .ok ()) :
    sched.StagesLineUp m .burst (m.waves sched.settings.burstPhases) (sched.runBurst m) := by
  apply stagesLineUp_of_runStages
  · intro courses
    rw [runBurst, hsettings]
  · intro stage hstage
    exact (Mix.validate_waves hstage).mpr hvalid

end Scheduler

/-- The stages of a ramp are the mix for the numbers of users of the ramp, in their order. -/
theorem Mix.getElem?_planRamp {m : Mix} {count : Nat} {mixes : List Mix} {sizes : List Nat}
    (h : m.planRamp count = .ok mixes) (hsizes : rampSizes m.users count = .ok sizes)
    {k users : Nat} (hk : sizes[k]? = some users) : mixes[k]? =
      some (m.scaled (m.name ++ s!" - stage {k + 1}/{count} ({users} users)") users) := by
  obtain ⟨-, planned, hplanned, rfl⟩ := planRamp_eq_ok_iff.mp h
  obtain rfl : planned = sizes := Except.ok.inj (hplanned.symm.trans hsizes)
  rw [List.getElem?_mapIdx, hk, Option.map_some]

/-- The stages of a burst are the mix for the numbers of users of its phases, in their order. -/
theorem Mix.getElem?_waves (m : Mix) {phases : List BurstPhase} {k : Nat} {phase : BurstPhase}
    (hk : phases[k]? = some phase) :
    ∃ users, (waveSizes m.users phases)[k]? = some users ∧
      (m.waves phases)[k]? =
        some (m.scaled (m.name ++ " - " ++ phase.name ++ s!" ({users} users)") users) := by
  refine ⟨waveSize m.users phase.fraction, ?_, ?_⟩
  · rw [waveSizes, List.getElem?_map, hk, Option.map_some]
  · rw [waves, List.getElem?_map, hk, Option.map_some]

/-- The stages of a gradual run, and those of a burst, line up with the numbers of users that are
    planned, with the reports that they would have alone and with the rows that compare them, if
    their rosters can be held. If one of them is cancelled before it is over, the run ends with the
    fault of that stage. Of a ramp, the product of the target and the number of stages is a counter,
    and the reports on the stages can be held. -/
theorem stagedRuns_lineUp {m : Mix} (hvalid : m.validate = .ok ()) (sched : Scheduler) :
    (∀ count, 1 ≤ count → m.users * count < Counter.size → count < Mix.stageLimit →
      ∃ sizes, rampSizes m.users count = .ok sizes ∧ sizes.length = count ∧
        (m.ramp count).length = count ∧
        (∀ k users, sizes[k]? = some users → (m.ramp count)[k]? =
          some (m.scaled (m.name ++ s!" - stage {k + 1}/{count} ({users} users)") users)) ∧
        sched.StagesLineUp m .gradual (m.ramp count) (sched.runGradual m count)) ∧
    (sched.settings.validate = .ok () →
      (m.waves sched.settings.burstPhases).length = sched.settings.burstPhases.length ∧
      (∀ (k : Nat) (phase : BurstPhase), sched.settings.burstPhases[k]? = some phase →
        ∃ users, (waveSizes m.users sched.settings.burstPhases)[k]? = some users ∧
          (m.waves sched.settings.burstPhases)[k]? =
            some (m.scaled (m.name ++ " - " ++ phase.name ++ s!" ({users} users)") users)) ∧
      sched.StagesLineUp m .burst (m.waves sched.settings.burstPhases) (sched.runBurst m)) := by
  constructor
  · intro count hcount hproduct hheld
    obtain ⟨mixes, hplan⟩ := Mix.exists_planRamp hcount hproduct hheld
    obtain ⟨-, sizes, hsizes, -⟩ := Mix.planRamp_eq_ok_iff.mp hplan
    have hlength : sizes.length = count := by
      rw [((rampSizes_eq_ok_iff hcount).mp hsizes).2, length_rampShares]
    rw [Mix.ramp_of_planRamp hplan]
    exact ⟨sizes, hsizes, hlength, Mix.length_of_planRamp hcount hplan,
      fun k users hk => Mix.getElem?_planRamp hplan hsizes hk,
      Scheduler.runGradual_stagesLineUp hvalid hcount hplan⟩
  · intro hsettings
    have hlength : (m.waves sched.settings.burstPhases).length =
        sched.settings.burstPhases.length := List.length_map _
    exact ⟨hlength, fun k phase hk => m.getElem?_waves hk,
      Scheduler.runBurst_stagesLineUp hvalid hsettings⟩

/-- Two stages and a burst that run to their end, and two stages of which the second is
    cancelled. -/
theorem stagedRuns_lineUp_partly :
    Scheduler.hugeAndSmall.validate = .ok () ∧ Settings.standard.validate = .ok () ∧
    (∃ o report, (Scheduler.new .standard).runGradual Scheduler.hugeAndSmall 2
        (fun _ => Scheduler.secondFirst) = some o ∧ o.result = .ok report ∧
      report.LinesUp Scheduler.hugeAndSmall .gradual (Scheduler.hugeAndSmall.ramp 2)
        fun _ => Scheduler.secondFirst.service) ∧
    (∃ courses o report, (Scheduler.new .standard).runBurst Scheduler.hugeAndSmall courses = some o ∧
      o.result = .ok report ∧
      report.LinesUp Scheduler.hugeAndSmall .burst
        (Scheduler.hugeAndSmall.waves Settings.standard.burstPhases)
        fun k => (courses k).service) ∧
    ∃ o, (Scheduler.new .standard).runGradual Scheduler.hugeAndSmall 2 cancelsSecond = some o ∧
      o.result = .error (.cancelled "mixed - stage 2/2 (2 users)") ∧
      ∀ q e, (q, e) ∈ o.log → q ≤ 1 := by
  obtain ⟨hgradual, hburst⟩ :=
    stagedRuns_lineUp (m := Scheduler.hugeAndSmall) rfl (.new .standard)
  obtain ⟨-, -, -, -, -, hramp⟩ := hgradual 2 (by decide) (by decide) (by decide)
  obtain ⟨-, -, hwaves⟩ := hburst rfl
  have hheld : Mix.AreHeld (Scheduler.hugeAndSmall.ramp 2) := by
    unfold Mix.AreHeld
    decide
  have hheld' : Mix.AreHeld (Scheduler.hugeAndSmall.waves Settings.standard.burstPhases) := by
    unfold Mix.AreHeld
    decide +kernel
  have hmoves : ∀ stages, Uncancelled 0 (fun _ => Scheduler.secondFirst) stages :=
    fun _ _ _ _ => by simp [Scheduler.secondFirst]
  refine ⟨rfl, rfl, ?_, ?_, ?_⟩
  · obtain ⟨o, ho⟩ : ∃ o, (Scheduler.new .standard).runGradual Scheduler.hugeAndSmall 2
        (fun _ => Scheduler.secondFirst) = some o := ⟨_, rfl⟩
    obtain ⟨report, hok, hlines⟩ := hramp.report hheld _ o rfl (hmoves _) ho
    exact ⟨o, report, ho, hok, hlines⟩
  · obtain ⟨-, courses, o, -, -, -, huncancelled, ho⟩ :=
      hwaves.goesOn hheld' (fun _ => Scheduler.secondFirst) 0 _ _ [] _ rfl (hmoves _) rfl rfl
        List.not_mem_nil rfl
    obtain ⟨report, hok, hlines⟩ := hwaves.report hheld' courses o rfl huncancelled ho
    exact ⟨courses, o, report, ho, hok, hlines⟩
  · obtain ⟨o, ho⟩ : ∃ o, (Scheduler.new .standard).runGradual Scheduler.hugeAndSmall 2
        cancelsSecond = some o := ⟨_, rfl⟩
    obtain ⟨reached, reports, hreached, hok, hlive⟩ : ∃ reached reports,
        (Scheduler.new .standard).runStages 0 cancelsSecond
          ((Scheduler.hugeAndSmall.ramp 2).take 1) = some reached ∧
        reached.result = .ok reports ∧ reached.scheduler.cancelled = false := ⟨_, _, rfl, rfl, rfl⟩
    obtain ⟨r, hr⟩ : ∃ r, LoadRun.CancelledInTime
        (Scheduler.hugeAndSmall.scaled "mixed - stage 2/2 (2 users)" 2) (cancelsSecond 1).service
        reached.scheduler.cancelled [.cancel] r := by
      rw [hlive]
      exact ⟨_, rfl, rfl, rfl⟩
    have hstage : (Scheduler.hugeAndSmall.ramp 2)[1]? =
        some (Scheduler.hugeAndSmall.scaled "mixed - stage 2/2 (2 users)" 2) := by decide
    exact ⟨o, ho, hramp.cancelled cancelsSecond 1 _ reached reports [.cancel] [.giveUp] r o hstage
      (by decide) hreached hok hr rfl ho⟩

/-- An uncancelled gradual run of an accepted mix need not have a report: the roster of a stage, or
    the reports on all stages, may be more than can be held. -/
theorem not_stagedRuns_lineUp :
    (¬ ∀ (m : Mix) (sched : Scheduler) count courses o, m.validate = .ok () →
      sched.cancelled = false → 1 ≤ count → m.users * count < Counter.size →
      count < Mix.stageLimit → Uncancelled 0 courses (m.ramp count) →
      sched.runGradual m count courses = some o → ∃ report, o.result = .ok report) ∧
    ¬ ∀ (m : Mix) (sched : Scheduler) count courses o, m.validate = .ok () →
      sched.cancelled = false → 1 ≤ count → m.users * count < Counter.size →
      m.roster.length < Mix.rosterLimit → Uncancelled 0 courses (m.ramp count) →
      sched.runGradual m count courses = some o → ∃ report, o.result = .ok report := by
  have hmoves : ∀ stages, Uncancelled 0 (fun _ => Scheduler.noMoves) stages :=
    fun _ _ _ _ => List.not_mem_nil
  constructor
  · intro hclaim
    obtain ⟨o, ho, hfault⟩ : ∃ o, (Scheduler.new .standard).runGradual Scheduler.crowd 1
        (fun _ => Scheduler.noMoves) = some o ∧
        o.result = .error (.broken .capacity) := ⟨_, rfl, rfl⟩
    obtain ⟨report, hresult⟩ := hclaim Scheduler.crowd _ 1 _ o rfl rfl (by decide) (by decide)
      (by decide) (hmoves _) ho
    rw [hfault] at hresult
    cases hresult
  · intro hclaim
    obtain ⟨o, ho, hfault⟩ : ∃ o, (Scheduler.new .standard).runGradual Scheduler.hugeAndSmall
        (Nat.pow 2 60) (fun _ => Scheduler.noMoves) = some o ∧
        o.result = .error (.broken .capacity) := ⟨_, rfl, rfl⟩
    obtain ⟨report, hresult⟩ := hclaim Scheduler.hugeAndSmall _ _ _ o rfl rfl (by decide)
      (by decide) (by decide) (hmoves _) ho
    rw [hfault] at hresult
    cases hresult

end LoadBench
