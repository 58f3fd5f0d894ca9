import Mathlib.Tactic
import LoadBench.Proofs.Plan.Mix
import LoadBench.Run.Scheduler

/-!
# Runs of a scheduler

A mix that is ready is run along the moves of its course, and stages are run one after the other,
each with the scheduler that the one before it leaves, up to the first that has no report. Of a mix
that is not ready nothing can be seen.

Results:
* `Mix.ready_eq_ok_iff`, `Mix.ready_eq_error_iff`: which mixes are ready, and why others are not.
* `Scheduler.runMix_of_ready`, `Scheduler.runMix_cases`: the runs of a mix.
* `Scheduler.runStages_of_report`, `Scheduler.runStages_of_fault`: a stage with a report and one
  without.
* `Scheduler.runStages_cons_some`: what stages are by their first one.
* `Scheduler.runStages_append`: stages after some that have their reports.
* `Scheduler.runGradual_cases`: what a gradual run is.
-/

namespace LoadBench

namespace Mix

variable {m : Mix}

theorem ready_eq_ok_iff :
    m.ready = .ok () ↔ m.validate = .ok () ∧ m.roster.length < rosterLimit := by
  rw [ready, ← isSome_roster?_iff]
  cases m.validate with
  | error fault => simp
  | ok => split_ifs with hroster <;> simp [hroster]

/-- A mix is not ready if it is refused, or if it is accepted and its roster cannot be held. -/
theorem ready_eq_error_iff {fault : Fault} :
    m.ready = .error fault ↔ m.validate = .error fault ∨
      m.validate = .ok () ∧ rosterLimit ≤ m.roster.length ∧ fault = .broken .capacity := by
  rw [ready, ← not_lt, ← isSome_roster?_iff]
  cases m.validate with
  | error fault => simp
  | ok => split_ifs with hroster <;> simp [hroster, eq_comm]

end Mix

namespace Scheduler

variable {sched : Scheduler} {m : Mix} {place : Nat} {courses : Nat → Course}

theorem runMix_of_fault {fault : Fault} (h : m.ready = .error fault) (course : Course) :
    sched.runMix m place course = some (sched.refuse fault) := by
  rw [runMix, h]

theorem runMix_of_ready (hready : m.ready = .ok ()) {course : Course}
    {o : Operation LoadReport} :
    sched.runMix m place course = some o ↔
      ∃ r, (LoadRun.start m sched.cancelled).play? m course.service
          (course.moves (.start m sched.cancelled)) = some r ∧
        r.result = some o.result ∧ o.log = r.log.map (place, ·) ∧
        o.scheduler =
          { sched with state := stateAfter sched.state r.log, cancelled := r.cancelled } := by
  simp only [runMix, hready]
  constructor
  · intro h
    obtain ⟨r, hplay, h⟩ := Option.bind_eq_some_iff.mp h
    obtain ⟨result, hresult, h⟩ := Option.bind_eq_some_iff.mp h
    cases h
    exact ⟨r, hplay, hresult, rfl, rfl⟩
  · rintro ⟨r, hplay, hresult, hlog, hscheduler⟩
    refine Option.bind_eq_some_iff.mpr ⟨r, hplay, Option.bind_eq_some_iff.mpr ⟨_, hresult, ?_⟩⟩
    rw [← hlog, ← hscheduler]
    rfl

/-- Nothing is seen of a mix that is not ready, and one that is goes along its moves to a result. -/
theorem runMix_cases {course : Course} {o : Operation LoadReport}
    (h : sched.runMix m place course = some o) :
    (∃ fault, m.ready = .error fault ∧ o = sched.refuse fault) ∨
    ∃ r, m.ready = .ok () ∧
      (LoadRun.start m sched.cancelled).play? m course.service
        (course.moves (.start m sched.cancelled)) = some r ∧
      r.result = some o.result ∧ o.log = r.log.map (place, ·) ∧
      o.scheduler =
        { sched with state := stateAfter sched.state r.log, cancelled := r.cancelled } := by
  cases hready : m.ready with
  | error fault =>
    rw [runMix_of_fault hready, Option.some_inj] at h
    exact .inl ⟨fault, rfl, h.symm⟩
  | ok =>
    obtain ⟨r, hr⟩ := (runMix_of_ready hready).mp h
    exact .inr ⟨r, rfl, hr⟩

/-- After a stage with a report the others go on with the scheduler that it leaves. -/
theorem runStages_of_report {first : Operation LoadReport} {report : LoadReport}
    (h : sched.runMix m place (courses place) = some first) (hok : first.result = .ok report)
    (later : List Mix) :
    sched.runStages place courses (m :: later) =
      (first.scheduler.runStages (place + 1) courses later).map fun o =>
        ⟨o.scheduler, first.log ++ o.log, o.result.map (report :: ·)⟩ := by
  rw [runStages, h]
  simp only [Option.bind_eq_bind, Option.bind_some, hok]
  cases first.scheduler.runStages (place + 1) courses later <;> rfl

/-- A stage without a report is the last one. -/
theorem runStages_of_fault {first : Operation LoadReport} {fault : Fault}
    (h : sched.runMix m place (courses place) = some first) (herror : first.result = .error fault)
    (later : List Mix) :
    sched.runStages place courses (m :: later) =
      some ⟨first.scheduler, first.log, .error fault⟩ := by
  rw [runStages, h]
  simp only [Option.bind_eq_bind, Option.bind_some, herror]
  rfl

/-- Stages are a first one that has no report, or a first one that has and the others. -/
theorem runStages_cons_some {later : List Mix} {o : Operation (List LoadReport)}
    (h : sched.runStages place courses (m :: later) = some o) :
    ∃ first, sched.runMix m place (courses place) = some first ∧
      ((∃ fault, first.result = .error fault ∧
          o = ⟨first.scheduler, first.log, .error fault⟩) ∨
        ∃ report others, first.result = .ok report ∧
          first.scheduler.runStages (place + 1) courses later = some others ∧
          o = ⟨others.scheduler, first.log ++ others.log, others.result.map (report :: ·)⟩) := by
  obtain ⟨first, hfirst, -⟩ := Option.bind_eq_some_iff.mp h
  refine ⟨first, hfirst, ?_⟩
  cases hresult : first.result with
  | error fault =>
    rw [runStages_of_fault hfirst hresult] at h
    cases h
    exact .inl ⟨fault, rfl, rfl⟩
  | ok report =>
    rw [runStages_of_report hfirst hresult] at h
    obtain ⟨others, hothers, rfl⟩ := Option.map_eq_some_iff.mp h
    exact .inr ⟨report, others, rfl, hothers, rfl⟩

/-- Stages that have their reports are a first one that has and others that have. -/
theorem reports_of_runStages {later : List Mix} {o : Operation (List LoadReport)}
    {reports : List LoadReport} (h : sched.runStages place courses (m :: later) = some o)
    (hok : o.result = .ok reports) :
    ∃ first report others rest, sched.runMix m place (courses place) = some first ∧
      first.result = .ok report ∧
      first.scheduler.runStages (place + 1) courses later = some others ∧
      others.result = .ok rest ∧
      o = ⟨others.scheduler, first.log ++ others.log, .ok (report :: rest)⟩ := by
  obtain ⟨first, hfirst, ⟨fault, -, rfl⟩ | ⟨report, others, hresult, hothers, rfl⟩⟩ :=
    runStages_cons_some h
  · cases hok
  · cases hrest : others.result with
    | error fault => rw [hrest] at hok; cases hok
    | ok rest => exact ⟨first, report, others, rest, hfirst, hresult, hothers, hrest, rfl⟩

/-- Stages after some that have their reports go on with the scheduler that these leave. -/
theorem runStages_append {earlier : List Mix} (later : List Mix)
    {o : Operation (List LoadReport)} {reports : List LoadReport}
    (h : sched.runStages place courses earlier = some o) (hok : o.result = .ok reports) :
    sched.runStages place courses (earlier ++ later) =
      (o.scheduler.runStages (place + earlier.length) courses later).map fun o' =>
        ⟨o'.scheduler, o.log ++ o'.log, o'.result.map (reports ++ ·)⟩ := by
  induction earlier generalizing sched place o reports with
  | nil =>
    cases h
    cases hok
    cases hlater : sched.runStages place courses later with
    | none => simp [hlater]
    | some o' =>
      obtain ⟨after, log, result⟩ := o'
      cases result <;> simp [hlater, Except.map]
  | cons m earlier ih =>
    obtain ⟨first, report, others, rest, hfirst, hreport, hothers, hrest, rfl⟩ :=
      reports_of_runStages h hok
    cases hok
    rw [List.cons_append, runStages_of_report hfirst hreport, ih hothers hrest, Option.map_map,
      List.length_cons, Nat.add_right_comm place 1, Nat.add_assoc place]
    congr 1
    funext o'
    obtain ⟨after, log, result⟩ := o'
    cases result <;> simp [Except.map]

/-! ## Gradual runs -/

theorem runGradual_of_planRamp {stages : Nat} (hstages : stages ≠ 0) {mixes : List Mix}
    (h : m.planRamp stages = .ok mixes) :
    sched.runGradual m stages courses =
      (sched.runStages 0 courses mixes).map (·.map (.ofStages .gradual m)) := by
  simp [runGradual, hstages, h]

/-- A gradual run has no stages, or breaks down when they are planned, or runs them. -/
theorem runGradual_cases {stages : Nat} {o : Operation StagedReport}
    (h : sched.runGradual m stages courses = some o) :
    (stages = 0 ∧ o = sched.refuse (.settings .noStages)) ∨
    (∃ cause, stages ≠ 0 ∧ m.planRamp stages = .error cause ∧
      o = sched.refuse (.broken cause)) ∨
    ∃ mixes o', stages ≠ 0 ∧ m.planRamp stages = .ok mixes ∧
      sched.runStages 0 courses mixes = some o' ∧ o = o'.map (.ofStages .gradual m) := by
  by_cases hstages : stages = 0
  · simp only [runGradual, hstages, BEq.rfl, if_true, Option.some_inj] at h
    exact .inl ⟨hstages, h.symm⟩
  cases hplan : m.planRamp stages with
  | error cause =>
    simp only [runGradual, hplan, beq_eq_false_iff_ne.mpr hstages, Bool.false_eq_true, if_false,
      Option.some_inj] at h
    exact .inr (.inl ⟨cause, hstages, rfl, h.symm⟩)
  | ok mixes =>
    rw [runGradual_of_planRamp hstages hplan] at h
    obtain ⟨o', ho', ho⟩ := Option.map_eq_some_iff.mp h
    exact .inr (.inr ⟨mixes, o', hstages, rfl, ho', ho.symm⟩)

end Scheduler

end LoadBench
