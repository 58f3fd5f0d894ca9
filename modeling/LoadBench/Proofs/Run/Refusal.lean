import Mathlib.Tactic
import LoadBench.Proofs.Plan.Ramp
import LoadBench.Proofs.Run.LoadRun
import LoadBench.Proofs.Run.ScenarioRun

/-!
# Refused operations

An operation is refused if its plan or its settings cannot be used. That is decided before anything
happens: of a refused operation nothing can be seen, and the scheduler stays as it is. Since all
stages of a mix are accepted or none is, a staged run is refused in front of its first stage or not
at all. An operation that breaks down is not refused, also where its plan cannot be used.

Results:
* `Scenario.refusedIff_of_perform`, `Scheduler.refusedIff_runMix`: a scenario, a mix.
* `Scheduler.refusedIff_runStages`: stages that are accepted together.
* `Scheduler.refusedIff_runGradual`, `Scheduler.refusedIff_runBurst`,
  `Scheduler.refusedIff_runCustom`: staged runs and custom tests.
* `refusals_areQuiet`: all operations, and the stages.
-/

namespace LoadBench

/-! ## Refusals -/

/-- The fault is about a plan or settings that cannot be used. -/
def Fault.isRefusal : Fault → Bool
  | .plan _ => true
  | .settings _ => true
  | _ => false

/-- The result is the fault of a plan or of settings that cannot be used. -/
def IsRefusal {α : Type} (result : Except Fault α) : Prop :=
  ∃ fault, result = .error fault ∧ fault.isRefusal = true

theorem isRefusal_error {α : Type} {fault : Fault} :
    IsRefusal (.error fault : Except Fault α) ↔ fault.isRefusal = true := by
  constructor
  · rintro ⟨_, ⟨⟩, h⟩
    exact h
  · intro h
    exact ⟨fault, rfl, h⟩

theorem not_isRefusal_ok {α : Type} (x : α) : ¬ IsRefusal (.ok x) := by
  rintro ⟨_, ⟨⟩, -⟩

theorem not_isRefusal_broken {α : Type} {cause : Breakdown} :
    ¬ IsRefusal (.error (.broken cause) : Except Fault α) := by
  rw [isRefusal_error]
  exact Bool.false_ne_true

theorem isRefusal_map {α β : Type} {result : Except Fault α} (f : α → β) :
    IsRefusal (result.map f) ↔ IsRefusal result := by
  cases result with
  | error fault => exact isRefusal_error.trans isRefusal_error.symm
  | ok x => exact iff_of_false (not_isRefusal_ok _) (not_isRefusal_ok _)

theorem Scenario.isRefusal_of_validate {s : Scenario} {fault : Fault}
    (h : s.validate = .error fault) : fault.isRefusal = true := by
  rw [validate] at h
  split_ifs at h
  · cases h; rfl
  · cases h; rfl
  · split at h <;> cases h
    rfl

theorem Mix.isRefusal_of_validate {m : Mix} {fault : Fault} (h : m.validate = .error fault) :
    fault.isRefusal = true := by
  rw [validate] at h
  split_ifs at h
  · cases h; rfl
  · cases h; rfl
  · split at h <;> cases h
    rfl

theorem Settings.isRefusal_of_validate {s : Settings} {fault : Fault}
    (h : s.validate = .error fault) : fault.isRefusal = true := by
  rw [validate] at h
  split at h <;> cases h
  rfl

theorem Settings.burstPhases_ne_nil {s : Settings} (h : s.validate = .ok ()) :
    s.burstPhases ≠ [] := by
  cases hfault : s.fault? with
  | some cause => simp [validate, hfault] at h
  | none =>
    rw [fault?] at hfault
    split_ifs at hfault with hurl hramp hphases
    all_goals simpa using hphases

/-! ## Scenarios -/

/-- A run of a scenario is refused iff its plan is, and then nothing has happened. -/
theorem Scenario.refusedIff_of_perform {s : Scenario} {service : Nat → Nat → CallEnd}
    {cancelled : Bool} {pick : ScenarioRun → List ScenarioMove}
    {p : Performed ScenarioEvent ScenarioReport} (h : s.perform service cancelled pick = some p) :
    (IsRefusal p.result ↔ s.validate ≠ .ok ()) ∧
      (IsRefusal p.result → p.log = [] ∧ p.cancelled = cancelled) := by
  rcases perform_cases h with ⟨fault, hvalid, rfl⟩ | ⟨cause, hvalid, -, rfl⟩ |
    ⟨r, hvalid, -, hplay, hresult, -, -⟩
  · exact ⟨by simp [isRefusal_error, isRefusal_of_validate hvalid, hvalid], fun _ => ⟨rfl, rfl⟩⟩
  · exact ⟨iff_of_false not_isRefusal_broken (by simp [hvalid]),
      fun hyes => absurd hyes not_isRefusal_broken⟩
  · have hno : ¬ IsRefusal p.result := by
      cases ((ScenarioRun.sound_start s service cancelled).play hplay).outcome with
      | pending hrun => rw [hrun] at hresult; cases hresult
      | cancelled hclosed hcancel hfault =>
        rw [hfault, Option.some_inj] at hresult
        rw [← hresult, isRefusal_error]
        simp [Fault.isRefusal]
      | reported totalElapsedMs runId hclosed hall hreport =>
        rw [hreport, Option.some_inj] at hresult
        rw [← hresult]
        exact not_isRefusal_ok _
    exact ⟨iff_of_false hno (by simp [hvalid]), fun hyes => absurd hyes hno⟩

/-! ## Schedulers -/

/-- An operation is refused iff something about its input is bad, and then nothing of it could be
    seen and the scheduler is as it was before. -/
structure Operation.RefusedIff {α : Type} (bad : Prop) (before : Scheduler) (o : Operation α) :
    Prop where
  isRefusal_iff : IsRefusal o.result ↔ bad
  quiet : IsRefusal o.result → o.log = [] ∧ o.scheduler = before

namespace Operation.RefusedIff

variable {α β : Type} {bad bad' : Prop} {sched : Scheduler} {o : Operation α}

theorem refuse {fault : Fault} (hfault : fault.isRefusal = true) (hbad : bad) :
    RefusedIff bad sched (sched.refuse fault : Operation α) where
  isRefusal_iff := iff_of_true (isRefusal_error.mpr hfault) hbad
  quiet _ := ⟨rfl, rfl⟩

theorem of_not (hno : ¬ IsRefusal o.result) (hbad : ¬ bad) : RefusedIff bad sched o where
  isRefusal_iff := iff_of_false hno hbad
  quiet h := absurd h hno

theorem map (h : RefusedIff bad sched o) (f : α → β) : RefusedIff bad sched (o.map f) where
  isRefusal_iff := (isRefusal_map f).trans h.isRefusal_iff
  quiet hrefusal := h.quiet ((isRefusal_map f).mp hrefusal)

theorem congr (h : RefusedIff bad sched o) (hiff : bad ↔ bad') : RefusedIff bad' sched o where
  isRefusal_iff := h.isRefusal_iff.trans hiff
  quiet := h.quiet

end Operation.RefusedIff

namespace Scheduler

variable {sched : Scheduler} {m : Mix} {place : Nat} {courses : Nat → Course}

/-- A run of a mix is refused iff the mix is. -/
theorem refusedIff_runMix {course : Course} {o : Operation LoadReport}
    (h : sched.runMix m place course = some o) :
    o.RefusedIff (m.validate ≠ .ok ()) sched := by
  rcases runMix_cases h with ⟨fault, hfault, rfl⟩ | ⟨r, hready, hplay, hresult, -, -⟩
  · rcases Mix.ready_eq_error_iff.mp hfault with hbad | ⟨hvalid, -, rfl⟩
    · exact .refuse (Mix.isRefusal_of_validate hbad) (by simp [hbad])
    · exact .of_not not_isRefusal_broken (not_not_intro hvalid)
  · have hr := (LoadRun.sound_start m course.service sched.cancelled).play hplay
    refine .of_not ?_ (not_not_intro (Mix.ready_eq_ok_iff.mp hready).1)
    rcases hr.of_result hresult with ⟨-, hfault⟩ | ⟨totalTimeMs, -, hreport⟩
    · rw [hfault, isRefusal_error]
      simp [Fault.isRefusal]
    · rw [hreport]
      exact not_isRefusal_ok _

/-- Stages that are accepted are not refused, by induction on those that are still to run. -/
theorem not_isRefusal_runStages {stages : List Mix} {o : Operation (List LoadReport)}
    (hvalid : ∀ stage ∈ stages, stage.validate = .ok ())
    (h : sched.runStages place courses stages = some o) : ¬ IsRefusal o.result := by
  induction stages generalizing sched place o with
  | nil =>
    cases h
    exact not_isRefusal_ok _
  | cons m stages ih =>
    obtain ⟨first, hfirst, ⟨fault, hresult, rfl⟩ | ⟨report, others, -, hothers, rfl⟩⟩ :=
      runStages_cons_some h
    · have hno : ¬ IsRefusal first.result := by
        rw [(refusedIff_runMix hfirst).isRefusal_iff]
        exact not_not_intro (hvalid m List.mem_cons_self)
      rw [hresult, isRefusal_error] at hno
      exact fun hyes => hno (isRefusal_error.mp hyes)
    · rw [isRefusal_map]
      exact ih (fun stage hstage => hvalid stage (List.mem_cons_of_mem _ hstage)) hothers

/-- Stages that are accepted iff a mix is are refused in front of the first one or not at all. -/
theorem refusedIff_runStages {stages : List Mix} {o : Operation (List LoadReport)}
    (hne : stages ≠ [])
    (hstages : ∀ stage ∈ stages, stage.validate = .ok () ↔ m.validate = .ok ())
    (h : sched.runStages place courses stages = some o) :
    o.RefusedIff (m.validate ≠ .ok ()) sched := by
  by_cases hvalid : m.validate = .ok ()
  · have hall : ∀ stage ∈ stages, stage.validate = .ok () :=
      fun stage hstage => (hstages stage hstage).mpr hvalid
    exact .of_not (not_isRefusal_runStages hall h) (not_not_intro hvalid)
  · obtain ⟨stage, later, rfl⟩ := List.exists_cons_of_ne_nil hne
    obtain ⟨first, hfirst, -⟩ := Option.bind_eq_some_iff.mp h
    have hbad : stage.validate ≠ .ok () :=
      fun hok => hvalid ((hstages stage List.mem_cons_self).mp hok)
    have hrefused := refusedIff_runMix hfirst
    obtain ⟨fault, hresult, hfault⟩ := hrefused.isRefusal_iff.mpr hbad
    rw [runStages_of_fault hfirst hresult] at h
    cases h
    exact ⟨iff_of_true (isRefusal_error.mpr hfault) hvalid,
      fun _ => hrefused.quiet ⟨fault, hresult, hfault⟩⟩

/-- A gradual run without stages is refused, and so is one of a mix that is not accepted, unless it
    breaks down before the mix is looked at. -/
def refusesRamp (m : Mix) (stages : Nat) : Prop :=
  stages = 0 ∨ m.validate ≠ .ok () ∧ ∃ mixes, m.planRamp stages = .ok mixes

theorem refusedIff_runGradual {stages : Nat} {o : Operation StagedReport}
    (h : sched.runGradual m stages courses = some o) :
    o.RefusedIff (refusesRamp m stages) sched := by
  rcases runGradual_cases h with ⟨hnone, rfl⟩ | ⟨cause, hsome, hplan, rfl⟩ |
    ⟨mixes, o', hsome, hplan, ho', rfl⟩
  · exact .refuse rfl (.inl hnone)
  · exact .of_not not_isRefusal_broken (by simp [refusesRamp, hsome, hplan])
  · have hne : mixes ≠ [] := by
      rw [← List.length_pos_iff, Mix.length_of_planRamp (Nat.pos_of_ne_zero hsome) hplan]
      exact Nat.pos_of_ne_zero hsome
    have hstages : ∀ stage ∈ mixes, stage.validate = .ok () ↔ m.validate = .ok () := by
      rw [← Mix.ramp_of_planRamp hplan]
      exact fun _ => Mix.validate_ramp
    exact ((refusedIff_runStages hne hstages ho').map _).congr
      (by simp [refusesRamp, hsome, hplan])

theorem refusedIff_runBurst {o : Operation StagedReport}
    (h : sched.runBurst m courses = some o) :
    o.RefusedIff (sched.settings.validate ≠ .ok () ∨ m.validate ≠ .ok ()) sched := by
  cases hvalid : sched.settings.validate with
  | error fault =>
    simp only [runBurst, hvalid] at h
    cases h
    exact .refuse (Settings.isRefusal_of_validate hvalid) (.inl (by simp))
  | ok =>
    simp only [runBurst, hvalid] at h
    obtain ⟨o', ho', rfl⟩ := Option.map_eq_some_iff.mp h
    have hwaves : m.waves sched.settings.burstPhases ≠ [] := by
      simpa [Mix.waves] using Settings.burstPhases_ne_nil hvalid
    exact ((refusedIff_runStages hwaves (fun _ => Mix.validate_waves) ho').map _).congr (by simp)

/-- Something about a custom test, or about the settings that its pattern uses, is bad. -/
def refuses (sched : Scheduler) (t : CustomTest) : Prop :=
  t.actions = [] ∨
    match t.pattern with
    | .uniform => t.mix.validate ≠ .ok ()
    | .gradual => refusesRamp t.mix sched.settings.rampStages
    | .burst => sched.settings.validate ≠ .ok () ∨ t.mix.validate ≠ .ok ()

theorem refusedIff_runCustom {t : CustomTest} {o : Operation LoadOutcome}
    (h : sched.runCustom t courses = some o) : o.RefusedIff (sched.refuses t) sched := by
  rw [runCustom] at h
  split_ifs at h with hnone
  · cases h
    exact .refuse rfl (.inl (List.isEmpty_iff.mp hnone))
  · have hsome : t.actions ≠ [] := by simpa using hnone
    cases hpattern : t.pattern with
    | uniform =>
      simp only [hpattern] at h
      obtain ⟨o', ho', rfl⟩ := Option.map_eq_some_iff.mp h
      exact ((refusedIff_runMix ho').map _).congr (by simp [refuses, hsome, hpattern])
    | gradual =>
      simp only [hpattern] at h
      obtain ⟨o', ho', rfl⟩ := Option.map_eq_some_iff.mp h
      exact ((refusedIff_runGradual ho').map _).congr (by simp [refuses, hsome, hpattern])
    | burst =>
      simp only [hpattern] at h
      obtain ⟨o', ho', rfl⟩ := Option.map_eq_some_iff.mp h
      exact ((refusedIff_runBurst ho').map _).congr (by simp [refuses, hsome, hpattern])

/-- What is refused by a scheduler, and that nothing happens then. -/
structure RefusesQuietly (sched : Scheduler) : Prop where
  mix : ∀ m place course o, sched.runMix m place course = some o →
    o.RefusedIff (m.validate ≠ .ok ()) sched
  gradual : ∀ m stages courses o, sched.runGradual m stages courses = some o →
    o.RefusedIff (refusesRamp m stages) sched
  gradualStandard : ∀ m courses o, sched.runGradualStandard m courses = some o →
    o.RefusedIff (refusesRamp m sched.settings.rampStages) sched
  burst : ∀ m courses o, sched.runBurst m courses = some o →
    o.RefusedIff (sched.settings.validate ≠ .ok () ∨ m.validate ≠ .ok ()) sched
  custom : ∀ t courses o, sched.runCustom t courses = some o →
    o.RefusedIff (sched.refuses t) sched

end Scheduler

/-! ## All operations -/

/-- Whatever is refused is refused before anything has happened: no call is made, nothing is
    reported, and the scheduler stays as it is. A stage is accepted iff its mix is, so once a stage
    has run no other is refused. -/
theorem refusals_areQuiet (s : Scenario) (sched : Scheduler) (m : Mix) :
    (∀ service cancelled pick p, s.perform service cancelled pick = some p →
      (IsRefusal p.result ↔ s.validate ≠ .ok ()) ∧
        (IsRefusal p.result → p.log = [] ∧ p.cancelled = cancelled)) ∧
    sched.RefusesQuietly ∧
    (∀ name users, (m.scaled name users).validate = .ok () ↔ m.validate = .ok ()) ∧
    ∀ stages stage, stage ∈ m.ramp stages ∨ stage ∈ sched.waves m →
      (stage.validate = .ok () ↔ m.validate = .ok ()) := by
  refine ⟨fun _ _ _ _ => Scenario.refusedIff_of_perform, ?_, m.validate_scaled, ?_⟩
  · exact ⟨fun _ _ _ _ => Scheduler.refusedIff_runMix,
      fun _ _ _ _ => Scheduler.refusedIff_runGradual,
      fun _ _ _ => Scheduler.refusedIff_runGradual,
      fun _ _ _ => Scheduler.refusedIff_runBurst, fun _ _ _ => Scheduler.refusedIff_runCustom⟩
  · rintro stages stage (hstage | hstage)
    · exact Mix.validate_ramp hstage
    · rw [Scheduler.waves] at hstage
      split at hstage
      · exact Mix.validate_waves hstage
      · cases hstage

/-- Two users of an action without pages. -/
def noPages : Mix where
  name := "empty"
  description := ""
  users := 2
  actions := [⟨⟨"nothing", "", []⟩, 1.0⟩]

/-- A gradual run that is refused on its first stage. -/
theorem refusals_areQuiet_noPages : ∃ o fault,
    (Scheduler.new .standard).runGradual noPages 2 (fun _ => Scheduler.secondFirst) = some o ∧
    o.result = .error fault ∧ fault.isRefusal = true ∧ o.log = [] ∧
    o.scheduler = .new .standard := by
  obtain ⟨o, hrun⟩ : ∃ o, (Scheduler.new .standard).runGradual noPages 2
      (fun _ => Scheduler.secondFirst) = some o := ⟨_, rfl⟩
  obtain ⟨-, hsched, -, -⟩ := refusals_areQuiet Scenario.pairTwice (.new .standard) noPages
  have hbad : noPages.validate ≠ .ok () := by
    rw [Ne, Mix.validate_eq_ok_iff]
    simp [noPages]
  have hrefused := hsched.gradual _ 2 _ o hrun
  have hrefusal := hrefused.isRefusal_iff.mpr (.inr ⟨hbad, _, rfl⟩)
  obtain ⟨hlog, hsame⟩ := hrefused.quiet hrefusal
  obtain ⟨fault, hresult, hfault⟩ := hrefusal
  exact ⟨o, fault, hrun, hresult, hfault, hlog, hsame⟩

end LoadBench
