import Mathlib.Tactic
import LoadBench.Proofs.Run.InTurn
import LoadBench.Proofs.Run.Scheduler
import LoadBench.Run.Session

/-!
# Runs in succession

Tasks that are run one after the other leave a list of runs: of the first tasks one each, all but
the last with a report, and the last one too if every task was run. Several scenarios, the stages of
a mix, and whatever a scheduler is asked for come to such runs, and to nothing else.

Results:
* `runsEnd_of_succession`: the results of the runs.
* `getElem?_of_succession`: the run at a place is one of the task at that place.
* `Scenario.performAll_eq`, `Scheduler.runStages_eq`: several scenarios and stages by their runs.
* `Scheduler.runs_of_serve`: every operation of a scheduler by its runs.
-/

namespace LoadBench

section Succession

variable {σ τ ρ α : Type} {run : Nat → σ → τ → Option ρ} {result : ρ → Except Fault α}
  {next : ρ → σ} {place : Nat} {state : σ} {task : τ} {tasks : List τ} {p : ρ} {runs : List ρ}

theorem succession_of_fault {fault : Fault} (h : run place state task = some p)
    (herror : result p = .error fault) (later : List τ) :
    succession run result next place state (task :: later) = some [p] := by
  rw [succession, h]
  simp only [Option.bind_eq_bind, Option.bind_some, herror]
  rfl

theorem succession_of_report {report : α} (h : run place state task = some p)
    (hok : result p = .ok report) (later : List τ) :
    succession run result next place state (task :: later) =
      (succession run result next (place + 1) (next p) later).map (p :: ·) := by
  rw [succession, h]
  simp only [Option.bind_eq_bind, Option.bind_some, hok]
  cases succession run result next (place + 1) (next p) later <;> rfl

/-- Runs of some tasks are one of the first task that ends with a fault, or one that has its report
    and the runs of the others. -/
theorem succession_cons_some {later : List τ}
    (h : succession run result next place state (task :: later) = some runs) :
    ∃ p, run place state task = some p ∧
      ((∃ fault, result p = .error fault ∧ runs = [p]) ∨
        ∃ report rest, result p = .ok report ∧
          succession run result next (place + 1) (next p) later = some rest ∧
          runs = p :: rest) := by
  cases hp : run place state task with
  | none => rw [succession, hp] at h; cases h
  | some p =>
    refine ⟨p, rfl, ?_⟩
    cases hresult : result p with
    | error fault =>
      rw [succession_of_fault hp hresult] at h
      cases h
      exact .inl ⟨fault, rfl, rfl⟩
    | ok report =>
      rw [succession_of_report hp hresult] at h
      obtain ⟨rest, hrest, rfl⟩ := Option.map_eq_some_iff.mp h
      exact .inr ⟨report, rest, rfl, hrest, rfl⟩

/-- The run at a place is one of the task at that place. -/
theorem getElem?_of_succession (h : succession run result next place state tasks = some runs)
    {k : Nat} (hk : runs[k]? = some p) :
    ∃ task state', tasks[k]? = some task ∧ run (place + k) state' task = some p := by
  induction tasks generalizing place state runs k with
  | nil =>
    cases h
    simp at hk
  | cons task later ih =>
    obtain ⟨first, hfirst, ⟨fault, -, rfl⟩ | ⟨report, rest, -, hrest, rfl⟩⟩ :=
      succession_cons_some h
    · cases k with
      | zero => cases hk; exact ⟨task, state, rfl, hfirst⟩
      | succ k => simp at hk
    · cases k with
      | zero => cases hk; exact ⟨task, state, rfl, hfirst⟩
      | succ k =>
        obtain ⟨task', state', htask, hrun⟩ := ih hrest hk
        have hplace : place + (k + 1) = place + 1 + k := by omega
        exact ⟨task', state', htask, hplace ▸ hrun⟩

/-- The results of the runs of some tasks, the reports among them, and what the runs come to: every
    task is run and has its report, or the last run is the first one without. -/
inductive RunsEnd (tasks : Nat) :
    List (Except Fault α) → List α → Except Fault (List α) → Prop
  | reported (reports : List α) (h : reports.length = tasks) :
    RunsEnd tasks (reports.map .ok) reports (.ok reports)
  | faulted (reports : List α) (fault : Fault) (h : reports.length < tasks) :
    RunsEnd tasks (reports.map .ok ++ [.error fault]) reports (.error fault)

theorem mapM_of_fault {fault : Fault} (herror : result p = .error fault) (rest : List ρ) :
    (p :: rest).mapM result = .error fault := by
  rw [List.mapM_cons, herror]
  rfl

theorem mapM_of_report {report : α} (hok : result p = .ok report) (rest : List ρ) :
    (p :: rest).mapM result = (rest.mapM result).map (report :: ·) := by
  rw [List.mapM_cons, hok]
  cases rest.mapM result <;> rfl

theorem getD_getLast?_cons (f : ρ → σ) (p : ρ) (rest : List ρ) (state : σ) :
    ((p :: rest).getLast?.map f).getD state = (rest.getLast?.map f).getD (f p) := by
  rw [List.getLast?_cons]
  cases rest.getLast? <;> rfl

theorem runsEnd_of_succession (h : succession run result next place state tasks = some runs) :
    ∃ reports, RunsEnd tasks.length (runs.map result) reports (runs.mapM result) := by
  induction tasks generalizing place state runs with
  | nil =>
    cases h
    exact ⟨[], .reported [] rfl⟩
  | cons task later ih =>
    obtain ⟨p, -, ⟨fault, herror, rfl⟩ | ⟨report, rest, hok, hrest, rfl⟩⟩ := succession_cons_some h
    · rw [mapM_of_fault herror, List.map_singleton, herror]
      exact ⟨[], .faulted [] fault (Nat.succ_pos _)⟩
    · obtain ⟨reports, hend⟩ := ih hrest
      rw [mapM_of_report hok, List.map_cons, hok]
      generalize rest.map result = results at hend
      generalize rest.mapM result = outcome at hend
      refine ⟨report :: reports, ?_⟩
      cases hend with
      | reported _ hlength => exact .reported (report :: reports) (by simpa using hlength)
      | faulted _ fault hlength => exact .faulted (report :: reports) fault (by simpa using hlength)

end Succession

/-! ## Places -/

section Placed

variable {α β γ : Type}

theorem placed_map (f : β → List γ) (g : α → β) (entries : List α) :
    placed f (entries.map g) = placed (fun entry => f (g entry)) entries := by
  induction entries using List.reverseRecOn with
  | nil => rfl
  | append_singleton entries entry ih =>
    rw [List.map_append, List.map_singleton, placed_concat, placed_concat, ih, List.length_map]

/-- One after the other, each under its place. -/
theorem placed_singleton (entries : List α) :
    placed (fun entry => [entry]) entries = entries.mapIdx Prod.mk := by
  induction entries using List.reverseRecOn with
  | nil => rfl
  | append_singleton entries entry ih =>
    rw [placed_concat, ih, List.mapIdx_concat]
    rfl

theorem filterMap_placed (keep : β → Option γ) (f : α → List β) (entries : List α) :
    (placed f entries).filterMap (fun e => (keep e.2).map (e.1, ·)) =
      placed (fun entry => (f entry).filterMap keep) entries := by
  induction entries using List.reverseRecOn with
  | nil => rfl
  | append_singleton entries entry ih =>
    rw [placed_concat, placed_concat, List.filterMap_append, ih, List.filterMap_map,
      List.map_filterMap]
    rfl

end Placed

/-! ## Scenarios -/

/-- Several scenarios leave the events of their runs, each under its place, and the reports of all
    of them or the fault of the first that has none. -/
theorem Scenario.performAll_eq (service : Nat → Nat → Nat → CallEnd)
    (pick : Nat → ScenarioRun → List ScenarioMove) (place : Nat) (cancelled : Bool)
    (scenarios : List Scenario) :
    performAll service pick place cancelled scenarios =
      (Scenario.runs service pick place cancelled scenarios).map fun runs =>
        { result := runs.mapM Performed.result
          log := (runs.mapIdx fun k p => p.log.map (place + k, ·)).flatten
          cancelled := (runs.getLast?.map Performed.cancelled).getD cancelled } := by
  induction scenarios generalizing place cancelled with
  | nil => rfl
  | cons s later ih =>
    cases hp : s.perform (service place) cancelled (pick place) with
    | none =>
      rw [performAll, Scenario.runs, succession, hp]
      rfl
    | some p =>
      cases hresult : p.result with
      | error fault =>
        have hruns : Scenario.runs service pick place cancelled (s :: later) = some [p] :=
          succession_of_fault hp hresult later
        rw [performAll, hp, hruns]
        simp [hresult, mapM_of_fault hresult]
      | ok report =>
        have hruns : Scenario.runs service pick place cancelled (s :: later) =
            (Scenario.runs service pick (place + 1) p.cancelled later).map (p :: ·) :=
          succession_of_report hp hresult later
        rw [performAll, hp, hruns, Option.map_map]
        simp only [Option.bind_eq_bind, Option.bind_some, hresult, ih]
        cases Scenario.runs service pick (place + 1) p.cancelled later with
        | none => rfl
        | some rest =>
          simp only [Option.map_some, Function.comp_apply, mapM_of_report hresult,
            getD_getLast?_cons, List.mapIdx_cons, List.flatten_cons, Nat.add_zero]
          simp [Nat.add_right_comm, Nat.add_assoc]

/-! ## Mixes -/

namespace Scheduler

/-- Stages leave the events of their runs, the scheduler of the last run, and the reports of all of
    them or the fault of the first that has none. -/
theorem runStages_eq (sched : Scheduler) (place : Nat) (courses : Nat → Course)
    (stages : List Mix) :
    sched.runStages place courses stages =
      (sched.stageRuns place courses stages).map fun runs =>
        { scheduler := (runs.getLast?.map Operation.scheduler).getD sched
          log := runs.flatMap Operation.log
          result := runs.mapM Operation.result } := by
  induction stages generalizing sched place with
  | nil => rfl
  | cons m later ih =>
    cases hp : sched.runMix m place (courses place) with
    | none =>
      rw [runStages, stageRuns, succession, hp]
      rfl
    | some p =>
      cases hresult : p.result with
      | error fault =>
        have hruns : sched.stageRuns place courses (m :: later) = some [p] :=
          succession_of_fault hp hresult later
        rw [runStages_of_fault hp hresult, hruns]
        simp [mapM_of_fault hresult]
      | ok report =>
        have hruns : sched.stageRuns place courses (m :: later) =
            (p.scheduler.stageRuns (place + 1) courses later).map (p :: ·) :=
          succession_of_report hp hresult later
        rw [runStages_of_report hp hresult, hruns, Option.map_map, ih]
        cases p.scheduler.stageRuns (place + 1) courses later with
        | none => rfl
        | some rest =>
          simp only [Option.map_some, Function.comp_apply, mapM_of_report hresult,
            getD_getLast?_cons, List.flatMap_cons]

end Scheduler

/-- An operation that starts from a scheduler has made some runs and nothing else; if one of them
    ends with a fault, so does the operation. -/
structure Operation.ComesFrom {α : Type} (sched : Scheduler) (runs : List (Operation LoadReport))
    (o : Operation α) : Prop where
  log : o.log = runs.flatMap Operation.log
  scheduler : o.scheduler = (runs.getLast?.map Operation.scheduler).getD sched
  fault : ∀ fault, runs.mapM Operation.result = .error fault → o.result = .error fault

theorem Operation.ComesFrom.map {α β : Type} {sched : Scheduler}
    {runs : List (Operation LoadReport)} {o : Operation α} (h : o.ComesFrom sched runs)
    (f : α → β) : (o.map f).ComesFrom sched runs where
  log := h.log
  scheduler := h.scheduler
  fault fault hfault := by
    rw [Operation.map, h.fault fault hfault]
    rfl

namespace Scheduler

variable {sched : Scheduler} {m : Mix} {courses : Nat → Course}

/-- The operation makes the runs of some stages. -/
def Runs {α : Type} (sched : Scheduler) (courses : Nat → Course) (stages : List Mix)
    (o : Operation α) : Prop :=
  ∃ runs, sched.stageRuns 0 courses stages = some runs ∧ o.ComesFrom sched runs

/-- An operation whose result is changed makes the same runs. -/
theorem Runs.of_map {α β : Type} {stages : List Mix} {made : Option (Operation α)} {f : α → β}
    {o : Operation β} (h : made.map (·.map f) = some o)
    (hmade : ∀ o', made = some o' → sched.Runs courses stages o') :
    sched.Runs courses stages o := by
  obtain ⟨o', ho', rfl⟩ := Option.map_eq_some_iff.mp h
  obtain ⟨runs, hruns, hfrom⟩ := hmade o' ho'
  exact ⟨runs, hruns, hfrom.map f⟩

theorem runs_of_refuse {α : Type} (sched : Scheduler) (courses : Nat → Course) (fault : Fault) :
    sched.Runs courses [] (sched.refuse fault : Operation α) := by
  refine ⟨[], rfl, rfl, rfl, ?_⟩
  intro fault' hfault
  cases hfault

theorem runs_of_runStages {stages : List Mix} {o : Operation (List LoadReport)}
    (h : sched.runStages 0 courses stages = some o) : sched.Runs courses stages o := by
  rw [runStages_eq] at h
  obtain ⟨runs, hruns, rfl⟩ := Option.map_eq_some_iff.mp h
  exact ⟨runs, hruns, rfl, rfl, fun _ hfault => hfault⟩

theorem runs_of_runMix {o : Operation LoadReport} (h : sched.runMix m 0 (courses 0) = some o) :
    sched.Runs courses [m] o := by
  refine ⟨[o], ?_, by simp, rfl, ?_⟩
  · cases hresult : o.result with
    | error fault => exact succession_of_fault h hresult []
    | ok report => exact succession_of_report h hresult []
  · intro fault hfault
    cases hresult : o.result with
    | error other =>
      rw [mapM_of_fault hresult] at hfault
      cases hfault
      rfl
    | ok report =>
      rw [mapM_of_report hresult] at hfault
      cases hfault

theorem runs_of_runGradual {stages : Nat} {o : Operation StagedReport}
    (h : sched.runGradual m stages courses = some o) : sched.Runs courses (m.ramp stages) o := by
  rcases runGradual_cases h with ⟨rfl, rfl⟩ | ⟨cause, -, hplan, rfl⟩ |
    ⟨mixes, o', -, hplan, ho', rfl⟩
  · exact runs_of_refuse sched courses _
  · rw [Mix.ramp, hplan]
    exact runs_of_refuse sched courses _
  · obtain ⟨runs, hruns, hfrom⟩ := runs_of_runStages ho'
    rw [Mix.ramp_of_planRamp hplan]
    exact ⟨runs, hruns, hfrom.map _⟩

theorem runs_of_runBurst {o : Operation StagedReport} (h : sched.runBurst m courses = some o) :
    sched.Runs courses (sched.waves m) o := by
  cases hvalid : sched.settings.validate with
  | error fault =>
    simp only [runBurst, hvalid] at h
    cases h
    simp only [waves, hvalid]
    exact runs_of_refuse sched courses fault
  | ok =>
    simp only [runBurst, hvalid] at h
    simp only [waves, hvalid]
    exact .of_map h fun _ => runs_of_runStages

theorem runs_of_runCustom {t : CustomTest} {o : Operation LoadOutcome}
    (h : sched.runCustom t courses = some o) :
    sched.Runs courses ((Request.custom t).mixes sched) o := by
  rw [runCustom] at h
  rw [Request.mixes]
  split_ifs at h with hnone
  · cases h
    rw [if_pos hnone]
    exact runs_of_refuse sched courses _
  · rw [if_neg hnone, mixes]
    cases hpattern : t.pattern with
    | uniform =>
      simp only [hpattern] at h
      exact .of_map h fun _ => runs_of_runMix
    | gradual =>
      simp only [hpattern] at h
      exact .of_map h fun _ => runs_of_runGradual
    | burst =>
      simp only [hpattern] at h
      exact .of_map h fun _ => runs_of_runBurst

/-- Whatever a scheduler is asked for, it makes the runs of the mixes of the request. -/
theorem runs_of_serve {request : Request} {o : Operation LoadOutcome}
    (h : sched.serve? courses request = some o) :
    sched.Runs courses (request.mixes sched) o := by
  cases request with
  | mix m => exact .of_map h fun _ => runs_of_runMix
  | gradual m stages => exact .of_map h fun _ => runs_of_runGradual
  | gradualStandard m => exact .of_map h fun _ => runs_of_runGradual
  | burst m => exact .of_map h fun _ => runs_of_runBurst
  | custom t => exact runs_of_runCustom h

end Scheduler

end LoadBench
