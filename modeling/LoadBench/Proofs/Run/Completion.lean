import Mathlib.Tactic
import LoadBench.Proofs.Run.Barrier
import LoadBench.Proofs.Run.Heard
import LoadBench.Proofs.Run.Succession

/-!
# Reports are announced once

A run announces its report when it has one, as the last thing that is heard of it, and announces
nothing if it ends with a fault. Of several scenarios and of stages, those in front of the first
fault are announced, in their order, although what they come to together is the fault.

Results:
* `ScenarioRun.announces_step`, `LoadRun.announces_step`: what one move announces.
* `Announces.heard`: a report is announced after everything else, whatever is put off.
* `completions_placed`: what runs in succession announce.
* `reports_announcedOnce`: runs, several scenarios, and operations of a scheduler.
-/

namespace LoadBench

/-- What is heard of a run that has come to a result, or to none yet: its report, once and as the
    last of all, if it has one. -/
inductive Announces {ε α : Type} (completed : α → ε) : Option (Except Fault α) → List ε → Prop
  | pending {log : List ε} (h : ∀ report, completed report ∉ log) : Announces completed none log
  | faulted {log : List ε} (fault : Fault) (h : ∀ report, completed report ∉ log) :
    Announces completed (some (.error fault)) log
  | reported {before : List ε} (report : α) (h : ∀ other, completed other ∉ before) :
    Announces completed (some (.ok report)) (before ++ [completed report])

namespace Announces

variable {ε α : Type} {completed : α → ε} {result : Option (Except Fault α)} {log events : List ε}

theorem not_mem_append (h : Announces completed none log) (hevents : ∀ x, completed x ∉ events) :
    ∀ x, completed x ∉ log ++ events := by
  cases h with
  | pending hlog =>
    intro x hx
    rcases List.mem_append.mp hx with hx | hx
    · exact hlog x hx
    · exact hevents x hx

/-- The report of a result, if that is one. -/
theorem filterMap_eq {completed? : ε → Option α}
    (hcompleted : ∀ e x, completed? e = some x ↔ e = completed x) {result : Except Fault α}
    (h : Announces completed (some result) log) :
    log.filterMap completed? = result.toOption.toList := by
  have hsilent : ∀ {l : List ε}, (∀ x, completed x ∉ l) → l.filterMap completed? = [] := by
    intro l hl
    rw [List.filterMap_eq_nil_iff]
    intro e he
    rw [Option.eq_none_iff_forall_ne_some]
    intro x hx
    rw [hcompleted] at hx
    exact hl x (hx ▸ he)
  cases h with
  | faulted fault hlog => rw [hsilent hlog]; rfl
  | reported report hbefore =>
    rw [List.filterMap_append, hsilent hbefore,
      List.filterMap_cons_some ((hcompleted _ _).mpr rfl)]
    rfl

end Announces

/-! ## Scenarios -/

/-- The report that the run has. -/
def ScenarioEvent.completed? : ScenarioEvent → Option ScenarioReport
  | completed report => some report
  | _ => none

theorem ScenarioEvent.completed?_eq_some_iff (e : ScenarioEvent) (report : ScenarioReport) :
    e.completed? = some report ↔ e = .completed report := by
  cases e <;> simp [completed?]

/-- Whatever is put off, a report is heard of when everything else has been. -/
theorem Announces.heard {result : Option (Except Fault ScenarioReport)}
    {log heard : List ScenarioEvent} (h : Announces ScenarioEvent.completed result log)
    (hheard : Heard log heard) : Announces ScenarioEvent.completed result heard := by
  cases h with
  | pending hlog => exact .pending fun x hx => hlog x (hheard.perm.mem_iff.mpr hx)
  | faulted fault hlog => exact .faulted fault fun x hx => hlog x (hheard.perm.mem_iff.mpr hx)
  | @reported before report hbefore =>
    have hmem : .completed report ∈ heard := hheard.perm.mem_iff.mp (by simp)
    obtain ⟨first, last, rfl⟩ := List.append_of_mem hmem
    obtain ⟨first', last', hsplit, hfirst, hlast⟩ := hheard.split rfl rfl
    rcases append_eq_append_cons hsplit with ⟨more, rfl⟩ | ⟨more, rfl, hmore⟩
    · exact absurd (by simp) (hbefore report)
    · obtain ⟨rfl, rfl⟩ : more = [] ∧ last' = [] := by
        simpa [List.singleton_eq_append_iff] using hmore
      rw [List.append_nil] at hfirst
      obtain rfl := List.nil_perm.mp hlast
      exact .reported report fun x hx => hbefore x (hfirst.mem_iff.mpr hx)

namespace ScenarioRun

variable {s : Scenario} {service : Nat → Nat → CallEnd} {r r' : ScenarioRun} {m : ScenarioMove}

theorem announces_step (h : Announces .completed r.result r.log)
    (hstep : step? s service r m = some r') : Announces .completed r'.result r'.log := by
  cases step_of_step? hstep with
  | cancel hlive => exact h
  | openBatch hrun hclosed hmore hlive => exact h
  | refuse hrun hclosed hmore hcancel =>
    rw [hrun] at h
    exact .faulted _ (h.not_mem_append (by simp))
  | @call b b' move hrun hopen hjoin hmove =>
    rw [hrun] at h
    rw [observe_result, observe_log, hrun]
    refine .pending (h.not_mem_append fun x hx => ?_)
    cases move with
    | launch i => simp [seen] at hx
    | finish i =>
      simp only [seen] at hx
      cases hend : service r.settled.length i <;> simp [hend] at hx
    | join i => simp [seen] at hx
  | settle elapsedMs finishedAt hrun hopen hlive hdone =>
    rw [hrun] at h
    rw [hrun]
    exact .pending (h.not_mem_append (by simp))
  | conclude totalElapsedMs runId hrun hclosed hall =>
    rw [hrun] at h
    cases h with
    | pending hlog => exact .reported _ hlog
  | giveUp hrun hopen hcancel =>
    rw [hrun] at h
    exact .faulted _ (h.not_mem_append (by simp))

theorem announces_of_play {moves : List ScenarioMove} {cancelled : Bool}
    (h : (start cancelled).play? s service moves = some r) :
    Announces .completed r.result r.log := by
  have hstart : Announces ScenarioEvent.completed (start cancelled).result (start cancelled).log :=
    .pending (by simp [start])
  exact foldlM_keeps (fun _ _ _ hs hstep => announces_step hs hstep) hstart h

end ScenarioRun

theorem Scenario.announces_of_perform {s : Scenario} {service : Nat → Nat → CallEnd}
    {cancelled : Bool} {pick : ScenarioRun → List ScenarioMove}
    {p : Performed ScenarioEvent ScenarioReport}
    (h : s.perform service cancelled pick = some p) :
    Announces .completed (some p.result) p.log := by
  rcases perform_cases h with ⟨fault, -, rfl⟩ | ⟨cause, -, -, rfl⟩ |
    ⟨r, -, -, hplay, hresult, hlog, -⟩
  · exact .faulted fault (by simp)
  · exact .faulted (.broken cause) (by simp)
  · rw [← hresult, hlog]
    exact ScenarioRun.announces_of_play hplay

/-! ## Mixes -/

/-- The report that the run has. -/
def LoadEvent.completed? : LoadEvent → Option LoadReport
  | completed report => some report
  | _ => none

theorem LoadEvent.completed?_eq_some_iff (e : LoadEvent) (report : LoadReport) :
    e.completed? = some report ↔ e = .completed report := by
  cases e <;> simp [completed?]

namespace LoadRun

variable {m : Mix} {service : Nat → Nat → Nat → CallEnd} {r r' : LoadRun} {move : LoadMove}

theorem announces_step (h : Announces .completed r.result r.log)
    (hstep : step? m service r move = some r') : Announces .completed r'.result r'.log := by
  cases step_of_step? hstep with
  | cancel hlive => exact h
  | user hrun hu hmove =>
    rw [hrun] at h
    rw [hrun]
    refine .pending (h.not_mem_append fun x hx => ?_)
    cases (User.step_of_step? hmove).isOfUser _ hx
  | join hrun hu htask hlive =>
    rw [hrun] at h
    rw [noted, hrun, List.append_assoc]
    exact .pending (h.not_mem_append (by simp))
  | joinLost hrun hu htask hlive =>
    rw [hrun] at h
    rw [noted, hrun, List.append_assoc]
    exact .pending (h.not_mem_append (by simp))
  | joinStopped hrun hu htask =>
    rw [hrun] at h
    exact .faulted _ (h.not_mem_append (by simp))
  | conclude totalTimeMs hrun hlive hall =>
    rw [hrun] at h
    have hstates : ∀ x, .completed x ∉ [LoadEvent.entered .aggregating, .entered .complete] := by
      simp
    have hlast := Announces.reported (r.report m totalTimeMs) (h.not_mem_append hstates)
    rwa [List.append_assoc] at hlast
  | giveUp hrun hcancel =>
    rw [hrun] at h
    exact .faulted _ (h.not_mem_append (by simp))

theorem announces_of_play {moves : List LoadMove} {cancelled : Bool}
    (h : (start m cancelled).play? m service moves = some r) :
    Announces .completed r.result r.log := by
  have hstart : Announces LoadEvent.completed (start m cancelled).result (start m cancelled).log :=
    .pending (by simp [start])
  exact foldlM_keeps (fun _ _ _ hs hstep => announces_step hs hstep) hstart h

end LoadRun

/-- What can be seen of a run of a mix stands at its place, and announces its report. -/
theorem Scheduler.announces_of_runMix {sched : Scheduler} {m : Mix} {place : Nat} {course : Course}
    {o : Operation LoadReport} (h : sched.runMix m place course = some o) :
    ∃ log, o.log = log.map (place, ·) ∧ Announces .completed (some o.result) log := by
  rcases runMix_cases h with ⟨fault, -, rfl⟩ | ⟨r, -, hplay, hresult, hlog, -⟩
  · exact ⟨[], rfl, .faulted fault (by simp)⟩
  · refine ⟨r.log, hlog, ?_⟩
    rw [← hresult]
    exact LoadRun.announces_of_play hplay

/-! ## Runs in succession -/

/-- The reports that are announced, each with the place of its run. -/
def completions {ε α : Type} (completed? : ε → Option α) (log : List (Nat × ε)) :
    List (Nat × α) := log.filterMap fun e => (completed? e.2).map (e.1, ·)

section Placed

variable {ε α ρ : Type} {completed : α → ε} {completed? : ε → Option α}
  {result : ρ → Except Fault α} {runs : List ρ} {logs : List (List ε)} {tasks : Nat}
  {reports : List α} {outcome : Except Fault (List α)}

/-- The reports among the results of runs are the first ones, and there are no others. -/
theorem RunsEnd.placed_eq {results : List (Except Fault α)}
    (h : RunsEnd tasks results reports outcome) :
    placed (fun result => result.toOption.toList) results = reports.mapIdx Prod.mk := by
  have hreports : placed (fun result : Except Fault α => result.toOption.toList)
      (reports.map .ok) = reports.mapIdx Prod.mk := by
    rw [placed_map, ← placed_singleton]
    rfl
  cases h with
  | reported _ hlength => exact hreports
  | faulted _ fault hlength =>
    rw [placed_concat, hreports]
    exact List.append_nil _

theorem map_filterMap_of_announces
    (hcompleted : ∀ e x, completed? e = some x ↔ e = completed x)
    (hlogs : List.Forall₂ (fun p log => Announces completed (some (result p)) log) runs logs) :
    logs.map (·.filterMap completed?) = runs.map fun p => (result p).toOption.toList := by
  induction hlogs with
  | nil => rfl
  | cons hhead _ ih => rw [List.map_cons, List.map_cons, ih, hhead.filterMap_eq hcompleted]

/-- Runs one after the other announce the reports among their results, each at its place. -/
theorem completions_placed (hcompleted : ∀ e x, completed? e = some x ↔ e = completed x)
    (hend : RunsEnd tasks (runs.map result) reports outcome)
    (hlogs : List.Forall₂ (fun p log => Announces completed (some (result p)) log) runs logs) :
    completions completed? (placed id logs) = reports.mapIdx Prod.mk := by
  calc completions completed? (placed id logs)
      = placed (·.filterMap completed?) logs := filterMap_placed _ _ _
    _ = placed id (logs.map (·.filterMap completed?)) := (placed_map id _ _).symm
    _ = placed id (runs.map fun p => (result p).toOption.toList) := by
        rw [map_filterMap_of_announces hcompleted hlogs]
    _ = placed (fun result => result.toOption.toList) (runs.map result) := by
        rw [placed_map, placed_map]
        rfl
    _ = reports.mapIdx Prod.mk := hend.placed_eq

end Placed

/-- Stages leave what can be seen of their runs, one after the other, and announce their reports. -/
theorem Scheduler.announces_of_stageRuns {sched : Scheduler} {courses : Nat → Course}
    {stages : List Mix} {runs : List (Operation LoadReport)}
    (h : sched.stageRuns 0 courses stages = some runs) :
    ∃ logs, runs.flatMap Operation.log = placed id logs ∧
      List.Forall₂ (fun p log => Announces LoadEvent.completed (some p.result) log) runs logs := by
  have hlog : ∀ (k : Nat) (p : Operation LoadReport), runs[k]? = some p →
      p.log = (p.log.map (·.2)).map (k, ·) ∧
        Announces LoadEvent.completed (some p.result) (p.log.map (·.2)) := by
    intro k p hp
    obtain ⟨m, sched', -, hrun⟩ := getElem?_of_succession h hp
    obtain ⟨log, hplaced, hannounces⟩ := announces_of_runMix hrun
    rw [Nat.zero_add] at hplaced
    have hevents : p.log.map (·.2) = log := by simp [hplaced]
    rw [hevents]
    exact ⟨hplaced, hannounces⟩
  refine ⟨runs.map fun p => p.log.map (·.2), ?_, ?_⟩
  · rw [placed_map, placed, List.flatMap]
    congr 1
    apply List.ext_getElem?
    intro k
    rw [List.getElem?_map, List.getElem?_mapIdx]
    cases hp : runs[k]? with
    | none => rfl
    | some p => exact congrArg some (hlog k p hp).1
  · rw [List.forall₂_map_right_iff, List.forall₂_same]
    intro p hp
    obtain ⟨k, hk⟩ := List.getElem?_of_mem hp
    exact (hlog k p hk).2

/-! ## Whole runs -/

/-- However a scenario is run, its report is announced once, with the result, and nothing is heard
    of the run after it. -/
structure Scenario.AnnouncesOnce (s : Scenario) : Prop where
  /-- Wherever a run stands, and whether it is cancelled or not. -/
  play : ∀ service cancelled moves r,
    (ScenarioRun.start cancelled).play? s service moves = some r →
    ∀ heard, Heard r.log heard → Announces .completed r.result heard
  perform : ∀ service cancelled pick p, s.perform service cancelled pick = some p →
    ∀ heard, Heard p.log heard → Announces .completed (some p.result) heard

/-- Several scenarios have made some runs, with some reports, up to the first without one. -/
structure Scenario.RunsReported (scenarios : List Scenario) (service : Nat → Nat → Nat → CallEnd)
    (pick : Nat → ScenarioRun → List ScenarioMove)
    (runs : List (Performed ScenarioEvent ScenarioReport)) (reports : List ScenarioReport)
    (q : Performed (Nat × ScenarioEvent) (List ScenarioReport)) : Prop where
  run : ∀ (k : Nat) (p : Performed ScenarioEvent ScenarioReport), runs[k]? = some p →
    ∃ s cancelled, scenarios[k]? = some s ∧ s.perform (service k) cancelled (pick k) = some p
  log : q.log = placed Performed.log runs
  results : RunsEnd scenarios.length (runs.map Performed.result) reports q.result
  /-- The reports are announced in the order of the scenarios, each once. -/
  completions : ∀ heards, List.Forall₂ (fun p heard => Heard p.log heard) runs heards →
    completions ScenarioEvent.completed? (placed id heards) = reports.mapIdx Prod.mk
  /-- After the first scenario without a report nothing happens. -/
  nothingLater : ∀ k e, (k, e) ∈ q.log → k ≤ reports.length

/-- However several scenarios are run, their runs are reported. -/
structure Scenario.AllAnnounced (scenarios : List Scenario) : Prop where
  reported : ∀ service pick cancelled q, performAll service pick 0 cancelled scenarios = some q →
    ∃ runs reports, Scenario.runs service pick 0 cancelled scenarios = some runs ∧
      RunsReported scenarios service pick runs reports q
  returns : ∀ service pick cancelled runs,
    Scenario.runs service pick 0 cancelled scenarios = some runs →
    ∃ q, performAll service pick 0 cancelled scenarios = some q

/-- However a mix is run, its report is announced once, with the result, and nothing is heard of the
    run after it. -/
structure Mix.AnnouncesOnce (m : Mix) : Prop where
  play : ∀ service cancelled moves r, (LoadRun.start m cancelled).play? m service moves = some r →
    Announces .completed r.result r.log
  run : ∀ (sched : Scheduler) place course o, sched.runMix m place course = some o →
    ∃ log, o.log = log.map (place, ·) ∧ Announces .completed (some o.result) log

/-- An operation has run some stages, with some reports, up to the first without one. -/
structure Operation.StagesReported {α : Type} (stages : List Mix) (courses : Nat → Course)
    (runs : List (Operation LoadReport)) (reports : List LoadReport) (o : Operation α) : Prop where
  run : ∀ (k : Nat) (p : Operation LoadReport), runs[k]? = some p →
    ∃ (stage : Mix) (sched : Scheduler), stages[k]? = some stage ∧
      sched.runMix stage k (courses k) = some p
  log : o.log = runs.flatMap Operation.log
  results : RunsEnd stages.length (runs.map Operation.result) reports
    (runs.mapM Operation.result)
  /-- A stage without a report leaves the operation without one. -/
  fault : ∀ fault, runs.mapM Operation.result = .error fault → o.result = .error fault
  /-- The reports are announced in the order of the stages, each once, and also if a later stage has
      none. -/
  completions : completions LoadEvent.completed? o.log = reports.mapIdx Prod.mk

/-- Whatever a scheduler is asked for, its runs are reported. -/
def Scheduler.AnnouncesStages (sched : Scheduler) (request : Request) : Prop :=
  ∀ courses o, sched.serve? courses request = some o →
    ∃ runs reports, sched.stageRuns 0 courses (request.mixes sched) = some runs ∧
      o.StagesReported (request.mixes sched) courses runs reports

theorem RunsEnd.length_le {α : Type} {tasks : Nat} {results : List (Except Fault α)}
    {reports : List α} {outcome : Except Fault (List α)}
    (h : RunsEnd tasks results reports outcome) : results.length ≤ reports.length + 1 := by
  cases h with
  | reported _ hlength => simp
  | faulted _ fault hlength => simp

/-- If nothing is put off, the reports are announced as they are logged. -/
theorem Scenario.RunsReported.completions_log {scenarios : List Scenario}
    {service : Nat → Nat → Nat → CallEnd} {pick : Nat → ScenarioRun → List ScenarioMove}
    {runs : List (Performed ScenarioEvent ScenarioReport)} {reports : List ScenarioReport}
    {q : Performed (Nat × ScenarioEvent) (List ScenarioReport)}
    (h : RunsReported scenarios service pick runs reports q) :
    LoadBench.completions ScenarioEvent.completed? q.log = reports.mapIdx Prod.mk := by
  have hlogs : List.Forall₂ (fun p heard => Heard p.log heard) runs
      (runs.map Performed.log) := by
    rw [List.forall₂_map_right_iff, List.forall₂_same]
    intro p _
    exact .refl
  have hheard := h.completions _ hlogs
  rwa [placed_map, show placed (fun p => id (Performed.log p)) runs = q.log from h.log.symm]
    at hheard

theorem Scenario.announcesOnce (s : Scenario) : s.AnnouncesOnce where
  play _ _ _ _ hplay _ hheard := (ScenarioRun.announces_of_play hplay).heard hheard
  perform _ _ _ _ hperform _ hheard := (announces_of_perform hperform).heard hheard

theorem Scenario.runsReported {scenarios : List Scenario} {service : Nat → Nat → Nat → CallEnd}
    {pick : Nat → ScenarioRun → List ScenarioMove} {cancelled : Bool}
    {runs : List (Performed ScenarioEvent ScenarioReport)}
    {q : Performed (Nat × ScenarioEvent) (List ScenarioReport)}
    (hruns : Scenario.runs service pick 0 cancelled scenarios = some runs)
    (hlog : q.log = placed Performed.log runs)
    (hresult : q.result = runs.mapM Performed.result) :
    ∃ reports, RunsReported scenarios service pick runs reports q := by
  have hrun : ∀ (k : Nat) (p : Performed ScenarioEvent ScenarioReport), runs[k]? = some p →
      ∃ s cancelled, scenarios[k]? = some s ∧
        s.perform (service k) cancelled (pick k) = some p := by
    intro k p hp
    obtain ⟨s, token, hs, hperform⟩ := getElem?_of_succession hruns hp
    rw [Nat.zero_add] at hperform
    exact ⟨s, token, hs, hperform⟩
  obtain ⟨reports, hend⟩ := runsEnd_of_succession hruns
  rw [← hresult] at hend
  refine ⟨reports, hrun, hlog, hend, ?_, ?_⟩
  · intro heards hheards
    refine completions_placed ScenarioEvent.completed?_eq_some_iff hend ?_
    rw [List.forall₂_iff_get] at hheards ⊢
    refine ⟨hheards.1, fun k hk hk' => ?_⟩
    obtain ⟨s, token, -, hperform⟩ := hrun k _ (List.getElem?_eq_getElem hk)
    exact (announces_of_perform hperform).heard (hheards.2 k hk hk')
  · intro k e hmem
    rw [hlog] at hmem
    obtain ⟨p, hp, -⟩ := mem_placed.mp hmem
    have hk := (List.getElem?_eq_some_iff.mp hp).1
    have hle := hend.length_le
    rw [List.length_map] at hle
    omega

theorem Scenario.allAnnounced (scenarios : List Scenario) : AllAnnounced scenarios where
  reported service pick cancelled q hq := by
    rw [performAll_eq] at hq
    obtain ⟨runs, hruns, hq⟩ := Option.map_eq_some_iff.mp hq
    have hlog : q.log = placed Performed.log runs := by
      rw [← hq]
      simp [placed]
    have hresult : q.result = runs.mapM Performed.result := by rw [← hq]
    obtain ⟨reports, hreported⟩ := runsReported hruns hlog hresult
    exact ⟨runs, reports, hruns, hreported⟩
  returns service pick cancelled runs hruns := by
    rw [performAll_eq, hruns]
    exact ⟨_, rfl⟩

theorem Mix.announcesOnce (m : Mix) : m.AnnouncesOnce where
  play _ _ _ _ hplay := LoadRun.announces_of_play hplay
  run _ _ _ _ hrun := Scheduler.announces_of_runMix hrun

theorem Scheduler.announcesStages (sched : Scheduler) (request : Request) :
    sched.AnnouncesStages request := by
  intro courses o ho
  obtain ⟨runs, hruns, hfrom⟩ := runs_of_serve ho
  obtain ⟨reports, hend⟩ := runsEnd_of_succession hruns
  obtain ⟨logs, hlog, hannounces⟩ := announces_of_stageRuns hruns
  refine ⟨runs, reports, hruns, ?_, hfrom.log, hend, hfrom.fault, ?_⟩
  · intro k p hp
    obtain ⟨stage, sched', hstage, hrun⟩ := getElem?_of_succession hruns hp
    rw [Nat.zero_add] at hrun
    exact ⟨stage, sched', hstage, hrun⟩
  · rw [hfrom.log, hlog]
    exact completions_placed LoadEvent.completed?_eq_some_iff hend hannounces

/-- Every report is announced once, after all that is heard of its run, and with the value that the
    run comes to; a run without a report announces none. Several scenarios, and the stages of an
    operation, are announced in their order up to the first without a report, which ends them
    all. -/
theorem reports_announcedOnce (s : Scenario) (scenarios : List Scenario) (m : Mix)
    (sched : Scheduler) (request : Request) :
    s.AnnouncesOnce ∧ Scenario.AllAnnounced scenarios ∧ m.AnnouncesOnce ∧
      sched.AnnouncesStages request :=
  ⟨s.announcesOnce, Scenario.allAnnounced scenarios, m.announcesOnce, sched.announcesStages request⟩

/-- The second of two stages is cancelled when the first has its report. -/
def cancelsSecond (stage : Nat) : Course where
  service _ _ _ := .crashed
  moves r := if stage = 0 then Scheduler.secondFirst.moves r else [.cancel, .giveUp]

/-- Of three scenarios the second is refused, and of two stages the second is cancelled; the first
    ones are announced all the same. -/
theorem reports_announcedOnce_partly :
    (∃ q report, Scenario.performAll (fun _ => Scenario.crashesOnce)
        (fun _ => ScenarioRun.inOrder Scenario.pairTwice fun _ => false) 0 false
        [Scenario.pairTwice, .new "none" "", Scenario.pairTwice] = some q ∧
      q.result = .error (.plan (.noRequests "none")) ∧
      completions ScenarioEvent.completed? q.log = [(0, report)]) ∧
    ∃ o report, (Scheduler.new .standard).serve? cancelsSecond
        (.gradual Scheduler.hugeAndSmall 2) = some o ∧
      o.result = .error (.cancelled "mixed - stage 2/2 (2 users)") ∧
      completions LoadEvent.completed? o.log = [(0, report)] := by
  obtain ⟨-, hscenarios, -, hstages⟩ := reports_announcedOnce Scenario.pairTwice
    [Scenario.pairTwice, .new "none" "", Scenario.pairTwice] Scheduler.hugeAndSmall
    (.new .standard) (.gradual Scheduler.hugeAndSmall 2)
  constructor
  · obtain ⟨q, hq, hresult, hlength⟩ : ∃ q, Scenario.performAll (fun _ => Scenario.crashesOnce)
        (fun _ => ScenarioRun.inOrder Scenario.pairTwice fun _ => false) 0 false
        [Scenario.pairTwice, .new "none" "", Scenario.pairTwice] = some q ∧
        q.result = .error (.plan (.noRequests "none")) ∧
        (completions ScenarioEvent.completed? q.log).length = 1 := ⟨_, rfl, rfl, rfl⟩
    obtain ⟨runs, reports, -, hreported⟩ := hscenarios.reported _ _ _ q hq
    rw [hreported.completions_log, List.length_mapIdx] at hlength
    obtain ⟨report, rfl⟩ := List.length_eq_one_iff.mp hlength
    exact ⟨q, report, hq, hresult, hreported.completions_log⟩
  · obtain ⟨o, ho, hresult, hlength⟩ : ∃ o, (Scheduler.new .standard).serve? cancelsSecond
        (.gradual Scheduler.hugeAndSmall 2) = some o ∧
        o.result = .error (.cancelled "mixed - stage 2/2 (2 users)") ∧
        (completions LoadEvent.completed? o.log).length = 1 := ⟨_, rfl, rfl, rfl⟩
    obtain ⟨runs, reports, -, hreported⟩ := hstages _ o ho
    rw [hreported.completions, List.length_mapIdx] at hlength
    obtain ⟨report, rfl⟩ := List.length_eq_one_iff.mp hlength
    exact ⟨o, report, ho, hresult, hreported.completions⟩

end LoadBench
