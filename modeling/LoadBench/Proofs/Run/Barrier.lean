import Mathlib.Tactic
import LoadBench.Proofs.Run.Scheduler
import LoadBench.Proofs.Run.Trace

/-!
# Barriers between calls

However the calls of a run overlap and whatever they come to, there are three barriers: between the
iterations of a scenario, between the pages of a user, and between the stages of a staged run. No
call behind a barrier is made before all calls in front of it are over. A barrier is said at every
moment at which a call is made, of what could be seen up to then.

Results:
* `ScenarioRun.iterationsApart`: the iterations of a scenario.
* `LoadRun.pagesApart`: the pages of every user of a mix.
* `LoadRun.Traced.over_of_joined`: a run all of whose users are joined has seen the end of every
  call.
* `Scheduler.stagesApart`: the stages, by induction on those that are still to run.
* `calls_keepApart`: runs of scenarios and mixes, gradual runs and bursts.
-/

namespace LoadBench

/-! ## Iterations -/

/-- In what can be seen of the runs of a scenario, the iterations are apart. -/
structure Scenario.IterationsApart (s : Scenario) (log : List ScenarioEvent) : Prop where
  planned : ∀ k i, .called k i ∈ log → i < s.batchSize
  /-- When a call is made, every call of an earlier iteration is over. -/
  ended : ∀ before k i after, log = before ++ .called k i :: after →
    ∀ k' < k, ∀ i' < s.batchSize, .ended k' i' ∈ before
  /-- At no time more calls are in flight than one iteration has. -/
  inFlight : ∀ before after, log = before ++ after →
    (CallEvent.inFlight (before.filterMap ScenarioEvent.call?)).length ≤ s.batchSize

namespace ScenarioRun

variable {s : Scenario} {service : Nat → Nat → CallEnd} {r : ScenarioRun} {b : Batch}

theorem Traced.iterationsApart (h : r.Traced s b) : s.IterationsApart r.log where
  planned k i hcall := h.trace.lt_size (ScenarioEvent.mem_filterMap_call?.mpr hcall)
  ended before k i after hlog k' hk' i' hi' := by
    have hsplit : r.log.filterMap ScenarioEvent.call? =
        before.filterMap ScenarioEvent.call? ++
          .started k i :: after.filterMap ScenarioEvent.call? := by
      rw [hlog, List.filterMap_append]
      rfl
    exact ScenarioEvent.mem_filterMap_call?.mp (h.trace.ended_mem _ k i _ hsplit k' hk' i' hi')
  inFlight before after hlog :=
    h.trace.length_inFlight_le (fun _ => le_rfl)
      ((congrArg (List.filterMap ScenarioEvent.call?) hlog).trans List.filterMap_append)

theorem iterationsApart {moves : List ScenarioMove} {cancelled : Bool}
    (h : (start cancelled).play? s service moves = some r) : s.IterationsApart r.log := by
  obtain ⟨b, hb⟩ := exists_traced h
  exact hb.iterationsApart

end ScenarioRun

theorem Scenario.iterationsApart_of_perform {s : Scenario} {service : Nat → Nat → CallEnd}
    {cancelled : Bool} {pick : ScenarioRun → List ScenarioMove}
    {p : Performed ScenarioEvent ScenarioReport}
    (h : s.perform service cancelled pick = some p) : s.IterationsApart p.log := by
  rcases perform_cases h with ⟨fault, -, rfl⟩ | ⟨cause, -, -, rfl⟩ | ⟨r, -, -, hplay, -, hlog, -⟩
  · exact ⟨by simp, by simp, by simp [CallEvent.inFlight]⟩
  · have hstart : (ScenarioRun.start cancelled).play? s service [] = some (.start cancelled) := rfl
    exact ScenarioRun.iterationsApart hstart
  · rw [hlog]
    exact ScenarioRun.iterationsApart hplay

/-! ## Pages -/

/-- In what can be seen of the runs of a mix, the pages of every user are apart. -/
structure Mix.PagesApart (m : Mix) (log : List LoadEvent) : Prop where
  planned : ∀ user page i, .called user page i ∈ log → (user, page, i) ∈ m.callsInTurn
  /-- When a call is made, every call of an earlier page of the user is over. -/
  ended : ∀ before user page i after, log = before ++ .called user page i :: after →
    ∀ a, m.roster[user]? = some a → ∀ page' < page, ∀ p : Page, a.pages[page']? = some p →
      ∀ i' < p.size, .ended user page' i' ∈ before

theorem Mix.pagesApart_nil (m : Mix) : m.PagesApart [] := ⟨by simp, by simp⟩

theorem UserAction.lt_sizeReached {a : UserAction} {page i : Nat} :
    i < a.sizeReached page ↔ (page, i) ∈ a.callsInTurn := by
  rw [mem_callsInTurn, sizeReached]
  cases a.pagesReached[page]? <;> simp

namespace LoadRun

variable {m : Mix} {service : Nat → Nat → Nat → CallEnd} {r : LoadRun}

/-- Of a user who makes calls there is an action, and a trace of the pages. -/
theorem Traced.of_called (ht : r.Traced) (hr : r.Sound m service) {user page i : Nat}
    (h : .called user page i ∈ r.log) :
    ∃ a left b, m.roster[user]? = some a ∧
      InSequence a.sizeReached left b (r.log.filterMap (LoadEvent.callOf? user)) ∧
      i < a.sizeReached page := by
  have hstart : CallEvent.started page i ∈ r.log.filterMap (LoadEvent.callOf? user) :=
    LoadEvent.mem_filterMap_callOf?.mpr h
  cases hu : r.users[user]? with
  | none => rw [ht.nobody user hu] at hstart; cases hstart
  | some u =>
    obtain ⟨left, b, -, htrace⟩ := ht.user user u hu
    refine ⟨u.action, left, b, ?_, htrace, htrace.lt_size hstart⟩
    rw [← hr.actions, List.getElem?_map, hu, Option.map_some]

theorem Traced.pagesApart (ht : r.Traced) (hr : r.Sound m service) : m.PagesApart r.log where
  planned user page i hcall := by
    obtain ⟨a, -, -, ha, -, hi⟩ := ht.of_called hr hcall
    exact Mix.mem_callsInTurn.mpr ⟨a, ha, UserAction.lt_sizeReached.mp hi⟩
  ended before user page i after hlog a ha page' hlt p hp i' hi' := by
    have hcall : .called user page i ∈ r.log := by simp [hlog]
    obtain ⟨a', left, b, ha', htrace, hi⟩ := ht.of_called hr hcall
    obtain rfl := Option.some_inj.mp (ha'.symm.trans ha)
    have hsplit : r.log.filterMap (LoadEvent.callOf? user) =
        before.filterMap (LoadEvent.callOf? user) ++
          .started page i :: after.filterMap (LoadEvent.callOf? user) := by
      simp [hlog, LoadEvent.callOf?]
    -- the page of the call is reached, so the pages in front of it are
    obtain ⟨reached, hreached, -⟩ := UserAction.mem_callsInTurn.mp (UserAction.lt_sizeReached.mp hi)
    have hheld := (UserAction.getElem?_pagesReached.mp hreached).2
    have hsize : a'.sizeReached page' = p.size :=
      UserAction.sizeReached_eq (UserAction.getElem?_pagesReached.mpr
        ⟨hp, fun j hj => hheld j (hj.trans hlt.le)⟩)
    exact LoadEvent.mem_filterMap_callOf?.mp
      (htrace.ended_mem _ page i _ hsplit page' hlt i' (hsize ▸ hi'))

theorem pagesApart {moves : List LoadMove} {cancelled : Bool}
    (h : (start m cancelled).play? m service moves = some r) : m.PagesApart r.log :=
  (traced_of_play h).pagesApart ((sound_start m service cancelled).play h)

/-- When every user is joined, every call of the mix has been made and is over. -/
theorem Traced.over_of_joined (ht : r.Traced) (hr : r.Sound m service)
    (hall : r.users.all User.isJoined = true) {user page i : Nat}
    (hcall : (user, page, i) ∈ m.callsInTurn) :
    .called user page i ∈ r.log ∧ .ended user page i ∈ r.log := by
  obtain ⟨a, ha, hcall⟩ := Mix.mem_callsInTurn.mp hcall
  rw [← hr.actions, List.getElem?_map] at ha
  obtain ⟨u, hu, rfl⟩ := Option.map_eq_some_iff.mp ha
  have hjoined := List.all_eq_true.mp hall u (List.mem_of_getElem? hu)
  obtain ⟨n, htrace⟩ := (ht.user user u hu).of_isJoined hjoined
  obtain ⟨reached, hreached, -⟩ := UserAction.mem_callsInTurn.mp hcall
  have hpage := (List.getElem?_eq_some_iff.mp hreached).1
  have hi := UserAction.lt_sizeReached.mpr hcall
  exact ⟨LoadEvent.mem_filterMap_callOf?.mp (htrace.started_mem_iff_of_settled.mpr ⟨hpage, hi⟩),
    LoadEvent.mem_filterMap_callOf?.mp (htrace.ended_mem_iff_of_settled.mpr ⟨hpage, hi⟩)⟩

end LoadRun

/-! ## Stages -/

/-- What could be seen of the run at a place. -/
def eventsAt (place : Nat) (log : List (Nat × LoadEvent)) : List LoadEvent :=
  (log.filter (·.1 == place)).map (·.2)

theorem mem_eventsAt {place : Nat} {log : List (Nat × LoadEvent)} {e : LoadEvent} :
    e ∈ eventsAt place log ↔ (place, e) ∈ log := by
  simp [eventsAt]

theorem mem_map_place {place q : Nat} {log : List LoadEvent} {e : LoadEvent} :
    (q, e) ∈ log.map (place, ·) ↔ q = place ∧ e ∈ log := by
  simp [eq_comm, and_comm]

theorem eventsAt_append (place : Nat) (log more : List (Nat × LoadEvent)) :
    eventsAt place (log ++ more) = eventsAt place log ++ eventsAt place more := by
  simp [eventsAt]

theorem eventsAt_map (place : Nat) (log : List LoadEvent) :
    eventsAt place (log.map (place, ·)) = log := by
  simp [eventsAt, List.filter_map, Function.comp_def]

theorem eventsAt_eq_nil {place : Nat} {log : List (Nat × LoadEvent)}
    (h : ∀ q e, (q, e) ∈ log → q ≠ place) : eventsAt place log = [] := by
  rw [List.eq_nil_iff_forall_not_mem]
  intro e he
  exact h place e (mem_eventsAt.mp he) rfl

theorem eventsAt_map_of_ne {place q : Nat} (h : q ≠ place) (log : List LoadEvent) :
    eventsAt place (log.map (q, ·)) = [] :=
  eventsAt_eq_nil fun _ _ hmem => (mem_map_place.mp hmem).1 ▸ h

/-- In what can be seen of some stages, the first of which runs at a place, every stage is apart
    from those before it, and within a stage the pages of every user are apart. -/
structure StagesApart (place : Nat) (stages : List Mix) (log : List (Nat × LoadEvent)) : Prop where
  planned : ∀ q e, (q, e) ∈ log → ∃ k < stages.length, q = place + k
  pages : ∀ (k : Nat) (m : Mix), stages[k]? = some m → m.PagesApart (eventsAt (place + k) log)
  /-- When a call is made, every call of every user of an earlier stage is over. -/
  ended : ∀ before k user page i after, log = before ++ (place + k, .called user page i) :: after →
    ∀ k' < k, ∀ m : Mix, stages[k']? = some m →
      ∀ user' page' i', (user', page', i') ∈ m.callsInTurn →
        (place + k', .ended user' page' i') ∈ before

namespace StagesApart

variable {m : Mix} {place : Nat} {stages : List Mix} {log : List LoadEvent}
  {more : List (Nat × LoadEvent)}

theorem nil (place : Nat) (stages : List Mix) : StagesApart place stages [] where
  planned := by simp
  pages _ m _ := m.pagesApart_nil
  ended := by simp

/-- A stage that has no report is the last one, and apart from no other. -/
theorem single (stages : List Mix) (h : m.PagesApart log) :
    StagesApart place (m :: stages) (log.map (place, ·)) where
  planned q e hmem := ⟨0, by simp, (mem_map_place.mp hmem).1⟩
  pages k m' hm' := by
    cases k with
    | zero =>
      cases hm'
      rwa [Nat.add_zero, eventsAt_map]
    | succ k =>
      rw [eventsAt_map_of_ne (by omega)]
      exact m'.pagesApart_nil
  ended before k user page i after hlog k' hk' := by
    have hmem : (place + k, LoadEvent.called user page i) ∈ log.map (place, ·) := by
      rw [hlog]
      exact List.mem_append_right _ List.mem_cons_self
    have := (mem_map_place.mp hmem).1
    omega

theorem eventsAt_before (h : StagesApart (place + 1) stages more) : eventsAt place more = [] := by
  refine eventsAt_eq_nil fun q e hmem => ?_
  obtain ⟨k, -, rfl⟩ := h.planned q e hmem
  omega

/-- A stage all of whose calls are over comes before stages that are apart. -/
theorem cons (hpages : m.PagesApart log)
    (hended : ∀ user page i, (user, page, i) ∈ m.callsInTurn → .ended user page i ∈ log)
    (h : StagesApart (place + 1) stages more) :
    StagesApart place (m :: stages) (log.map (place, ·) ++ more) := by
  have hfirst : StagesApart place (m :: stages) (log.map (place, ·)) := .single stages hpages
  have hplace : ∀ k, place + (k + 1) = place + 1 + k := fun k => by omega
  refine ⟨fun q e hmem => ?_, fun k m' hm' => ?_, ?_⟩
  · rcases List.mem_append.mp hmem with hmem | hmem
    · exact hfirst.planned q e hmem
    · obtain ⟨k, hk, rfl⟩ := h.planned q e hmem
      exact ⟨k + 1, by simpa using hk, (hplace k).symm⟩
  · rw [eventsAt_append]
    cases k with
    | zero =>
      rw [Nat.add_zero, h.eventsAt_before, List.append_nil]
      exact hfirst.pages 0 m' hm'
    | succ k =>
      rw [eventsAt_map_of_ne (by omega), List.nil_append, hplace]
      exact h.pages k m' hm'
  · intro before k user page i after hlog k' hk' m' hm' user' page' i' hcall
    rcases append_eq_append_cons hlog with ⟨rest, hrest⟩ | ⟨rest, rfl, hrest⟩
    · exact hfirst.ended before k user page i rest hrest k' hk' m' hm' user' page' i' hcall
    · -- the call is one of a later stage, and the first stage is over
      cases k' with
      | zero =>
        cases hm'
        exact List.mem_append_left _ (List.mem_map_of_mem (hended user' page' i' hcall))
      | succ k' =>
        obtain ⟨k, rfl⟩ : ∃ j, k = j + 1 := ⟨k - 1, by omega⟩
        rw [hplace] at hrest ⊢
        exact List.mem_append_right _
          (h.ended rest k user page i after hrest k' (by omega) m' hm' user' page' i' hcall)

end StagesApart

namespace Scheduler

variable {sched : Scheduler} {m : Mix} {place : Nat} {courses : Nat → Course}

/-- What can be seen of a run of a mix: the pages are apart, and if there is a report, every call is
    over. -/
theorem exists_log_of_runMix {course : Course} {o : Operation LoadReport}
    (h : sched.runMix m place course = some o) :
    ∃ log, o.log = log.map (place, ·) ∧ m.PagesApart log ∧
      ∀ report, o.result = .ok report →
        ∀ user page i, (user, page, i) ∈ m.callsInTurn → .ended user page i ∈ log := by
  rcases runMix_cases h with ⟨fault, -, rfl⟩ | ⟨r, -, hplay, hresult, hlog, -⟩
  · exact ⟨[], rfl, m.pagesApart_nil, by simp [refuse]⟩
  · have hr := (LoadRun.sound_start m course.service sched.cancelled).play hplay
    refine ⟨r.log, hlog, LoadRun.pagesApart hplay, fun report hok user page i hcall => ?_⟩
    rcases hr.of_result hresult with ⟨-, hfault⟩ | ⟨totalTimeMs, hall, -⟩
    · rw [hok] at hfault
      cases hfault
    · exact ((LoadRun.traced_of_play hplay).over_of_joined hr hall hcall).2

theorem pagesApart {course : Course} {o : Operation LoadReport}
    (h : sched.runMix m place course = some o) : m.PagesApart (eventsAt place o.log) := by
  obtain ⟨log, hlog, hpages, -⟩ := exists_log_of_runMix h
  rwa [hlog, eventsAt_map]

/-- Stages are apart, by induction on those that are still to run. -/
theorem stagesApart {stages : List Mix} {o : Operation (List LoadReport)}
    (h : sched.runStages place courses stages = some o) : StagesApart place stages o.log := by
  induction stages generalizing sched place o with
  | nil =>
    cases h
    exact .nil place []
  | cons m stages ih =>
    obtain ⟨first, hfirst, hcases⟩ := runStages_cons_some h
    obtain ⟨log, hlog, hpages, hended⟩ := exists_log_of_runMix hfirst
    rcases hcases with ⟨fault, -, rfl⟩ | ⟨report, others, hresult, hothers, rfl⟩
    · simp only [hlog]
      exact .single stages hpages
    · simp only [hlog]
      exact .cons hpages (hended report hresult) (ih hothers)

/-- Stages on the way are apart as well, whatever stages are still to come. -/
theorem stagesApart_of_play {earlier : List Mix} {reached : Operation (List LoadReport)}
    {reports : List LoadReport} {service : Nat → Nat → Nat → CallEnd} {moves : List LoadMove}
    {r : LoadRun} (later : List Mix) (h : sched.runStages place courses earlier = some reached)
    (hok : reached.result = .ok reports)
    (hplay : (LoadRun.start m reached.scheduler.cancelled).play? m service moves = some r) :
    StagesApart place (earlier ++ m :: later)
      (reached.log ++ r.log.map (place + earlier.length, ·)) := by
  induction earlier generalizing sched place reached reports with
  | nil =>
    cases h
    exact .single later (LoadRun.pagesApart hplay)
  | cons first earlier ih =>
    obtain ⟨o, report, others, rest, hfirst, hresult, hothers, hrest, rfl⟩ :=
      reports_of_runStages h hok
    obtain ⟨log, hlog, hpages, hended⟩ := exists_log_of_runMix hfirst
    have happ := ih hothers hrest hplay
    rw [Nat.add_assoc, Nat.add_comm 1] at happ
    simp only [hlog, List.append_assoc]
    exact .cons hpages (hended report hresult) happ

theorem stagesApart_of_runGradual {stages : Nat} {o : Operation StagedReport}
    (h : sched.runGradual m stages courses = some o) : StagesApart 0 (m.ramp stages) o.log := by
  rcases runGradual_cases h with ⟨-, rfl⟩ | ⟨cause, -, -, rfl⟩ | ⟨mixes, o', -, hplan, ho', rfl⟩
  · exact .nil 0 _
  · exact .nil 0 _
  · rw [Mix.ramp_of_planRamp hplan]
    exact stagesApart ho'

theorem stagesApart_of_runBurst {o : Operation StagedReport}
    (h : sched.runBurst m courses = some o) : StagesApart 0 (sched.waves m) o.log := by
  cases hvalid : sched.settings.validate with
  | error fault =>
    simp only [runBurst, hvalid] at h
    cases h
    exact .nil 0 _
  | ok =>
    simp only [runBurst, hvalid] at h
    obtain ⟨o', ho', rfl⟩ := Option.map_eq_some_iff.mp h
    simp only [waves, hvalid]
    exact stagesApart ho'

end Scheduler

/-! ## Whole runs -/

/-- However the runs of a scenario go, and wherever they stand, the iterations are apart. -/
structure Scenario.KeepsApart (s : Scenario) : Prop where
  play : ∀ service cancelled moves r,
    (ScenarioRun.start cancelled).play? s service moves = some r → s.IterationsApart r.log
  perform : ∀ service cancelled pick p,
    s.perform service cancelled pick = some p → s.IterationsApart p.log

/-- However the runs of a mix go, alone or in stages, and wherever they stand, the pages of every
    user are apart, and the stages. -/
structure Mix.KeepsApart (m : Mix) : Prop where
  play : ∀ service cancelled moves r,
    (LoadRun.start m cancelled).play? m service moves = some r → m.PagesApart r.log
  run : ∀ (sched : Scheduler) place course o,
    sched.runMix m place course = some o → m.PagesApart (eventsAt place o.log)
  gradual : ∀ (sched : Scheduler) stages courses o,
    sched.runGradual m stages courses = some o → StagesApart 0 (m.ramp stages) o.log
  burst : ∀ (sched : Scheduler) courses o,
    sched.runBurst m courses = some o → StagesApart 0 (sched.waves m) o.log
  /-- The mix is a stage that is on its way, after some that have their reports. -/
  stage : ∀ (sched : Scheduler) place courses earlier later reached reports service moves r,
    sched.runStages place courses earlier = some reached → reached.result = .ok reports →
    (LoadRun.start m reached.scheduler.cancelled).play? m service moves = some r →
    StagesApart place (earlier ++ m :: later)
      (reached.log ++ r.log.map (place + earlier.length, ·))

/-- Whatever the calls come to, and however they overlap, no call of an iteration, of a page of a
    user, or of a stage is made before all calls of those in front of it are over. -/
theorem calls_keepApart (s : Scenario) (m : Mix) : s.KeepsApart ∧ m.KeepsApart := by
  constructor
  · exact ⟨fun _ _ _ _ => ScenarioRun.iterationsApart,
      fun _ _ _ _ => Scenario.iterationsApart_of_perform⟩
  · exact ⟨fun _ _ _ _ => LoadRun.pagesApart, fun _ _ _ _ => Scheduler.pagesApart,
      fun _ _ _ _ => Scheduler.stagesApart_of_runGradual,
      fun _ _ _ => Scheduler.stagesApart_of_runBurst,
      fun _ _ _ _ later _ _ _ _ _ => Scheduler.stagesApart_of_play later⟩

/-- The second iteration waits for a call that crashes, and the second stage for a call of a user of
    the first that does. -/
theorem calls_keepApart_crashing :
    (∃ p before after, Scenario.pairTwice.perform Scenario.crashesOnce false
        (ScenarioRun.inOrder Scenario.pairTwice fun _ => false) = some p ∧
      p.log = before ++ .called 1 0 :: after ∧ .ended 0 1 ∈ before) ∧
    ∃ o before after, (Scheduler.new .standard).runGradual Scheduler.hugeAndSmall 2
        (fun _ => Scheduler.secondFirst) = some o ∧
      o.log = before ++ (0 + 1, .called 1 0 0) :: after ∧ (0 + 0, .ended 1 0 0) ∈ before := by
  obtain ⟨hscenario, hmix⟩ := calls_keepApart Scenario.pairTwice Scheduler.hugeAndSmall
  constructor
  · obtain ⟨p, hperform, hcall⟩ : ∃ p, Scenario.pairTwice.perform Scenario.crashesOnce false
        (ScenarioRun.inOrder Scenario.pairTwice fun _ => false) = some p ∧
        p.log[7]? = some (.called 1 0) := ⟨_, rfl, rfl⟩
    obtain ⟨before, after, hlog⟩ := List.append_of_mem (List.mem_of_getElem? hcall)
    have hended := (hscenario.perform _ _ _ p hperform).ended before 1 0 after hlog
    exact ⟨p, before, after, hperform, hlog, hended 0 (by decide) 1 (by decide)⟩
  · obtain ⟨o, hrun, hcall⟩ : ∃ o, (Scheduler.new .standard).runGradual Scheduler.hugeAndSmall 2
        (fun _ => Scheduler.secondFirst) = some o ∧
        o.log[11]? = some (0 + 1, .called 1 0 0) := ⟨_, rfl, rfl⟩
    obtain ⟨before, after, hlog⟩ := List.append_of_mem (List.mem_of_getElem? hcall)
    obtain ⟨stage, hstage, hplanned⟩ : ∃ m, (Scheduler.hugeAndSmall.ramp 2)[0]? = some m ∧
        (1, 0, 0) ∈ m.callsInTurn := ⟨_, rfl, by decide⟩
    have hended := (hmix.gradual _ _ _ o hrun).ended before 1 1 0 0 after hlog
    exact ⟨o, before, after, hrun, hlog, hended 0 (by decide) stage hstage 1 0 0 hplanned⟩

end LoadBench
