import Mathlib.Tactic
import LoadBench.Proofs.Run.Completion
import LoadBench.Proofs.Run.Report

/-!
# The delays that runs ask for

A call can ask the service for a delay. A scenario is accepted only if the service can grant the
delays of all its calls. A mix is accepted whatever its requests ask for: their delays come through
pages, actions and stages as they are, and so the calls of a mix ask for what its requests do.

Results:
* `Call.asksWell_iff`: a call that is looked at by the checks of a scenario.
* `Scenario.handsOver_asksWell`: what a run of an accepted scenario hands over asks well.
* `Mix.handsOver_iff`: what the runs of a mix hand over is what it plans.
* `Scheduler.handsOver_kinds`: whatever a scheduler is asked for, its calls ask for what the
  requests of the mix ask for.
* `delays_handedOver`, `not_delays_handedOver`: which runs ask well, and that those of an accepted
  mix need not.
-/

namespace LoadBench

/-! ## Delays -/

/-- A call asks for no delay, or for a finite number of seconds that is not negative; no other
    number is sent as the parameter of the delay. -/
structure Call.AsksWell (c : Call) : Prop where
  delay : ∀ t, c.timeoutSecs = some t → t.isFinite = true ∧ ¬ t < 0.0
  parameter : ∀ text, ("timeout", text) ∈ c.parameters →
    ∃ t, text = NumberFormat.display.render t ∧ t.isFinite = true ∧ ¬ t < 0.0

/-- The parameter is the delay that the call asks for. -/
theorem Call.mem_parameters_timeout {c : Call} {text : String} :
    ("timeout", text) ∈ c.parameters ↔
      ∃ t, c.timeoutSecs = some t ∧ text = NumberFormat.display.render t := by
  unfold parameters
  cases c.timeoutSecs <;> cases c.queryCount <;> simp

theorem Call.asksWell_iff {c : Call} : c.AsksWell ↔ c.hasUsableDelay = true := by
  have husable : c.hasUsableDelay = true ↔
      ∀ t, c.timeoutSecs = some t → t.isFinite = true ∧ ¬ t < 0.0 := by
    unfold hasUsableDelay
    cases c.timeoutSecs <;> simp
  rw [husable]
  constructor
  · intro h
    exact h.delay
  · intro h
    refine ⟨h, ?_⟩
    intro text htext
    obtain ⟨t, ht, rfl⟩ := mem_parameters_timeout.mp htext
    exact ⟨t, rfl, h t ht⟩

/-! ## Scenarios -/

namespace Scenario

variable {s : Scenario}

theorem usable_of_validate (h : s.validate = .ok ()) {c : Call} (hc : c ∈ s.calls) :
    c.hasUsableDelay = true := by
  unfold validate at h
  split_ifs at h
  cases hbad : s.calls.find? (!·.hasUsableDelay) with
  | some bad =>
    rw [hbad] at h
    cases h
  | none => simpa using List.find?_eq_none.mp hbad c hc

/-- Every call that the runs of a scenario hand over has a property, wherever they stand. -/
structure HandsOver (s : Scenario) (P : Call → Prop) : Prop where
  play : ∀ service cancelled moves r, (ScenarioRun.start cancelled).play? s service moves = some r →
    ∀ k i, .called k i ∈ r.log → ∃ c, s.calls[i]? = some c ∧ P c
  perform : ∀ service cancelled pick p, s.perform service cancelled pick = some p →
    ∀ k i, .called k i ∈ p.log → ∃ c, s.calls[i]? = some c ∧ P c

theorem IterationsApart.exists_call {log : List ScenarioEvent} (h : s.IterationsApart log)
    {k i : Nat} (hcall : .called k i ∈ log) : ∃ c, s.calls[i]? = some c ∧ c ∈ s.calls := by
  have hi := h.planned k i hcall
  exact ⟨s.calls[i], List.getElem?_eq_getElem hi, List.getElem_mem hi⟩

/-- The checks of a scenario see every call that its runs hand over. -/
theorem handsOver_asksWell (h : s.validate = .ok ()) : s.HandsOver Call.AsksWell where
  play service cancelled moves r hplay k i hcall := by
    obtain ⟨c, hc, hmem⟩ := (ScenarioRun.iterationsApart hplay).exists_call hcall
    exact ⟨c, hc, Call.asksWell_iff.mpr (usable_of_validate h hmem)⟩
  perform service cancelled pick p hperform k i hcall := by
    obtain ⟨c, hc, hmem⟩ := (iterationsApart_of_perform hperform).exists_call hcall
    exact ⟨c, hc, Call.asksWell_iff.mpr (usable_of_validate h hmem)⟩

end Scenario

/-! ## Mixes -/

/-- The kinds of requests on the pages of the actions of a mix. -/
def Mix.kinds (m : Mix) : List RequestKind :=
  m.actions.flatMap fun w => w.item.pages.flatMap fun page => page.requests.map (·.item)

/-- The call that a mix plans for a user, on a page and at a position. -/
def Mix.callAt? (m : Mix) (user page position : Nat) : Option Call := do
  let action ← m.roster[user]?
  let page ← action.pages[page]?
  page.calls[position]?

/-- The calls that a mix plans, in the order of its users, their pages and the positions. -/
def Mix.plannedCalls (m : Mix) : List Call :=
  m.callsInTurn.filterMap fun place => m.callAt? place.1 place.2.1 place.2.2

/-- The calls of a page make requests of its kinds. -/
theorem Page.exists_kind {page : Page} {c : Call} (h : c ∈ page.calls) :
    ∃ w ∈ page.requests, c = w.item.call := by
  unfold calls at h
  obtain ⟨w, hw, hc⟩ := List.mem_flatMap.mp h
  exact ⟨w, hw, (List.mem_replicate.mp hc).2⟩

namespace Mix

variable {m : Mix}

theorem exists_action {a : UserAction} (h : a ∈ m.roster) : ∃ w ∈ m.actions, a = w.item := by
  unfold roster at h
  obtain ⟨w, hw, ha⟩ := List.mem_flatMap.mp h
  exact ⟨w, hw, (List.mem_replicate.mp ha).2⟩

/-- The calls that a mix plans make requests of its kinds: neither users nor pages change them. -/
theorem exists_kind {user page position : Nat} {c : Call}
    (h : m.callAt? user page position = some c) : ∃ kind ∈ m.kinds, c = kind.call := by
  unfold callAt? at h
  obtain ⟨a, ha, h⟩ := Option.bind_eq_some_iff.mp h
  obtain ⟨p, hp, hc⟩ := Option.bind_eq_some_iff.mp h
  obtain ⟨w, hw, rfl⟩ := exists_action (List.mem_of_getElem? ha)
  obtain ⟨request, hrequest, rfl⟩ := Page.exists_kind (List.mem_of_getElem? hc)
  refine ⟨request.item, ?_, rfl⟩
  exact List.mem_flatMap.mpr ⟨w, hw, List.mem_flatMap.mpr
    ⟨p, List.mem_of_getElem? hp, List.mem_map_of_mem hrequest⟩⟩

/-- Where a call is made in turn, there is one that the mix plans. -/
theorem exists_callAt {user page position : Nat} (h : (user, page, position) ∈ m.callsInTurn) :
    ∃ c, m.callAt? user page position = some c ∧ c ∈ m.plannedCalls := by
  obtain ⟨a, ha, hcall⟩ := mem_callsInTurn.mp h
  obtain ⟨p, hp, hi⟩ := UserAction.mem_callsInTurn.mp hcall
  rw [← Page.length_calls] at hi
  have hcallAt : m.callAt? user page position = some p.calls[position] := by
    simp only [callAt?, ha, (UserAction.getElem?_pagesReached.mp hp).1, Option.bind_eq_bind,
      Option.bind_some, List.getElem?_eq_getElem hi]
  exact ⟨_, hcallAt, List.mem_filterMap.mpr ⟨_, h, hcallAt⟩⟩

/-- Every call that the runs of a mix hand over has a property, wherever they stand. -/
structure HandsOver (m : Mix) (P : Call → Prop) : Prop where
  play : ∀ service cancelled moves r, (LoadRun.start m cancelled).play? m service moves = some r →
    ∀ user page i, .called user page i ∈ r.log → ∃ c, m.callAt? user page i = some c ∧ P c
  run : ∀ (sched : Scheduler) place course o, sched.runMix m place course = some o →
    ∀ user page i, .called user page i ∈ eventsAt place o.log →
      ∃ c, m.callAt? user page i = some c ∧ P c

theorem PagesApart.exists_call {log : List LoadEvent} (h : m.PagesApart log)
    {user page i : Nat} (hcall : .called user page i ∈ log) :
    ∃ c, m.callAt? user page i = some c ∧ c ∈ m.plannedCalls :=
  exists_callAt (h.planned user page i hcall)

/-- The runs of a mix hand over nothing but what it plans. -/
theorem handsOver_planned (m : Mix) : m.HandsOver (· ∈ m.plannedCalls) where
  play _ _ _ _ hplay _ _ _ hcall := (LoadRun.pagesApart hplay).exists_call hcall
  run _ _ _ _ hrun _ _ _ hcall := (Scheduler.pagesApart hrun).exists_call hcall

theorem HandsOver.mono {P Q : Call → Prop} (h : m.HandsOver P) (hPQ : ∀ c, P c → Q c) :
    m.HandsOver Q where
  play service cancelled moves r hplay user page i hcall := by
    obtain ⟨c, hc, hP⟩ := h.play service cancelled moves r hplay user page i hcall
    exact ⟨c, hc, hPQ c hP⟩
  run sched place course o hrun user page i hcall := by
    obtain ⟨c, hc, hP⟩ := h.run sched place course o hrun user page i hcall
    exact ⟨c, hc, hPQ c hP⟩

/-- A mix has a run that hands over every call it plans. -/
theorem exists_play_callsAll (m : Mix) (service : Nat → Nat → Nat → CallEnd) :
    ∃ moves r, (LoadRun.start m false).play? m service moves = some r ∧
      ∀ user page i, (user, page, i) ∈ m.callsInTurn → .called user page i ∈ r.log := by
  obtain ⟨moves, r, hmoves, hplay, hresult⟩ :=
    LoadRun.exists_play_to_result (LoadRun.sound_start m service false)
  obtain ⟨result, hresult⟩ := Option.isSome_iff_exists.mp hresult
  have hr := (LoadRun.sound_start m service false).play hplay
  refine ⟨moves, r, hplay, ?_⟩
  intro user page i hcall
  rcases hr.of_result hresult with ⟨hcancel, -⟩ | ⟨totalTimeMs, hall, -⟩
  · rw [LoadRun.cancelled_of_play rfl hmoves hplay] at hcancel
    cases hcancel
  · exact ((LoadRun.traced_of_play hplay).over_of_joined hr hall hcall).1

/-- What the runs of a mix hand over is what it plans, and all of it. -/
theorem handsOver_iff {P : Call → Prop} : m.HandsOver P ↔ ∀ c ∈ m.plannedCalls, P c := by
  constructor
  · intro h c hc
    obtain ⟨moves, r, hplay, hall⟩ := m.exists_play_callsAll fun _ _ _ => .crashed
    obtain ⟨⟨user, page, i⟩, hplace, hcallAt⟩ := List.mem_filterMap.mp hc
    obtain ⟨c', hc', hP⟩ := h.play _ _ _ r hplay user page i (hall user page i hplace)
    obtain rfl := Option.some_inj.mp (hcallAt.symm.trans hc')
    exact hP
  · intro h
    exact m.handsOver_planned.mono h

end Mix

/-! ## Schedulers -/

/-- The kinds of requests of the mix that a request is about. -/
def Request.kinds : Request → List RequestKind
  | mix m => m.kinds
  | gradual m _ => m.kinds
  | gradualStandard m => m.kinds
  | burst m => m.kinds
  | custom t => t.mix.kinds

theorem Mix.kinds_ramp {m stage : Mix} {stages : Nat} (h : stage ∈ m.ramp stages) :
    stage.kinds = m.kinds := by
  obtain ⟨name, users, rfl⟩ := exists_scaled_of_mem_ramp h
  rfl

theorem Mix.kinds_waves {m stage : Mix} {phases : List BurstPhase} (h : stage ∈ m.waves phases) :
    stage.kinds = m.kinds := by
  unfold waves at h
  obtain ⟨phase, -, rfl⟩ := List.mem_map.mp h
  rfl

namespace Scheduler

variable {sched : Scheduler}

theorem kinds_waves {m stage : Mix} (h : stage ∈ sched.waves m) : stage.kinds = m.kinds := by
  unfold waves at h
  split at h
  · exact Mix.kinds_waves h
  · cases h

/-- The stages of a mix ask for what the mix asks for. -/
theorem kinds_of_mem_mixes {request : Request} {stage : Mix}
    (h : stage ∈ request.mixes sched) : stage.kinds = request.kinds := by
  cases request with
  | mix m =>
    obtain rfl := List.mem_singleton.mp h
    rfl
  | gradual m stages => exact Mix.kinds_ramp h
  | gradualStandard m => exact Mix.kinds_ramp h
  | burst m => exact kinds_waves h
  | custom t =>
    have h : stage ∈ if t.actions.isEmpty then [] else sched.mixes t := h
    split_ifs at h
    · cases h
    · unfold mixes at h
      cases hpattern : t.pattern with
      | uniform =>
        simp only [hpattern, List.mem_singleton] at h
        obtain rfl := h
        rfl
      | gradual =>
        simp only [hpattern] at h
        exact Mix.kinds_ramp h
      | burst =>
        simp only [hpattern] at h
        exact kinds_waves h

/-- Every call that a scheduler hands over when it is asked for something has a property. -/
def HandsOver (sched : Scheduler) (request : Request) (P : Call → Prop) : Prop :=
  ∀ courses o, sched.serve? courses request = some o →
    ∀ place user page i, (place, .called user page i) ∈ o.log →
      ∃ m c, (request.mixes sched)[place]? = some m ∧ m.callAt? user page i = some c ∧ P c

/-- Whatever a scheduler is asked for, each call that it hands over makes a request of one of the
    kinds of the mix. -/
theorem handsOver_kinds (sched : Scheduler) (request : Request) :
    sched.HandsOver request fun c => ∃ kind ∈ request.kinds, c = kind.call := by
  intro courses o ho place user page i hcall
  obtain ⟨runs, reports, -, hstages⟩ := sched.announcesStages request courses o ho
  rw [hstages.log] at hcall
  obtain ⟨p, hp, hcall⟩ := List.mem_flatMap.mp hcall
  obtain ⟨k, hk⟩ := List.mem_iff_getElem?.mp hp
  obtain ⟨stage, sched', hstage, hrun⟩ := hstages.run k p hk
  -- the events of a run are those at its place
  obtain ⟨log, hlog, hpages, -⟩ := exists_log_of_runMix hrun
  rw [hlog] at hcall
  obtain ⟨hplace, hevent⟩ := mem_map_place.mp hcall
  subst hplace
  obtain ⟨c, hc, -⟩ := hpages.exists_call hevent
  obtain ⟨kind, hkind, rfl⟩ := Mix.exists_kind hc
  rw [kinds_of_mem_mixes (List.mem_of_getElem? hstage)] at hkind
  exact ⟨stage, _, hstage, hc, kind, hkind, rfl⟩

end Scheduler

/-! ## Which runs ask well -/

/-- The runs of an accepted scenario ask well. Those of a mix do if, and only if, the calls it plans
    do: that it is accepted plays no part, since nothing looks at their delays, and nothing changes
    them on the way through pages, actions and stages. -/
theorem delays_handedOver (sched : Scheduler) (request : Request) {s : Scenario}
    (hs : s.validate = .ok ()) (m : Mix) :
    s.HandsOver Call.AsksWell ∧
      (m.HandsOver Call.AsksWell ↔ ∀ c ∈ m.plannedCalls, c.AsksWell) ∧
      sched.HandsOver request fun c => ∃ kind ∈ request.kinds, c = kind.call :=
  ⟨s.handsOver_asksWell hs, Mix.handsOver_iff, sched.handsOver_kinds request⟩

theorem delays_handedOver_hugeAndSmall :
    Scenario.pairTwice.validate = .ok () ∧ Scheduler.hugeAndSmall.validate = .ok () ∧
      Scenario.pairTwice.HandsOver Call.AsksWell ∧
      Scheduler.hugeAndSmall.HandsOver Call.AsksWell := by
  obtain ⟨hscenario, hmix, -⟩ := delays_handedOver (.new .standard) (.mix Scheduler.hugeAndSmall)
    (s := Scenario.pairTwice) rfl Scheduler.hugeAndSmall
  refine ⟨rfl, rfl, hscenario, hmix.mpr ?_⟩
  intro c hc
  obtain ⟨⟨user, page, i⟩, hplace, hcallAt⟩ := List.mem_filterMap.mp hc
  obtain ⟨kind, hkind, rfl⟩ := Mix.exists_kind hcallAt
  have husable : ∀ kind ∈ Scheduler.hugeAndSmall.kinds, kind.call.hasUsableDelay = true := by decide
  exact Call.asksWell_iff.mpr (husable kind hkind)

/-- One user whose only call asks for a delay of less than no time. -/
def asksForLess : Mix where
  name := "mixed"
  description := ""
  users := 1
  actions := [⟨⟨"ask", "", [⟨"one", "",
    [⟨⟨⟨"ping", "Ping", ["timeout"]⟩, none, some (-1.0), 0, .low⟩, 0.1⟩]⟩]⟩, 1.0⟩]

/-- A mix can be accepted and ask for a negative delay. -/
theorem not_delays_handedOver :
    ¬ ∀ m : Mix, m.validate = .ok () → m.HandsOver Call.AsksWell := by
  intro hclaim
  have hasks := Mix.handsOver_iff.mp (hclaim asksForLess rfl)
  have hplanned : ∃ c ∈ asksForLess.plannedCalls, c.hasUsableDelay = false :=
    ⟨_, List.mem_of_getElem? (i := 0) rfl, rfl⟩
  obtain ⟨c, hc, hbad⟩ := hplanned
  rw [Call.asksWell_iff.mp (hasks c hc)] at hbad
  cases hbad

end LoadBench
