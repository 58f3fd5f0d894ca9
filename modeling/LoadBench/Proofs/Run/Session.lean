import Mathlib.Tactic
import LoadBench.Proofs.Run.LoadRun
import LoadBench.Proofs.Run.Succession

/-!
# The state of a scheduler

A run of a mix that is ready comes into three states and ends complete, or into two and ends
cancelled. One that is refused, or that breaks down because its roster cannot be held, comes into
none: it leaves the scheduler and the results as they were. So a scheduler is at rest whenever it
can be asked for something, and its state says how the last run with a result ended.

Results:
* `LoadRun.enters_step`: the states that one move comes into.
* `Scheduler.standing_runMix`, `Scheduler.standing_stageRuns`: what a run, and the runs of some
  stages, make of the state.
* `Session.stands_step`: what one operation makes of it.
* `sessions_standAtRest`: the state after any operations.
-/

namespace LoadBench

/-! ## One run -/

theorem LoadEvent.entered?_of_isOfUser (e : LoadEvent) (h : e.isOfUser = true) :
    e.entered? = none := by
  cases e with
  | entered state => cases h
  | _ => rfl

namespace LoadRun

variable {m : Mix} {service : Nat → Nat → Nat → CallEnd} {r r' : LoadRun} {move : LoadMove}

/-- The states that a run has come into, by what it has come to. -/
inductive Enters (m : Mix) : Option (Except Fault LoadReport) → List RunState → Prop
  | running : Enters m none [.running]
  | complete (report : LoadReport) :
    Enters m (some (.ok report)) [.running, .aggregating, .complete]
  | cancelled : Enters m (some (.error (.cancelled m.name))) [.running, .cancelled]

theorem Enters.stop (h : Enters m none (r.log.filterMap LoadEvent.entered?)) :
    Enters m (r.stop m).result ((r.stop m).log.filterMap LoadEvent.entered?) := by
  rw [LoadRun.stop, List.filterMap_append]
  generalize r.log.filterMap LoadEvent.entered? = entered at h
  cases h
  exact .cancelled

theorem Enters.of_append {result : Option (Except Fault LoadReport)} {events : List LoadEvent}
    (h : Enters m result (r.log.filterMap LoadEvent.entered?))
    (hevents : events.filterMap LoadEvent.entered? = []) :
    Enters m result ((r.log ++ events).filterMap LoadEvent.entered?) := by
  rwa [List.filterMap_append, hevents, List.append_nil]

/-- Whatever move a run makes, the states it has come into are those of what it has come to. -/
theorem enters_step (h : Enters m r.result (r.log.filterMap LoadEvent.entered?))
    (hstep : step? m service r move = some r') :
    Enters m r'.result (r'.log.filterMap LoadEvent.entered?) := by
  cases step_of_step? hstep with
  | cancel hlive => exact h
  | user hrun hu hmove =>
    exact h.of_append ((User.step_of_step? hmove).filterMap_eq_nil LoadEvent.entered?_of_isOfUser)
  | join hrun hu htask hlive =>
    rw [noted, List.append_assoc]
    exact h.of_append rfl
  | joinLost hrun hu htask hlive =>
    rw [noted, List.append_assoc]
    exact h.of_append rfl
  | joinStopped hrun hu htask => exact Enters.stop (hrun ▸ h)
  | conclude totalTimeMs hrun hlive hall =>
    rw [hrun] at h
    rw [List.filterMap_append]
    generalize r.log.filterMap LoadEvent.entered? = entered at h
    cases h
    exact .complete _
  | giveUp hrun hcancel => exact Enters.stop (hrun ▸ h)

theorem enters_of_play {moves : List LoadMove} {cancelled : Bool}
    (h : (start m cancelled).play? m service moves = some r) :
    Enters m r.result (r.log.filterMap LoadEvent.entered?) :=
  foldlM_keeps (P := fun r => Enters m r.result (r.log.filterMap LoadEvent.entered?))
    (fun _ _ _ hs hstep => enters_step hs hstep) .running h

end LoadRun

/-! ## Runs one after the other -/

/-- The states that runs have come into. -/
def statesOf (log : List (Nat × LoadEvent)) : List RunState :=
  (log.map (·.2)).filterMap LoadEvent.entered?

theorem statesOf_append (log more : List (Nat × LoadEvent)) :
    statesOf (log ++ more) = statesOf log ++ statesOf more := by
  simp [statesOf]

/-- The state that the result of the last run leaves behind. -/
def RunState.after {α : Type} : Option (Except Fault α) → RunState
  | none => .idle
  | some (.ok _) => .complete
  | some (.error _) => .cancelled

/-- Where a scheduler stands that has come into some states by runs with some results. -/
structure Standing (entered : List RunState) (state : RunState)
    (results : List (Except Fault LoadReport)) : Prop where
  changes : (RunState.idle :: entered).IsChain RunState.LeadsTo
  last : (RunState.idle :: entered).getLast? = some state
  state_eq : state = .after results.getLast?
  /-- A run that is not refused has its report or is cancelled. -/
  ended : ∀ fault, .error fault ∈ results → ∃ name, fault = .cancelled name

theorem Standing.start : Standing [] .idle [] := by
  refine ⟨List.isChain_singleton _, rfl, rfl, ?_⟩
  intro fault hfault
  cases hfault

theorem RunState.isAtRest_after {α : Type} (result : Option (Except Fault α)) :
    (RunState.after result).isAtRest = true := by
  match result with
  | none => rfl
  | some (.ok _) => rfl
  | some (.error _) => rfl

/-- A run leads from a scheduler at rest into its states, and leaves the last of them behind. -/
theorem Standing.append {entered more : List RunState} {state last : RunState}
    {results : List (Except Fault LoadReport)} {result : Except Fault LoadReport}
    (h : Standing entered state results)
    (hchanges : (RunState.running :: more).IsChain RunState.LeadsTo)
    (hlast : (RunState.running :: more).getLast? = some last)
    (hstate : last = .after (some result))
    (hended : ∀ fault, result = .error fault → ∃ name, fault = .cancelled name) :
    Standing (entered ++ RunState.running :: more) last (results ++ [result]) where
  changes := by
    have hrest : state.isAtRest = true := by
      rw [h.state_eq]
      exact RunState.isAtRest_after _
    show ((RunState.idle :: entered) ++ RunState.running :: more).IsChain RunState.LeadsTo
    rw [List.isChain_append]
    refine ⟨h.changes, hchanges, ?_⟩
    intro x hx y hy
    rw [h.last, Option.mem_some_iff] at hx
    rw [List.head?_cons, Option.mem_some_iff] at hy
    rw [← hx, ← hy]
    exact .start hrest
  last := by
    show ((RunState.idle :: entered) ++ RunState.running :: more).getLast? = some last
    rw [List.getLast?_append, hlast]
    rfl
  state_eq := by rw [hstate, List.getLast?_concat]
  ended := by
    intro fault hfault
    rcases List.mem_append.mp hfault with hfault | hfault
    · exact h.ended fault hfault
    · exact hended fault (List.mem_singleton.mp hfault).symm

namespace Scheduler

variable {sched : Scheduler} {m : Mix} {place : Nat} {courses : Nat → Course}
  {entered : List RunState} {results : List (Except Fault LoadReport)}

theorem stateAfter_eq (state : RunState) (log : List LoadEvent) :
    stateAfter state log = (log.filterMap LoadEvent.entered?).getLastD state := by
  unfold stateAfter
  induction log generalizing state with
  | nil => rfl
  | cons e log ih =>
    rw [List.foldl_cons, ih]
    cases e with
    | entered next => exact List.getLastD_cons.symm
    | _ => rfl

/-- The result of a run counts unless the run is refused or breaks down. -/
def countedResults (m : Mix) (o : Operation LoadReport) : List (Except Fault LoadReport) :=
  if m.isReady then [o.result] else []

theorem standing_runMix {course : Course} {o : Operation LoadReport}
    (h : Standing entered sched.state results) (hrun : sched.runMix m place course = some o) :
    Standing (entered ++ statesOf o.log) o.scheduler.state (results ++ countedResults m o) := by
  rcases runMix_cases hrun with ⟨fault, hfault, rfl⟩ | ⟨r, hready, hplay, hresult, hlog, hsched⟩
  · have hno : m.isReady = false := by simp [Mix.isReady, hfault]
    simpa [refuse, statesOf, countedResults, hno] using h
  · have hyes : m.isReady = true := by simp [Mix.isReady, hready]
    have hstates : statesOf o.log = r.log.filterMap LoadEvent.entered? := by
      simp [statesOf, hlog, Function.comp_def]
    have henters := LoadRun.enters_of_play hplay
    rw [hresult, ← hstates] at henters
    have hstate : o.scheduler.state = (statesOf o.log).getLastD sched.state := by
      rw [hsched, hstates]
      exact stateAfter_eq _ _
    rw [countedResults, if_pos hyes, hstate]
    generalize statesOf o.log = states at henters
    generalize o.result = result at henters
    cases henters with
    | complete report =>
      refine h.append ?_ rfl rfl (by simp)
      exact .cons_cons .aggregate (.cons_cons .complete (.singleton _))
    | cancelled =>
      refine h.append ?_ rfl rfl (by simp)
      exact .cons_cons .cancel (.singleton _)

/-- The results that were handed back of some runs, each with its mix. -/
def handedBack (runs : List (Mix × Operation LoadReport)) : List (Except Fault LoadReport) :=
  (runs.filter (·.1.isReady)).map (·.2.result)

theorem handedBack_cons (m : Mix) (o : Operation LoadReport)
    (runs : List (Mix × Operation LoadReport)) :
    handedBack ((m, o) :: runs) = countedResults m o ++ handedBack runs := by
  unfold handedBack countedResults
  by_cases hm : m.isReady = true
  · simp [hm]
  · simp [hm]

/-- What the runs of some stages make of the state, by induction on those still to run. -/
theorem standing_stageRuns {stages : List Mix} {runs : List (Operation LoadReport)}
    (h : Standing entered sched.state results)
    (hruns : sched.stageRuns place courses stages = some runs) :
    Standing (entered ++ statesOf (runs.flatMap Operation.log))
      ((runs.getLast?.map Operation.scheduler).getD sched).state
      (results ++ handedBack (stages.zip runs)) := by
  induction stages generalizing sched place runs entered results with
  | nil =>
    cases hruns
    simpa [statesOf, handedBack] using h
  | cons m later ih =>
    obtain ⟨p, hp, ⟨fault, -, rfl⟩ | ⟨report, rest, -, hrest, rfl⟩⟩ := succession_cons_some hruns
    · have hrun := standing_runMix h hp
      rw [List.zip_cons_cons, handedBack_cons]
      simpa [handedBack] using hrun
    · have hrun := ih (standing_runMix h hp) hrest
      rw [List.zip_cons_cons, handedBack_cons, List.flatMap_cons, statesOf_append,
        getD_getLast?_cons]
      simpa only [List.append_assoc] using hrun

end Scheduler

/-! ## Sessions -/

namespace Session

variable {t t' : Session} {move : SessionMove}

/-- The state of the scheduler is that of its history. -/
def Stands (t : Session) : Prop := Standing t.entered t.scheduler.state t.results

theorem stands_start (settings : Settings) : (start settings).Stands := .start

/-- Whatever a scheduler is asked for, its state is that of its history. -/
theorem stands_step (h : t.Stands) (hstep : t.step? move = some t') : t'.Stands := by
  cases move with
  | ask request courses =>
    obtain ⟨o, ho, hstep⟩ := Option.bind_eq_some_iff.mp hstep
    obtain ⟨runs, hruns, hstep⟩ := Option.bind_eq_some_iff.mp hstep
    cases hstep
    obtain ⟨runs', hruns', hfrom⟩ := Scheduler.runs_of_serve ho
    obtain rfl : runs = runs' := by
      rw [hruns, Option.some_inj] at hruns'
      exact hruns'
    have hstages := Scheduler.standing_stageRuns h hruns
    rw [← hfrom.log, ← hfrom.scheduler] at hstages
    show Standing ((t.log ++ o.log.map (·.2)).filterMap LoadEvent.entered?) o.scheduler.state
      (Scheduler.handedBack (t.runs ++ (request.mixes t.scheduler).zip runs))
    rw [List.filterMap_append]
    have hback : Scheduler.handedBack (t.runs ++ (request.mixes t.scheduler).zip runs) =
        t.results ++ Scheduler.handedBack ((request.mixes t.scheduler).zip runs) := by
      simp [Scheduler.handedBack, results]
    rw [hback]
    exact hstages
  | cancel =>
    cases hstep
    exact h

theorem stands_of_play {settings : Settings} {moves : List SessionMove}
    (h : (start settings).play? moves = some t) : t.Stands :=
  foldlM_keeps (P := Stands) (fun _ _ _ hs hstep => stands_step hs hstep)
    (stands_start settings) h

/-- An operation that comes to a result is a move of the session. -/
theorem exists_step_of_serve {request : Request} {courses : Nat → Course}
    {o : Operation LoadOutcome} (h : t.scheduler.serve? courses request = some o) :
    ∃ t', t.step? (.ask request courses) = some t' ∧ t'.scheduler = o.scheduler ∧
      t'.log = t.log ++ o.log.map (·.2) := by
  obtain ⟨runs, hruns, -⟩ := Scheduler.runs_of_serve h
  refine ⟨⟨o.scheduler, t.log ++ o.log.map (·.2),
    t.runs ++ (request.mixes t.scheduler).zip runs⟩, ?_, rfl, rfl⟩
  simp only [step?, h, hruns]
  rfl

/-- What can be said of the state of a scheduler between two operations. -/
structure AtRest (t : Session) : Prop where
  /-- Every change of the state is one of those allowed. -/
  changes : (RunState.idle :: t.entered).IsChain RunState.LeadsTo
  /-- The state is the one it came into last. -/
  last : (RunState.idle :: t.entered).getLast? = some t.scheduler.state
  isAtRest : t.scheduler.state = .idle ∨ t.scheduler.state = .complete ∨
    t.scheduler.state = .cancelled
  idle_iff : t.scheduler.state = .idle ↔ t.results = []
  complete_iff : t.scheduler.state = .complete ↔
    ∃ report, t.results.getLast? = some (.ok report)
  cancelled_iff : t.scheduler.state = .cancelled ↔
    ∃ name, t.results.getLast? = some (.error (.cancelled name))

theorem Stands.atRest (h : t.Stands) : t.AtRest := by
  have hstate := h.state_eq
  cases hlast : t.results.getLast? with
  | none =>
    rw [hlast, RunState.after] at hstate
    rw [List.getLast?_eq_none_iff] at hlast
    exact ⟨h.changes, h.last, by simp [hstate], by simp [hstate, hlast], by simp [hstate, hlast],
      by simp [hstate, hlast]⟩
  | some result =>
    have hne : t.results ≠ [] := by
      rintro hnil
      simp [hnil] at hlast
    cases result with
    | ok report =>
      rw [hlast, RunState.after] at hstate
      exact ⟨h.changes, h.last, by simp [hstate], by simp [hstate, hne], by simp [hstate, hlast],
        by simp [hstate, hlast]⟩
    | error fault =>
      rw [hlast, RunState.after] at hstate
      obtain ⟨name, rfl⟩ := h.ended fault (List.mem_of_getLast? hlast)
      exact ⟨h.changes, h.last, by simp [hstate], by simp [hstate, hne], by simp [hstate, hlast],
        by simp [hstate, hlast]⟩

end Session

/-- A request that is refused, a run with its report, a cancellation, and a run that sees it. -/
def cancelledBetween : List SessionMove :=
  [.ask (.gradual Scheduler.hugeAndSmall 0) fun _ => Scheduler.secondFirst,
    .ask (.mix Scheduler.hugeAndSmall) fun _ => Scheduler.secondFirst, .cancel,
    .ask (.mix Scheduler.hugeAndSmall) fun _ => ⟨fun _ _ _ => .crashed, fun _ => [.giveUp]⟩]

end LoadBench
