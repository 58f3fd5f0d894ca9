import Mathlib.Tactic
import LoadBench.Proofs.Run.LoadRun
import LoadBench.Proofs.Run.ScenarioRun

/-!
# A cancellation stops a run

A run that is cancelled before it has all it needs for its report ends with the fault of a cancelled
run. What is on record at that moment stays as it is, nothing more is opened, and the only calls
still made are those of batches that are open already.

Results:
* `ScenarioRun.Halts.step`, `LoadRun.Halts.step`: what a move of a cancelled run keeps.
* `ScenarioRun.halts_of_play`, `LoadRun.halts_of_play`: what such a run comes to.
* `cancellation_stops`: runs of scenarios, runs of mixes and stages end with the fault, if they do
  not break down at their start.
-/

namespace LoadBench

/-! ## Batches without joins -/

/-- A batch goes on to another without a join: its calls are launched and end, and nothing more is
    collected. -/
def Batch.DriftsTo (ends : Nat → CallEnd) (b b' : Batch) : Prop :=
  ∃ moves, (∀ m ∈ moves, BatchMove.isJoin m = false) ∧ b.play? ends moves = some b'

namespace Batch.DriftsTo

variable {ends : Nat → CallEnd} {b b' b'' : Batch} {m : BatchMove}

theorem refl (ends : Nat → CallEnd) (b : Batch) : DriftsTo ends b b := ⟨[], by simp, rfl⟩

theorem step (h : DriftsTo ends b b') (hmove : b'.step? ends m = some b'')
    (hm : m.isJoin = false) : DriftsTo ends b b'' := by
  obtain ⟨moves, hmoves, hplay⟩ := h
  refine ⟨moves ++ [m], ?_, foldlM_concat_some.mpr ⟨b', hplay, hmove⟩⟩
  simpa [or_imp, forall_and] using ⟨hmoves, hm⟩

end Batch.DriftsTo

/-! ## Scenarios -/

namespace ScenarioRun

variable {s : Scenario} {service : Nat → Nat → CallEnd} {r r' r'' : ScenarioRun} {m : ScenarioMove}

/-- What can become of a run that is cancelled. -/
structure Halts (s : Scenario) (service : Nat → Nat → CallEnd) (r r' : ScenarioRun) : Prop where
  cancelled : r'.cancelled = true
  /-- No iteration is put on record, as lost or otherwise. -/
  settled : r'.settled = r.settled
  /-- No batch is opened, and none of its calls is joined. -/
  batch : ∀ b', r'.batch = some b' →
    ∃ b, r.batch = some b ∧ b.DriftsTo (service r.settled.length) b'
  /-- The calls still made are those of the batch that was open. -/
  log : ∃ events, r'.log = r.log ++ events ∧ ∀ i j, .called i j ∈ events →
    i = r.settled.length ∧ r.batch.isSome = true
  /-- There is no report. -/
  result : r'.result = none ∨ r'.result = some (.error (.cancelled s.name))

theorem Halts.refl (hr : r.Sound s service) (hcancel : r.cancelled = true)
    (hmore : r.settled.length < s.iterations) : r.Halts s service r where
  cancelled := hcancel
  settled := rfl
  batch b hb := ⟨b, hb, .refl _ _⟩
  log := ⟨[], by simp, by simp⟩
  result := by
    cases hr.outcome with
    | pending hrun => exact .inl hrun
    | cancelled hclosed hcancel hresult => exact .inr hresult
    | reported totalElapsedMs runId hclosed hall hresult => omega

theorem Halts.stop (h : r.Halts s service r') : r.Halts s service (r'.stop s) where
  cancelled := h.cancelled
  settled := h.settled
  batch := by simp [ScenarioRun.stop]
  log := by
    obtain ⟨events, hlog, hcalls⟩ := h.log
    refine ⟨events ++ [.stopped r'.settled.length], ?_, ?_⟩
    · simp [ScenarioRun.stop, hlog]
    · intro i j hmem
      exact hcalls i j (by simpa using hmem)
  result := .inr rfl

theorem called_mem_seen {ends : Nat → CallEnd} {b : BatchMove} {i j : Nat}
    (h : .called i j ∈ r.seen s ends b) : i = r.settled.length := by
  cases b with
  | launch k =>
    have heq := List.mem_singleton.mp h
    cases heq
    rfl
  | finish k =>
    simp only [seen] at h
    cases hend : ends k <;> simp [hend] at h
  | join k => simp [seen] at h

/-- A move of a cancelled run puts nothing on record and opens nothing. -/
theorem Halts.step (h : r.Halts s service r') (hmore : r.settled.length < s.iterations)
    (hstep : step? s service r' m = some r'') : r.Halts s service r'' := by
  have hcancel := h.cancelled
  cases step_of_step? hstep with
  | cancel hlive => rw [hcancel] at hlive; cases hlive
  | openBatch hrun hclosed hother hlive => rw [hcancel] at hlive; cases hlive
  | refuse hrun hclosed hother _ => exact h.stop
  | @call b b' move hrun hopen hjoin hmove =>
    -- a join would have seen the cancellation
    have hpass : move.isJoin = false := by
      cases hm : move.isJoin with
      | false => rfl
      | true => rw [hjoin hm] at hcancel; cases hcancel
    obtain ⟨b₀, hb₀, hdrift⟩ := h.batch b hopen
    have hmoveAt : b.step? (service r.settled.length) move = some b' := h.settled ▸ hmove
    refine ⟨by simpa using hcancel, by simpa using h.settled, ?_, ?_, by simpa using h.result⟩
    · intro b'' hb''
      rw [observe_batch, Option.some_inj] at hb''
      exact ⟨b₀, hb₀, hb'' ▸ hdrift.step hmoveAt hpass⟩
    · obtain ⟨events, hlog, hcalls⟩ := h.log
      refine ⟨events ++ seen { r' with batch := some b' } s (service r'.settled.length) move,
        ?_, ?_⟩
      · rw [observe_log, ← List.append_assoc, ← hlog]
      · intro i j hmem
        rcases List.mem_append.mp hmem with hmem | hmem
        · exact hcalls i j hmem
        · refine ⟨(called_mem_seen hmem).trans (congrArg List.length h.settled), ?_⟩
          rw [hb₀]
          rfl
  | settle elapsedMs finishedAt hrun hopen hlive hdone => rw [hcancel] at hlive; cases hlive
  | conclude totalElapsedMs runId hrun hclosed hall => rw [h.settled] at hall; omega
  | giveUp hrun hopen _ => exact h.stop

theorem halts_of_play {moves : List ScenarioMove} (hr : r.Sound s service)
    (hcancel : r.cancelled = true) (hmore : r.settled.length < s.iterations)
    (h : r.play? s service moves = some r') : r.Halts s service r' :=
  foldlM_keeps (fun _ _ _ hs hstep => Halts.step hs hmore hstep) (Halts.refl hr hcancel hmore) h

/-- A run that is cancelled before it starts makes no call. -/
theorem no_calls_of_start_cancelled {moves : List ScenarioMove} (hmore : 0 < s.iterations)
    (h : (start true).play? s service moves = some r) (i j : Nat) : .called i j ∉ r.log := by
  intro hmem
  obtain ⟨events, hlog, hcalls⟩ := (halts_of_play (sound_start s service true) rfl hmore h).log
  rw [hlog] at hmem
  rcases List.mem_append.mp hmem with hmem | hmem
  · simp [start] at hmem
  · have hopen := (hcalls i j hmem).2
    cases hopen

end ScenarioRun

/-! ## Mixes -/

/-- What can become of a user of a cancelled run: the pages left and the open one stay, no call is
    joined, and the run takes no note. -/
structure User.Halts (service : Nat → Nat → CallEnd) (u u' : User) : Prop where
  action : u'.action = u.action
  isJoined : u'.isJoined = u.isJoined
  between : ∀ visits, u'.task = .between visits → u.task = .between visits
  visiting : ∀ visits b', u'.task = .visiting visits b' →
    ∃ b, u.task = .visiting visits b ∧ b.DriftsTo (service visits.length) b'

namespace User

variable {service : Nat → Nat → CallEnd} {index : Nat} {u u' u'' : User} {move : UserMove}
  {events : List LoadEvent}

theorem Halts.refl (service : Nat → Nat → CallEnd) (u : User) : u.Halts service u :=
  ⟨rfl, rfl, fun _ h => h, fun _ b hb => ⟨b, hb, .refl _ _⟩⟩

theorem called_mem_seen {index page user position i : Nat} {b : BatchMove}
    (h : .called user position i ∈ seen index page b) : user = index ∧ position = page := by
  cases b with
  | launch k =>
    have heq := List.mem_singleton.mp h
    cases heq
    exact ⟨rfl, rfl⟩
  | finish k => simp [seen] at h
  | join k => simp [seen] at h

theorem Halts.step (h : u.Halts service u')
    (hstep : u'.step? service index true move = some (u'', events)) :
    u.Halts service u'' ∧ ∀ user page i, .called user page i ∈ events →
      user = index ∧ ∃ visits b, u.task = .visiting visits b ∧ page = visits.length := by
  have hmove := step_of_step? hstep
  have hjoined : u''.isJoined = u.isJoined := by
    rw [hmove.not_joined.2, ← h.isJoined, hmove.not_joined.1]
  have haction : u''.action = u.action := hmove.action_eq.trans h.action
  cases hmove with
  | arrive htask hend => exact ⟨⟨haction, hjoined, by simp, by simp⟩, by simp⟩
  | crash htask hpage hcalls => exact ⟨⟨haction, hjoined, by simp, by simp⟩, by simp⟩
  | halt htask hpage hcalls _ => exact ⟨⟨haction, hjoined, by simp, by simp⟩, by simp⟩
  | enter htask hpage hcalls hlive => cases hlive
  | @call visits b b' m htask hjoin hcall =>
    have hpass : m.isJoin = false := by
      cases hm : m.isJoin with
      | false => rfl
      | true => cases hjoin hm
    obtain ⟨b₀, hb₀, hdrift⟩ := h.visiting visits b htask
    refine ⟨⟨haction, hjoined, by simp, ?_⟩, ?_⟩
    · rintro _ _ ⟨⟩
      exact ⟨b₀, hb₀, hdrift.step hcall hpass⟩
    · intro user page i hmem
      obtain ⟨rfl, rfl⟩ := called_mem_seen hmem
      exact ⟨rfl, visits, b₀, hb₀, rfl⟩
  | leave elapsedMs htask hlive hdone hpage => cases hlive
  | giveUp htask _ => exact ⟨⟨haction, hjoined, by simp, by simp⟩, by simp⟩

end User

namespace LoadRun

variable {m : Mix} {service : Nat → Nat → Nat → CallEnd} {r r' r'' : LoadRun} {move : LoadMove}

/-- What can become of a run that is cancelled. -/
structure Halts (m : Mix) (service : Nat → Nat → Nat → CallEnd) (r r' : LoadRun) : Prop where
  cancelled : r'.cancelled = true
  /-- No user is put on record, as lost or otherwise. -/
  walks : r'.walks = r.walks
  /-- No page is opened, left or put on record. -/
  users : ∀ (i : Nat) (u' : User), r'.users[i]? = some u' →
    ∃ u, r.users[i]? = some u ∧ u.Halts (service i) u'
  /-- The calls still made are those of the pages that were open. -/
  log : ∃ events, r'.log = r.log ++ events ∧ ∀ user page i, .called user page i ∈ events →
    ∃ u visits b, r.users[user]? = some u ∧ u.task = .visiting visits b ∧ page = visits.length
  /-- There is no report. -/
  result : r'.result = none ∨ r'.result = some (.error (.cancelled m.name))

theorem Halts.refl (hcancel : r.cancelled = true) (hrun : r.result = none) :
    r.Halts m service r where
  cancelled := hcancel
  walks := rfl
  users i u hu := ⟨u, hu, .refl _ _⟩
  log := ⟨[], by simp, by simp⟩
  result := .inl hrun

theorem Halts.stop (h : r.Halts m service r') : r.Halts m service (r'.stop m) where
  cancelled := h.cancelled
  walks := h.walks
  users := h.users
  log := by
    obtain ⟨events, hlog, hcalls⟩ := h.log
    refine ⟨events ++ [.entered .cancelled], ?_, ?_⟩
    · simp [LoadRun.stop, hlog]
    · intro user page i hmem
      exact hcalls user page i (by simpa using hmem)
  result := .inr rfl

/-- A move of a cancelled run puts nothing on record and opens nothing. -/
theorem Halts.step (h : r.Halts m service r') (hstep : step? m service r' move = some r'') :
    r.Halts m service r'' := by
  have hcancel := h.cancelled
  cases step_of_step? hstep with
  | cancel hlive => rw [hcancel] at hlive; cases hlive
  | @user index _ u u' new hrun hu hmove =>
    rw [hcancel] at hmove
    obtain ⟨u₀, hu₀, hhalts⟩ := h.users index u hu
    obtain ⟨hnext, hnew⟩ := hhalts.step hmove
    refine ⟨hcancel, h.walks, forall_users_set h.users ⟨u₀, hu₀, hnext⟩, ?_, h.result⟩
    obtain ⟨events, hlog, hcalls⟩ := h.log
    refine ⟨events ++ new, by simp only [hlog, List.append_assoc], ?_⟩
    intro user page i hmem
    rcases List.mem_append.mp hmem with hmem | hmem
    · exact hcalls user page i hmem
    · obtain ⟨rfl, visits, b, htask, hpage⟩ := hnew user page i hmem
      exact ⟨u₀, visits, b, hu₀, htask, hpage⟩
  | join hrun hu htask hlive => rw [hcancel] at hlive; cases hlive
  | joinLost hrun hu htask hlive => rw [hcancel] at hlive; cases hlive
  | joinStopped hrun hu htask => exact h.stop
  | conclude totalTimeMs hrun hlive hall => rw [hcancel] at hlive; cases hlive
  | giveUp hrun _ => exact h.stop

theorem halts_of_play {moves : List LoadMove} (hcancel : r.cancelled = true)
    (hrun : r.result = none) (h : r.play? m service moves = some r') : r.Halts m service r' :=
  foldlM_keeps (fun _ _ _ hs hstep => Halts.step hs hstep) (Halts.refl hcancel hrun) h

/-- A run that is cancelled before it starts makes no call. -/
theorem no_calls_of_start_cancelled {moves : List LoadMove}
    (h : (start m true).play? m service moves = some r) (user page i : Nat) :
    .called user page i ∉ r.log := by
  intro hmem
  obtain ⟨events, hlog, hcalls⟩ := (halts_of_play rfl rfl h).log
  rw [hlog] at hmem
  rcases List.mem_append.mp hmem with hmem | hmem
  · simp [start] at hmem
  · obtain ⟨u, visits, b, hu, htask, -⟩ := hcalls user page i hmem
    obtain ⟨a, -, rfl⟩ := Option.map_eq_some_iff.mp (List.getElem?_map ▸ hu)
    cases htask

end LoadRun

/-! ## Whole runs -/

/-- Some moves lead to a run that is cancelled and whose last batch is not settled. -/
structure ScenarioRun.CancelledInTime (s : Scenario) (service : Nat → Nat → CallEnd)
    (initially : Bool) (before : List ScenarioMove) (r : ScenarioRun) : Prop where
  play : (start initially).play? s service before = some r
  cancelled : r.cancelled = true
  unsettled : r.settled.length < s.iterations

/-- Some moves lead to a run that is cancelled and not over. -/
structure LoadRun.CancelledInTime (m : Mix) (service : Nat → Nat → Nat → CallEnd)
    (initially : Bool) (before : List LoadMove) (r : LoadRun) : Prop where
  play : (start m initially).play? m service before = some r
  cancelled : r.cancelled = true
  unfinished : r.result = none

/-- What a cancellation in time does to the runs of a scenario. -/
structure Scenario.StopsWhenCancelled (s : Scenario) : Prop where
  /-- Nothing more is put on record, and no batch is opened. -/
  halts : ∀ service initially before r after r',
    ScenarioRun.CancelledInTime s service initially before r →
    r.play? s service after = some r' → r.Halts s service r'
  /-- The result is the fault of a cancelled run. -/
  fault : ∀ service initially before r after p,
    ScenarioRun.CancelledInTime s service initially before r →
    s.perform service initially (fun _ => before ++ after) = some p →
    p.result = .error (.cancelled s.name)
  /-- The run has only so many moves, and goes on to its result. -/
  returns : ∀ service initially before r,
    ScenarioRun.CancelledInTime s service initially before r →
    before.length ≤ s.iterations * (3 * s.batchSize + 2) + 2 ∧
      ∃ after p, s.perform service initially (fun _ => before ++ after) = some p
  /-- A run that is cancelled before it starts makes no call. -/
  noCalls : ∀ service moves r i j, (ScenarioRun.start true).play? s service moves = some r →
    .called i j ∉ r.log

/-- What a cancellation in time does to the runs of a mix, alone or as a stage. -/
structure Mix.StopsWhenCancelled (m : Mix) : Prop where
  /-- Nothing more is put on record, and no page is opened. -/
  halts : ∀ service initially before r after r',
    LoadRun.CancelledInTime m service initially before r →
    r.play? m service after = some r' → r.Halts m service r'
  /-- The result is the fault of a cancelled run. -/
  fault : ∀ (sched : Scheduler) place service before r after o,
    LoadRun.CancelledInTime m service sched.cancelled before r →
    sched.runMix m place ⟨service, fun _ => before ++ after⟩ = some o →
    o.result = .error (.cancelled m.name)
  /-- The run has only so many moves, and goes on to its result. -/
  returns : ∀ (sched : Scheduler) place service before r,
    LoadRun.CancelledInTime m service sched.cancelled before r →
    before.length ≤ LoadRun.mixMoves m ∧
      ∃ after o, sched.runMix m place ⟨service, fun _ => before ++ after⟩ = some o
  /-- A run that is cancelled before it starts makes no call. -/
  noCalls : ∀ service moves r user page i, (LoadRun.start m true).play? m service moves = some r →
    .called user page i ∉ r.log
  /-- As a stage, it is the last one, whatever stages were to come. -/
  stages : ∀ (sched : Scheduler) place courses earlier later reached reports before r after o,
    sched.runStages place courses earlier = some reached → reached.result = .ok reports →
    LoadRun.CancelledInTime m (courses (place + earlier.length)).service
      reached.scheduler.cancelled before r →
    (courses (place + earlier.length)).moves (.start m reached.scheduler.cancelled) =
      before ++ after →
    sched.runStages place courses (earlier ++ m :: later) = some o →
    o.result = .error (.cancelled m.name) ∧
      ∃ log, o.log = reached.log ++ log ∧ ∀ q e, (q, e) ∈ log → q = place + earlier.length

theorem Scenario.iterations_pos {s : Scenario} (hvalid : s.validate = .ok ()) :
    0 < s.iterations := by
  rw [validate] at hvalid
  split_ifs at hvalid with hnone
  simpa [Nat.pos_iff_ne_zero] using hnone

theorem Scenario.stopsWhenCancelled {s : Scenario} (hvalid : s.validate = .ok ())
    (hprepared : s.prepare = .ok ()) : s.StopsWhenCancelled where
  halts service initially before r after r' h hplay :=
    ScenarioRun.halts_of_play ((ScenarioRun.sound_start s service initially).play h.play)
      h.cancelled h.unsettled hplay
  fault service initially before r after p h hperform := by
    obtain ⟨r', hplay, hresult, -, -⟩ := (perform_of_prepared hvalid hprepared).mp hperform
    replace hplay := (foldlM_append_of_some h.play after).symm.trans hplay
    have hr := (ScenarioRun.sound_start s service initially).play h.play
    rcases (ScenarioRun.halts_of_play hr h.cancelled h.unsettled hplay).result with hrun | hfault
    · rw [hrun] at hresult; cases hresult
    · exact Option.some_inj.mp (hresult.symm.trans hfault)
  returns service initially before r h := by
    refine ⟨ScenarioRun.length_le_of_play h.play, ?_⟩
    obtain ⟨after, p, -, hperform⟩ := exists_perform hvalid hprepared h.play
    exact ⟨after, p, hperform⟩
  noCalls service moves r i j hplay :=
    ScenarioRun.no_calls_of_start_cancelled (iterations_pos hvalid) hplay i j

theorem LoadRun.CancelledInTime.fault {m : Mix} (hready : m.ready = .ok ())
    {sched : Scheduler} {place : Nat} {course : Course} {before after : List LoadMove}
    {r : LoadRun} {o : Operation LoadReport}
    (h : CancelledInTime m course.service sched.cancelled before r)
    (hmoves : course.moves (.start m sched.cancelled) = before ++ after)
    (hrun : sched.runMix m place course = some o) :
    o.result = .error (.cancelled m.name) ∧ ∀ q e, (q, e) ∈ o.log → q = place := by
  obtain ⟨r', hplay, hresult, hlog, -⟩ := (Scheduler.runMix_of_ready hready).mp hrun
  rw [hmoves] at hplay
  replace hplay := (foldlM_append_of_some h.play after).symm.trans hplay
  constructor
  · rcases (halts_of_play h.cancelled h.unfinished hplay).result with hnone | hfault
    · rw [hnone] at hresult; cases hresult
    · exact Option.some_inj.mp (hresult.symm.trans hfault)
  · intro q e hmem
    rw [hlog] at hmem
    obtain ⟨_, -, heq⟩ := List.mem_map.mp hmem
    cases heq
    rfl

theorem Mix.stopsWhenCancelled {m : Mix} (hready : m.ready = .ok ()) :
    m.StopsWhenCancelled where
  halts service initially before r after r' h hplay :=
    LoadRun.halts_of_play h.cancelled h.unfinished hplay
  fault sched place service before r after o h hrun := (h.fault hready rfl hrun).1
  returns sched place service before r h := by
    refine ⟨LoadRun.length_le_of_play h.play, ?_⟩
    obtain ⟨after, o, -, hrun⟩ := Scheduler.exists_runMix hready place h.play
    exact ⟨after, o, hrun⟩
  noCalls service moves r user page i hplay :=
    LoadRun.no_calls_of_start_cancelled hplay user page i
  stages sched place courses earlier later reached reports before r after o hreached hok h hmoves
      hrun := by
    rw [Scheduler.runStages_append (m :: later) hreached hok] at hrun
    obtain ⟨o', hlater, rfl⟩ := Option.map_eq_some_iff.mp hrun
    obtain ⟨last, hmix, -⟩ := Option.bind_eq_some_iff.mp hlater
    obtain ⟨hfault, hplace⟩ := h.fault hready hmoves hmix
    rw [Scheduler.runStages_of_fault hmix hfault] at hlater
    cases hlater
    exact ⟨rfl, last.log, rfl, hplace⟩

/-- Runs that do not break down at their start stop if they are cancelled in time: a run of a
    scenario before its last batch is settled, a run of a mix before it is over, and stages with the
    one that is cancelled. They end with the fault of a cancelled run, without a report and without
    anything put on record from then on. -/
theorem cancellation_stops {s : Scenario} (hs : s.validate = .ok ())
    (hcalls : s.totalRequests < Counter.size) (hheld : s.iterations < Scenario.iterationLimit)
    {m : Mix} (hm : m.validate = .ok ()) (hroster : m.roster.length < Mix.rosterLimit) :
    s.StopsWhenCancelled ∧ m.StopsWhenCancelled :=
  ⟨Scenario.stopsWhenCancelled hs (Scenario.prepare_eq_ok_iff.mpr ⟨hcalls, hheld⟩),
    Mix.stopsWhenCancelled (Mix.ready_eq_ok_iff.mpr ⟨hm, hroster⟩)⟩

/-- A batch of which one call has crashed already when the run is cancelled, and a user who sees the
    cancellation before the run does. -/
theorem cancellation_stops_midway :
    Scenario.pairTwice.validate = .ok () ∧ Scenario.pairTwice.totalRequests < Counter.size ∧
    Scenario.pairTwice.iterations < Scenario.iterationLimit ∧
    Scheduler.hugeAndSmall.validate = .ok () ∧
    Scheduler.hugeAndSmall.roster.length < Mix.rosterLimit ∧
    (∃ before after r p,
      ScenarioRun.CancelledInTime Scenario.pairTwice Scenario.crashesOnce false before r ∧
      Scenario.pairTwice.perform Scenario.crashesOnce false (fun _ => before ++ after) = some p ∧
      p.result = .error (.cancelled "pair")) ∧
    ∃ before after r o,
      LoadRun.CancelledInTime Scheduler.hugeAndSmall (fun _ _ _ => .crashed) false before r ∧
      (Scheduler.new .standard).runMix Scheduler.hugeAndSmall 0
        ⟨fun _ _ _ => .crashed, fun _ => before ++ after⟩ = some o ∧
      o.result = .error (.cancelled "mixed") := by
  obtain ⟨hscenario, hmix⟩ := cancellation_stops (s := Scenario.pairTwice) rfl (by decide)
    (by decide) (m := Scheduler.hugeAndSmall) rfl (by decide)
  refine ⟨rfl, by decide, by decide, rfl, by decide, ?_, ?_⟩
  · let before : List ScenarioMove :=
      [.openBatch, .call (.launch 0), .call (.launch 1), .call (.finish 1), .call (.join 1),
        .cancel]
    obtain ⟨r, hr⟩ : ∃ r, ScenarioRun.CancelledInTime Scenario.pairTwice Scenario.crashesOnce false
        before r := ⟨_, rfl, rfl, by decide⟩
    obtain ⟨p, hp⟩ : ∃ p, Scenario.pairTwice.perform Scenario.crashesOnce false
        (fun _ => before ++ [.call (.finish 0), .giveUp]) = some p := ⟨_, rfl⟩
    exact ⟨before, _, r, p, hr, hp, hscenario.fault _ _ _ r _ p hr hp⟩
  · let before : List LoadMove :=
      [.user 0 .goOn, .user 1 .goOn, .user 1 (.call (.launch 0)), .cancel]
    obtain ⟨r, hr⟩ : ∃ r, LoadRun.CancelledInTime Scheduler.hugeAndSmall (fun _ _ _ => .crashed)
        (Scheduler.new .standard).cancelled before r := ⟨_, rfl, rfl, rfl⟩
    obtain ⟨o, ho⟩ : ∃ o, (Scheduler.new .standard).runMix Scheduler.hugeAndSmall 0
        ⟨fun _ _ _ => .crashed, fun _ => before ++ [.user 1 .giveUp, .join 1]⟩ = some o := ⟨_, rfl⟩
    exact ⟨before, _, r, o, hr, ho, hmix.fault _ 0 _ _ r _ o hr ho⟩

/-- A run that breaks down at its start does so also if it is cancelled. -/
theorem not_cancellation_stops :
    (¬ ∀ s : Scenario, s.validate = .ok () → ∀ service pick p,
      s.perform service true pick = some p → p.result = .error (.cancelled s.name)) ∧
    ¬ ∀ m : Mix, m.validate = .ok () → ∀ (sched : Scheduler) place course o,
      sched.cancelled = true → sched.runMix m place course = some o →
      o.result = .error (.cancelled m.name) := by
  constructor
  · intro hclaim
    have hfault := hclaim Scenario.pingWithoutEnd rfl (fun _ _ => .crashed) (fun _ => []) _
      (Scenario.perform_pingWithoutEnd _ _ _)
    cases hfault
  · intro hclaim
    have hfault := hclaim Scheduler.crowd rfl ⟨.standard, .idle, true⟩ 0 Scheduler.noMoves _ rfl
      (Scheduler.runMix_crowd _ _ _)
    cases hfault

end LoadBench
