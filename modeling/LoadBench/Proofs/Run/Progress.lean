import Mathlib.Tactic
import LoadBench.Proofs.Run.Barrier
import LoadBench.Proofs.Run.Heard

/-!
# Progress of a run

The calls of a scenario share one counter: each that comes back is counted and told of, whatever its
batch comes to, and a call that crashes is not. The users of a mix are counted by the run itself,
one at a time, as it joins them.

Results:
* `ScenarioRun.told_step`, `LoadRun.Counts.step`: what one move tells, and the counter after it.
* `Told.progressTold_eq`, `Told.callsBack_eq`: the numbers told go up by one, and are the numbers of
  calls that have come back.
* `Heard.inTime`: a number is never heard before so many calls have come back.
* `progress_countsUp`: what is heard of uncancelled runs that do not break down at their start.
-/

namespace LoadBench

/-- What a reporter is told who hears of one after the other: the numbers from one on, each with the
    same total and name. -/
def countUp (total : Nat) (name : String) (n : Nat) : List (Nat × Nat × String) :=
  (List.range n).map fun c => (c + 1, total, name)

theorem length_countUp (total : Nat) (name : String) (n : Nat) :
    (countUp total name n).length = n := by
  simp [countUp]

theorem countUp_succ (total : Nat) (name : String) (n : Nat) :
    countUp total name (n + 1) = countUp total name n ++ [(n + 1, total, name)] := by
  rw [countUp, List.range_succ, List.map_append]
  rfl

/-! ## What is told of calls -/

/-- The numbers and the name that a reporter is told. -/
def ScenarioEvent.told? : ScenarioEvent → Option (Nat × Nat × String)
  | .progress n total scenario => some (n, total, scenario)
  | _ => none

/-- The call that is over. -/
def ScenarioEvent.ended? : ScenarioEvent → Option (Nat × Nat)
  | .ended k i => some (k, i)
  | _ => none

/-- All that a reporter is told of the progress of a run. -/
def progressTold (log : List ScenarioEvent) : List (Nat × Nat × String) :=
  log.filterMap ScenarioEvent.told?

/-- The calls that are over. -/
def callsEnded (log : List ScenarioEvent) : List (Nat × Nat) := log.filterMap ScenarioEvent.ended?

/-- A call comes back, with a success or a failure. -/
def comesBack (service : Nat → Nat → CallEnd) (call : Nat × Nat) : Bool :=
  (service call.1 call.2).result?.isSome

/-- The number of calls that have come back. -/
def callsBack (service : Nat → Nat → CallEnd) (log : List ScenarioEvent) : Nat :=
  (callsEnded log).countP (comesBack service)

theorem callsBack_append (service : Nat → Nat → CallEnd) (log more : List ScenarioEvent) :
    callsBack service (log ++ more) = callsBack service log + callsBack service more := by
  simp [callsBack, callsEnded]

theorem callsBack_perm (service : Nat → Nat → CallEnd) {log heard : List ScenarioEvent}
    (h : log.Perm heard) : callsBack service log = callsBack service heard :=
  (h.filterMap _).countP_eq _

/-- No number is told before so many calls have come back. -/
def ToldInTime (service : Nat → Nat → CallEnd) (log : List ScenarioEvent) : Prop :=
  ∀ before c total name after, log = before ++ .progress c total name :: after →
    c ≤ callsBack service before

/-- A log tells of every call that has come back as soon as it has, and of nothing else; the number
    is that of the calls told of. -/
inductive Told (s : Scenario) (service : Nat → Nat → CallEnd) : List ScenarioEvent → Nat → Prop
  | nil : Told s service [] 0
  | quiet {log : List ScenarioEvent} {n : Nat} {e : ScenarioEvent} (h : Told s service log n)
    (htold : e.told? = none) (hended : e.ended? = none) : Told s service (log ++ [e]) n
  | returned {log : List ScenarioEvent} {n k i : Nat} (h : Told s service log n)
    (hback : comesBack service (k, i) = true) :
    Told s service (log ++ [.ended k i, .progress (n + 1) s.totalRequests s.name]) (n + 1)
  | crashed {log : List ScenarioEvent} {n k i : Nat} (h : Told s service log n)
    (hlost : comesBack service (k, i) = false) : Told s service (log ++ [.ended k i]) n

namespace Told

variable {s : Scenario} {service : Nat → Nat → CallEnd} {log before after : List ScenarioEvent}
  {n : Nat} {e : ScenarioEvent}

theorem progressTold_eq (h : Told s service log n) :
    progressTold log = countUp s.totalRequests s.name n := by
  induction h with
  | nil => rfl
  | quiet _ htold _ ih => simpa [progressTold, List.filterMap_cons, htold] using ih
  | returned _ _ ih =>
    rw [countUp_succ, ← ih]
    simp [progressTold, List.filterMap_cons, ScenarioEvent.told?]
  | crashed _ _ ih => simpa [progressTold, List.filterMap_cons, ScenarioEvent.told?] using ih

theorem callsBack_eq (h : Told s service log n) : callsBack service log = n := by
  induction h with
  | nil => rfl
  | quiet _ _ hended ih => simpa [callsBack, callsEnded, List.filterMap_cons, hended] using ih
  | returned _ hback ih =>
    rw [callsBack_append, ih]
    simp [callsBack, callsEnded, List.filterMap_cons, ScenarioEvent.ended?, hback]
  | crashed _ hlost ih =>
    rw [callsBack_append, ih]
    simp [callsBack, callsEnded, ScenarioEvent.ended?, hlost]

/-- Up to an event that is not about a call that is over, a log tells of what has come back. -/
theorem of_append_cons (h : Told s service log n) (hsplit : log = before ++ e :: after)
    (htold : e.told? = none) (hended : e.ended? = none) : ∃ k, Told s service before k := by
  induction h generalizing after with
  | nil => simp at hsplit
  | @quiet log n x hlog _ _ ih =>
    rcases append_eq_append_cons hsplit with ⟨more, hmore⟩ | ⟨more, rfl, hmore⟩
    · exact ih hmore
    · obtain ⟨rfl, -⟩ : more = [] ∧ _ := by simpa [List.singleton_eq_append_iff] using hmore
      exact ⟨n, by simpa using hlog⟩
  | @returned log n k i hlog _ ih =>
    rcases append_eq_append_cons hsplit with ⟨more, hmore⟩ | ⟨more, rfl, hmore⟩
    · exact ih hmore
    · have he : e ∈ [.ended k i, .progress (n + 1) s.totalRequests s.name] := by
        rw [hmore]
        simp
      rcases List.mem_pair.mp he with rfl | rfl
      · cases hended
      · cases htold
  | @crashed log n k i hlog _ ih =>
    rcases append_eq_append_cons hsplit with ⟨more, hmore⟩ | ⟨more, rfl, hmore⟩
    · exact ih hmore
    · have he : e ∈ [ScenarioEvent.ended k i] := by
        rw [hmore]
        simp
      obtain rfl := List.mem_singleton.mp he
      cases hended

theorem inTime (h : Told s service log n) : ToldInTime service log := by
  intro before c total name after hsplit
  induction h generalizing after with
  | nil => simp at hsplit
  | @quiet log n x hlog htold _ ih =>
    rcases append_eq_append_cons hsplit with ⟨more, hmore⟩ | ⟨more, rfl, hmore⟩
    · exact ih _ hmore
    · obtain ⟨-, rfl, -⟩ : more = [] ∧ .progress c total name = x ∧ _ := by
        simpa [List.singleton_eq_append_iff] using hmore
      cases htold
  | @returned log n k i hlog hback ih =>
    rcases append_eq_append_cons hsplit with ⟨more, hmore⟩ | ⟨more, rfl, hmore⟩
    · exact ih _ hmore
    · rcases more with _ | ⟨x, more⟩
      · cases (List.cons.inj hmore).1
      · obtain ⟨rfl, hmore⟩ := List.cons.inj hmore
        obtain ⟨rfl, hlast, -⟩ : more = [] ∧ _ := by
          simpa [List.singleton_eq_append_iff] using hmore
        have hback : callsBack service [.ended k i] = 1 := by
          simp [callsBack, callsEnded, ScenarioEvent.ended?, hback]
        rw [callsBack_append, hlog.callsBack_eq, hback, hlast.1]
  | @crashed log n k i hlog _ ih =>
    rcases append_eq_append_cons hsplit with ⟨more, hmore⟩ | ⟨more, rfl, hmore⟩
    · exact ih _ hmore
    · rcases more with _ | ⟨x, more⟩
      · cases (List.cons.inj hmore).1
      · simp at hmore

end Told

/-! ## What is heard -/

/-- What is heard of the progress of a run of which `n` calls have come back. -/
structure Scenario.HeardOf (s : Scenario) (service : Nat → Nat → CallEnd) (n : Nat)
    (heard : List ScenarioEvent) : Prop where
  /-- The numbers from 1 to `n` are heard, each once, with the total and the name of the
      scenario. -/
  numbers : (progressTold heard).Perm (countUp s.totalRequests s.name n)
  inTime : ToldInTime service heard
  /-- When a batch is settled, all its calls that have come back have been heard of. -/
  settled : ∀ before k isBroken after, heard = before ++ .settled k isBroken :: after →
    (progressTold before).length = callsBack service before

section Heard

variable {s : Scenario} {service : Nat → Nat → CallEnd} {log heard : List ScenarioEvent} {n : Nat}

theorem PutOff.inTime (h : PutOff log heard) (hlog : ToldInTime service log) :
    ToldInTime service heard := by
  intro before c total name after hsplit
  obtain ⟨before', after', hbefore, hsides⟩ := h.split hsplit
  have hle := hlog before' c total name after' hbefore
  rcases hsides with ⟨hperm, -⟩ | ⟨-, ⟨_, _, _, rfl⟩ | ⟨e, rfl⟩⟩
  · rwa [← callsBack_perm service hperm]
  · -- the word that is let pass is not about a call that is over
    rwa [callsBack_append] at hle
  · rw [callsBack_append]
    exact hle.trans (Nat.le_add_right _ _)

theorem Heard.inTime (h : Heard log heard) (hlog : ToldInTime service log) :
    ToldInTime service heard := by
  induction h with
  | refl => exact hlog
  | tail _ hstep ih => exact hstep.inTime ih

/-- Whatever is put off, what is heard is what the log tells of. -/
theorem Told.heardOf (hlog : Told s service log n) (h : Heard log heard) :
    s.HeardOf service n heard where
  numbers := by
    rw [← hlog.progressTold_eq]
    exact h.perm.symm.filterMap _
  inTime := h.inTime hlog.inTime
  settled before k isBroken after hsplit := by
    obtain ⟨before', after', hbefore, hperm, -⟩ := h.split rfl hsplit
    obtain ⟨m, hm⟩ := hlog.of_append_cons hbefore rfl rfl
    have htold : (progressTold before').Perm (progressTold before) := hperm.filterMap _
    rw [← callsBack_perm service hperm, hm.callsBack_eq, ← htold.length_eq, hm.progressTold_eq,
      length_countUp]

end Heard

/-! ## Scenarios -/

namespace ScenarioRun

variable {s : Scenario} {service : Nat → Nat → CallEnd} {r r' : ScenarioRun} {m : ScenarioMove}

/-- Whatever move a run makes, its log tells of the calls that have come back. -/
theorem told_step (h : Told s service r.log r.completed) (hstep : step? s service r m = some r') :
    Told s service r'.log r'.completed := by
  cases step_of_step? hstep with
  | cancel hlive => exact h
  | openBatch hrun hclosed hmore hlive => exact h
  | refuse hrun hclosed hmore hcancel => exact h.quiet rfl rfl
  | @call b b' move hrun hopen hjoin hmove =>
    cases move with
    | launch i => exact h.quiet rfl rfl
    | finish i =>
      cases hend : service r.settled.length i with
      | returned result =>
        have hback : comesBack service (r.settled.length, i) = true := by
          simp [comesBack, hend, CallEnd.result?]
        simpa [observe, hend] using h.returned hback
      | crashed =>
        have hlost : comesBack service (r.settled.length, i) = false := by
          simp [comesBack, hend, CallEnd.result?]
        simpa [observe, hend] using h.crashed hlost
    | join i => exact h
  | settle elapsedMs finishedAt hrun hopen hlive hdone => exact h.quiet rfl rfl
  | conclude totalElapsedMs runId hrun hclosed hall => exact h.quiet rfl rfl
  | giveUp hrun hopen hcancel => exact h.quiet rfl rfl

theorem told_of_play {moves : List ScenarioMove} {cancelled : Bool}
    (h : (start cancelled).play? s service moves = some r) : Told s service r.log r.completed := by
  have hstart : Told s service (start cancelled).log (start cancelled).completed :=
    Told.nil.quiet rfl rfl
  exact foldlM_keeps (fun _ _ _ hs hstep => told_step hs hstep) hstart h

end ScenarioRun

namespace Scenario

variable {s : Scenario} {service : Nat → Nat → CallEnd}

/-- The calls of a scenario, by iteration and position. -/
def callsInTurn (s : Scenario) : List (Nat × Nat) :=
  placed (fun _ => List.range s.batchSize) (List.range s.iterations)

/-- The number of calls of a scenario that come back, those of lost iterations included. -/
def backCount (s : Scenario) (service : Nat → Nat → CallEnd) : Nat :=
  s.callsInTurn.countP (comesBack service)

theorem mem_callsInTurn {k i : Nat} :
    (k, i) ∈ s.callsInTurn ↔ k < s.iterations ∧ i < s.batchSize := by
  simp [callsInTurn, mem_placed, List.getElem?_eq_some_iff]

theorem nodup_callsInTurn (s : Scenario) : s.callsInTurn.Nodup :=
  nodup_placed fun _ _ => List.nodup_range

theorem length_callsInTurn (s : Scenario) :
    s.callsInTurn.length = s.batchSize * s.iterations := by
  simp [callsInTurn, length_placed, Nat.mul_comm]

theorem backCount_le (s : Scenario) (service : Nat → Nat → CallEnd) :
    s.backCount service ≤ s.batchSize * s.iterations := by
  rw [← length_callsInTurn]
  exact List.countP_le_length

/-- All calls come back iff none crashes. -/
theorem backCount_eq_iff : s.backCount service = s.batchSize * s.iterations ↔
    ∀ k < s.iterations, ∀ i < s.batchSize, service k i ≠ .crashed := by
  rw [← length_callsInTurn, backCount, List.countP_eq_length]
  constructor
  · intro h k hk i hi hcrash
    have hback := h (k, i) (mem_callsInTurn.mpr ⟨hk, hi⟩)
    simp [comesBack, hcrash, CallEnd.result?] at hback
  · rintro h ⟨k, i⟩ hcall
    obtain ⟨hk, hi⟩ := mem_callsInTurn.mp hcall
    have hne := h k hk i hi
    rw [Ne, ← result?_eq_none_iff, ← Option.not_isSome_iff_eq_none, not_not] at hne
    exact hne

end Scenario

theorem count_callsEnded (log : List ScenarioEvent) (k i : Nat) :
    (callsEnded log).count (k, i) = (log.filterMap ScenarioEvent.call?).count (.ended k i) := by
  rw [callsEnded, List.count_filterMap, List.count_filterMap]
  congr 1
  funext e
  cases e <;> simp [ScenarioEvent.ended?, ScenarioEvent.call?]

/-- When all iterations are settled, the calls that are over are those of the scenario in turn. -/
theorem ScenarioRun.Traced.callsEnded_perm {s : Scenario} {r : ScenarioRun} {n : Nat}
    (ht : r.Traced s (.start n)) (hall : r.settled.length = s.iterations) :
    (callsEnded r.log).Perm s.callsInTurn := by
  rw [List.perm_iff_count]
  rintro ⟨k, i⟩
  have hcount : (callsEnded r.log).count (k, i) =
      if k < s.iterations ∧ i < s.batchSize then 1 else 0 := by
    rw [count_callsEnded, ht.trace.count_eq, CallEvent.call, CallEvent.count_ended_take,
      Batch.rankIn_start, hall]
    split_ifs <;> simp_all
  rw [hcount, s.nodup_callsInTurn.count]
  simp only [Scenario.mem_callsInTurn]

/-! ## Mixes -/

/-- The numbers and the name that a reporter is told. -/
def LoadEvent.told? : LoadEvent → Option (Nat × Nat × String)
  | .progress n total scenario => some (n, total, scenario)
  | _ => none

/-- No move of a user is told of. -/
theorem LoadEvent.told?_of_isOfUser (e : LoadEvent) (h : e.isOfUser = true) : e.told? = none := by
  cases e with
  | progress n total scenario => cases h
  | _ => rfl

namespace LoadRun

variable {m : Mix} {service : Nat → Nat → Nat → CallEnd} {r r' : LoadRun} {move : LoadMove}

/-- A run has told of the users it has joined, one after the other, and of nothing else. -/
structure Counts (m : Mix) (r : LoadRun) : Prop where
  told : r.log.filterMap LoadEvent.told? = countUp m.roster.length m.name r.completed
  joined : r.completed = r.users.countP User.isJoined

theorem counts_start (m : Mix) (cancelled : Bool) : (start m cancelled).Counts m where
  told := rfl
  joined := by
    symm
    rw [start, List.countP_eq_zero]
    intro u hu
    obtain ⟨a, -, rfl⟩ := List.mem_map.mp hu
    simp [User.isJoined]

/-- Events that are not told of can be added. -/
theorem Counts.append (h : r.Counts m) (husers : r'.users = r.users)
    (hcompleted : r'.completed = r.completed) {events : List LoadEvent}
    (hlog : r'.log = r.log ++ events) (hevents : events.filterMap LoadEvent.told? = []) :
    r'.Counts m where
  told := by rw [hlog, List.filterMap_append, hevents, List.append_nil, hcompleted, h.told]
  joined := by rw [hcompleted, husers, h.joined]

theorem Counts.noted (h : r.Counts m) (hr : r.Sound m service) {index : Nat} {u : User}
    (hu : r.users[index]? = some u) (hjoined : u.isJoined = false) (walks : List UserWalk)
    {events : List LoadEvent} (hevents : events.filterMap LoadEvent.told? = []) :
    (r.noted m index u walks events).Counts m where
  told := by
    have hlength : r.users.length = m.roster.length := by rw [← hr.actions, List.length_map]
    show (r.log ++ events ++ [LoadEvent.progress (r.completed + 1) r.users.length m.name]).filterMap
      LoadEvent.told? = countUp m.roster.length m.name (r.completed + 1)
    rw [List.filterMap_append, List.filterMap_append, hevents, List.append_nil, h.told, hlength,
      countUp_succ]
    rfl
  joined := by
    obtain ⟨hindex, rfl⟩ := List.getElem?_eq_some_iff.mp hu
    show r.completed + 1 = (r.users.set index _).countP User.isJoined
    rw [List.countP_set hindex, hjoined, h.joined]
    simp [User.isJoined]

/-- Whatever move a run makes, it tells of the users it has joined. -/
theorem Counts.step (h : r.Counts m) (hr : r.Sound m service)
    (hstep : step? m service r move = some r') : r'.Counts m := by
  cases step_of_step? hstep with
  | cancel hlive => exact ⟨h.told, h.joined⟩
  | @user index _ u u' events hrun hu hmove =>
    have hmove := User.step_of_step? hmove
    obtain ⟨hindex, rfl⟩ := List.getElem?_eq_some_iff.mp hu
    refine ⟨?_, ?_⟩
    · rw [List.filterMap_append, hmove.filterMap_eq_nil LoadEvent.told?_of_isOfUser,
        List.append_nil, h.told]
    · rw [List.countP_set hindex, hmove.not_joined.1, hmove.not_joined.2, h.joined]
      simp
  | join hrun hu htask hlive => exact h.noted hr hu (by simp [User.isJoined, htask]) _ rfl
  | joinLost hrun hu htask hlive => exact h.noted hr hu (by simp [User.isJoined, htask]) _ rfl
  | joinStopped hrun hu htask => exact h.append rfl rfl rfl rfl
  | conclude totalTimeMs hrun hlive hall => exact h.append rfl rfl rfl rfl
  | giveUp hrun hcancel => exact h.append rfl rfl rfl rfl

theorem counts_of_play {moves : List LoadMove} {cancelled : Bool}
    (h : (start m cancelled).play? m service moves = some r) : r.Counts m := by
  have hkeep : ∀ (r : LoadRun) move r', r.Sound m service ∧ r.Counts m →
      step? m service r move = some r' → r'.Sound m service ∧ r'.Counts m :=
    fun r move r' ⟨hr, hc⟩ hstep => ⟨hr.step hstep, hc.step hr hstep⟩
  exact (foldlM_keeps hkeep ⟨sound_start m service cancelled, counts_start m cancelled⟩ h).2

/-- When every user is joined, all of the roster have been told of. -/
theorem Counts.of_joined (h : r.Counts m) (hr : r.Sound m service)
    (hall : r.users.all User.isJoined = true) :
    r.log.filterMap LoadEvent.told? = countUp m.roster.length m.name m.roster.length := by
  have hcount : r.users.countP User.isJoined = r.users.length :=
    List.countP_eq_length.mpr (List.all_eq_true.mp hall)
  rw [h.told, h.joined, hcount, ← hr.actions, List.length_map]

end LoadRun

/-! ## Whole runs -/

/-- However the runs of a scenario go, every call that comes back is counted and told of once. -/
structure Scenario.CountsUp (s : Scenario) : Prop where
  /-- Wherever a run stands, and whether it is cancelled or not. -/
  play : ∀ service cancelled moves r,
    (ScenarioRun.start cancelled).play? s service moves = some r →
    Told s service r.log r.completed ∧
      ∀ heard, Heard r.log heard → s.HeardOf service r.completed heard
  /-- An uncancelled run makes every call of the scenario, and tells of those that come back. -/
  perform : ∀ service pick p, ScenarioMove.cancel ∉ pick (.start false) →
    s.perform service false pick = some p →
    (callsEnded p.log).Perm s.callsInTurn ∧ Told s service p.log (s.backCount service) ∧
      ∀ heard, Heard p.log heard → s.HeardOf service (s.backCount service) heard
  /-- All calls come back iff none crashes. -/
  back : ∀ service, s.backCount service ≤ s.batchSize * s.iterations ∧
    (s.backCount service = s.batchSize * s.iterations ↔
      ∀ k < s.iterations, ∀ i < s.batchSize, service k i ≠ .crashed)
  /-- The total told is the number of all calls. -/
  total : s.totalRequests = s.batchSize * s.iterations

/-- However the runs of a mix go, the users are told of one after the other. -/
structure Mix.CountsUp (m : Mix) : Prop where
  /-- Wherever a run stands, and whether it is cancelled or not. -/
  play : ∀ service cancelled moves r,
    (LoadRun.start m cancelled).play? m service moves = some r → r.Counts m
  /-- An uncancelled run tells of every user of the roster, whatever the pages come to. -/
  run : ∀ (sched : Scheduler) place course o, sched.cancelled = false →
    LoadMove.cancel ∉ course.moves (.start m false) → sched.runMix m place course = some o →
    (eventsAt place o.log).filterMap LoadEvent.told? =
      countUp m.roster.length m.name m.roster.length

theorem Scenario.countsUp {s : Scenario} (hvalid : s.validate = .ok ())
    (hprepared : s.prepare = .ok ()) : s.CountsUp where
  play service cancelled moves r hplay := by
    have htold := ScenarioRun.told_of_play hplay
    exact ⟨htold, fun heard hheard => htold.heardOf hheard⟩
  perform service pick p hmoves hperform := by
    obtain ⟨r, report, hplay, hreport, -, hlog⟩ :=
      exists_run_of_uncancelled hvalid hprepared hmoves hperform
    have htold := ScenarioRun.told_of_play hplay
    obtain ⟨before, r', hbefore, hrun, hclosed, hall, -, hsame⟩ :=
      ScenarioRun.exists_before_report hplay hreport
    obtain ⟨b, ht⟩ := ScenarioRun.exists_traced hbefore
    obtain rfl := ht.isClosed hrun hclosed
    have hsound := (ScenarioRun.sound_start s service false).play hbefore
    have hended : (callsEnded r.log).Perm s.callsInTurn := by
      have hperm := ht.callsEnded_perm (le_antisymm hsound.settled_le hall)
      simpa [hsame, callsEnded, List.filterMap_cons, ScenarioEvent.ended?] using hperm
    have hcount : r.completed = s.backCount service := by
      rw [← htold.callsBack_eq]
      exact hended.countP_eq _
    rw [hcount] at htold
    rw [hlog]
    exact ⟨hended, htold, fun heard hheard => htold.heardOf hheard⟩
  back service := ⟨s.backCount_le service, backCount_eq_iff⟩
  total := rfl

theorem Mix.countsUp {m : Mix} (hready : m.ready = .ok ()) : m.CountsUp where
  play service cancelled moves r hplay := LoadRun.counts_of_play hplay
  run sched place course o hlive hmoves hrun := by
    obtain ⟨r, totalTimeMs, hplay, hall, -, hlog⟩ :=
      Scheduler.exists_run_of_uncancelled hready hlive hmoves hrun
    rw [hlog, eventsAt_map]
    exact (LoadRun.counts_of_play hplay).of_joined
      ((LoadRun.sound_start m course.service false).play hplay) hall

/-- Progress of runs that do not break down at their start is told without gaps or repetitions,
    however calls overlap and whichever crash. Of a scenario it is told once for every call that
    comes back, under the numbers from one on, of the number of all calls; of a mix once for every
    user of the roster, in ascending order. -/
theorem progress_countsUp {s : Scenario} (hs : s.validate = .ok ())
    (hcalls : s.totalRequests < Counter.size) (hheld : s.iterations < Scenario.iterationLimit)
    {m : Mix} (hm : m.validate = .ok ()) (hroster : m.roster.length < Mix.rosterLimit) :
    s.CountsUp ∧ m.CountsUp :=
  ⟨Scenario.countsUp hs (Scenario.prepare_eq_ok_iff.mpr ⟨hcalls, hheld⟩),
    Mix.countsUp (Mix.ready_eq_ok_iff.mpr ⟨hm, hroster⟩)⟩

/-- The first word of a run is put off until after a crash in its batch, and a user is told of who
    is lost. -/
theorem progress_countsUp_crashing :
    Scenario.pairTwice.validate = .ok () ∧ Scenario.pairTwice.totalRequests < Counter.size ∧
    Scenario.pairTwice.iterations < Scenario.iterationLimit ∧
    Scheduler.hugeAndSmall.validate = .ok () ∧
    Scheduler.hugeAndSmall.roster.length < Mix.rosterLimit ∧
    (∃ p first last, Scenario.pairTwice.perform Scenario.crashesOnce false
        (ScenarioRun.inOrder Scenario.pairTwice fun _ => false) = some p ∧
      p.log = first ++ .progress 1 4 "pair" :: .ended 0 1 :: last ∧
      (progressTold (first ++ .ended 0 1 :: .progress 1 4 "pair" :: last)).Perm
        [(1, 4, "pair"), (2, 4, "pair"), (3, 4, "pair")]) ∧
    ∃ o, (Scheduler.new .standard).runMix Scheduler.hugeAndSmall 0 Scheduler.secondFirst = some o ∧
      (eventsAt 0 o.log).filterMap LoadEvent.told? = [(1, 2, "mixed"), (2, 2, "mixed")] := by
  obtain ⟨hscenario, hmix⟩ := progress_countsUp (s := Scenario.pairTwice) rfl (by decide)
    (by decide) (m := Scheduler.hugeAndSmall) rfl (by decide)
  refine ⟨rfl, by decide, by decide, rfl, by decide, ?_, ?_⟩
  · obtain ⟨p, first, last, hperform, hlog⟩ : ∃ p first last,
        Scenario.pairTwice.perform Scenario.crashesOnce false
          (ScenarioRun.inOrder Scenario.pairTwice fun _ => false) = some p ∧
        p.log = first ++ .progress 1 4 "pair" :: .ended 0 1 :: last :=
      ⟨_, [.started, .called 0 0, .called 0 1, .ended 0 0], _, rfl, rfl⟩
    have hmoves : ScenarioMove.cancel ∉
        ScenarioRun.inOrder Scenario.pairTwice (fun _ => false) (.start false) := by
      have hstop : (List.range Scenario.pairTwice.iterations).find? (fun _ => false) = none := rfl
      simp [ScenarioRun.inOrder, ScenarioRun.start, hstop, ScenarioRun.batchInOrder, Batch.inOrder]
    obtain ⟨-, -, hheard⟩ := hscenario.perform _ _ p hmoves hperform
    have hlate : Heard p.log (first ++ .ended 0 1 :: .progress 1 4 "pair" :: last) := by
      rw [hlog]
      exact .single (.swap first last 1 4 "pair" rfl)
    exact ⟨p, first, last, hperform, hlog, (hheard _ hlate).numbers⟩
  · obtain ⟨o, hrun⟩ : ∃ o, (Scheduler.new .standard).runMix Scheduler.hugeAndSmall 0
        Scheduler.secondFirst = some o := ⟨_, rfl⟩
    have hmoves : LoadMove.cancel ∉ Scheduler.secondFirst.moves (.start Scheduler.hugeAndSmall
        false) := by
      simp [Scheduler.secondFirst]
    exact ⟨o, hrun, hmix.run _ 0 _ o rfl hmoves hrun⟩

/-- Of a run that breaks down at its start no progress is told, although no call of it crashes and
    its roster has users. -/
theorem not_progress_countsUp :
    (¬ ∀ (s : Scenario) (service : Nat → Nat → CallEnd) pick p, s.validate = .ok () →
      ScenarioMove.cancel ∉ pick (.start false) → s.perform service false pick = some p →
      (∀ k < s.iterations, ∀ i < s.batchSize, service k i ≠ .crashed) →
      (progressTold p.log).Perm (countUp s.totalRequests s.name s.totalRequests)) ∧
    ¬ ∀ (m : Mix) (sched : Scheduler) place course o, m.validate = .ok () →
      sched.cancelled = false → LoadMove.cancel ∉ course.moves (.start m false) →
      sched.runMix m place course = some o →
      (eventsAt place o.log).filterMap LoadEvent.told? =
        countUp m.roster.length m.name m.roster.length := by
  constructor
  · intro hclaim
    let answers (_ _ : Nat) : CallEnd :=
      .returned (.ofCall (.plain ⟨"ping", "Ping", []⟩) 1.0 .epoch (.success .null))
    have hperm := hclaim Scenario.pingWithoutEnd answers (fun _ => []) _ rfl List.not_mem_nil
      (Scenario.perform_pingWithoutEnd _ _ _) (fun _ _ _ _ => CallEnd.noConfusion)
    have hlength := hperm.length_eq
    rw [length_countUp] at hlength
    exact absurd hlength (by decide)
  · intro hclaim
    have htold := hclaim Scheduler.crowd (.new .standard) 0 Scheduler.noMoves _ rfl rfl
      List.not_mem_nil (Scheduler.runMix_crowd _ _ _)
    have hlength := congrArg List.length htold
    rw [length_countUp, ← Mix.realizedUsers_eq] at hlength
    exact absurd hlength (by decide)

end LoadBench
