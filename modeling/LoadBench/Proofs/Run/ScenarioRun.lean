import Mathlib.Tactic
import LoadBench.Proofs.Run.Batch

/-!
# Scenario runs agree with the calls made in turn

`ScenarioRun.Step` says what each move of a run can do. From it follows what every run keeps
(`Sound`): the iterations on record are those of the calls made in turn, whatever the order in which
the calls of a batch ended.

Results:
* `ScenarioRun.step?_eq_some_iff`: the moves that are possible, and the state after each.
* `ScenarioRun.Sound.step`: what one move keeps.
* `ScenarioRun.exists_step`, `ScenarioRun.remaining_step`: a run goes on to its result, and ends.
* `Scenario.perform_cases`: what a run is from its checks to its result.
* `Scenario.perform_runsInTurn`: an uncancelled run has the report of the calls made in turn, if it
  does not break down at its start.
-/

namespace LoadBench

namespace ScenarioRun

variable {s : Scenario} {service : Nat → Nat → CallEnd} {r r' : ScenarioRun} {m : ScenarioMove}

/-! ## Moves -/

/-- What can be seen of a move of the open batch. -/
def seen (r : ScenarioRun) (s : Scenario) (ends : Nat → CallEnd) : BatchMove → List ScenarioEvent
  | .launch i => [.called r.settled.length i]
  | .finish i =>
    .ended r.settled.length i ::
      match ends i with
      | .returned _ => [.progress (r.completed + 1) s.totalRequests s.name]
      | .crashed => []
  | .join _ => []

theorem observe_log (r : ScenarioRun) (s : Scenario) (ends : Nat → CallEnd) (m : BatchMove) :
    (r.observe s ends m).log = r.log ++ r.seen s ends m := by
  cases m with
  | launch i => rfl
  | finish i => simp only [observe, seen]; cases ends i <;> simp
  | join i => simp [observe, seen]

@[simp] theorem observe_settled (r : ScenarioRun) (s : Scenario) (ends : Nat → CallEnd)
    (m : BatchMove) : (r.observe s ends m).settled = r.settled := by
  cases m with
  | finish i => simp only [observe]; cases ends i <;> rfl
  | _ => rfl

@[simp] theorem observe_batch (r : ScenarioRun) (s : Scenario) (ends : Nat → CallEnd)
    (m : BatchMove) : (r.observe s ends m).batch = r.batch := by
  cases m with
  | finish i => simp only [observe]; cases ends i <;> rfl
  | _ => rfl

@[simp] theorem observe_cancelled (r : ScenarioRun) (s : Scenario) (ends : Nat → CallEnd)
    (m : BatchMove) : (r.observe s ends m).cancelled = r.cancelled := by
  cases m with
  | finish i => simp only [observe]; cases ends i <;> rfl
  | _ => rfl

@[simp] theorem observe_result (r : ScenarioRun) (s : Scenario) (ends : Nat → CallEnd)
    (m : BatchMove) : (r.observe s ends m).result = r.result := by
  cases m with
  | finish i => simp only [observe]; cases ends i <;> rfl
  | _ => rfl

/-- The report that a run draws up. -/
def report (s : Scenario) (r : ScenarioRun) (totalElapsedMs : Float) (runId : RunId) :
    ScenarioReport :=
  { ScenarioReport.ofIterations s r.settled totalElapsedMs with runId := runId }

/-- What each move of a run needs, and the run after it. -/
inductive Step (s : Scenario) (service : Nat → Nat → CallEnd) :
    ScenarioRun → ScenarioMove → ScenarioRun → Prop
  | cancel {r : ScenarioRun} (hlive : r.cancelled = false) :
    Step s service r .cancel { r with cancelled := true }
  | openBatch {r : ScenarioRun} (hrun : r.result = none) (hclosed : r.batch = none)
    (hmore : r.settled.length < s.iterations) (hlive : r.cancelled = false) :
    Step s service r .openBatch { r with batch := some (.start s.batchSize) }
  | refuse {r : ScenarioRun} (hrun : r.result = none) (hclosed : r.batch = none)
    (hmore : r.settled.length < s.iterations) (hcancel : r.cancelled = true) :
    Step s service r .openBatch (r.stop s)
  | call {r : ScenarioRun} {b b' : Batch} {m : BatchMove} (hrun : r.result = none)
    (hopen : r.batch = some b) (hjoin : m.isJoin = true → r.cancelled = false)
    (hmove : b.step? (service r.settled.length) m = some b') :
    Step s service r (.call m)
      (({ r with batch := some b' } : ScenarioRun).observe s (service r.settled.length) m)
  | settle {r : ScenarioRun} {b : Batch} (elapsedMs : Float) (finishedAt : Instant)
    (hrun : r.result = none) (hopen : r.batch = some b) (hlive : r.cancelled = false)
    (hdone : b.isDone = true) :
    Step s service r (.settle elapsedMs finishedAt)
      { r with
        batch := none
        settled := r.settled ++ [iteration r.settled.length b elapsedMs finishedAt]
        log := r.log ++ [.settled r.settled.length b.broken] }
  | conclude {r : ScenarioRun} (totalElapsedMs : Float) (runId : RunId) (hrun : r.result = none)
    (hclosed : r.batch = none) (hall : s.iterations ≤ r.settled.length) :
    Step s service r (.conclude totalElapsedMs runId)
      { r with
        result := some (.ok (r.report s totalElapsedMs runId))
        log := r.log ++ [.completed (r.report s totalElapsedMs runId)] }
  | giveUp {r : ScenarioRun} {b : Batch} (hrun : r.result = none) (hopen : r.batch = some b)
    (hcancel : r.cancelled = true) :
    Step s service r .giveUp (r.stop s)

theorem step_of_step? (h : step? s service r m = some r') : Step s service r m r' := by
  cases m with
  | cancel =>
    simp only [step?] at h
    split_ifs at h with hcancel
    cases h
    exact .cancel (by simpa using hcancel)
  | openBatch =>
    simp only [step?, advance?] at h
    split_ifs at h with hrun hno hcancel
    all_goals
      rw [Option.not_isSome_iff_eq_none] at hrun
      rw [Bool.or_eq_true, not_or, Option.not_isSome_iff_eq_none, decide_eq_true_eq,
        Nat.not_le] at hno
      cases h
    · exact .refuse hrun hno.1 hno.2 hcancel
    · exact .openBatch hrun hno.1 hno.2 (by simpa using hcancel)
  | call m =>
    simp only [step?, advance?] at h
    split_ifs at h with hrun hno
    · obtain ⟨_, _, h⟩ := Option.bind_eq_some_iff.mp h
      cases h
    · rw [Option.not_isSome_iff_eq_none] at hrun
      obtain ⟨b, hopen, h⟩ := Option.bind_eq_some_iff.mp h
      obtain ⟨b', hmove, h⟩ := Option.bind_eq_some_iff.mp h
      cases h
      exact .call hrun hopen (by simpa using hno) hmove
  | settle elapsedMs finishedAt =>
    simp only [step?, advance?] at h
    split_ifs at h with hrun
    rw [Option.not_isSome_iff_eq_none] at hrun
    obtain ⟨b, hopen, h⟩ := Option.bind_eq_some_iff.mp h
    split_ifs at h with hno
    · cases h
    · cases h
      rw [Bool.or_eq_true, not_or, Bool.not_eq_true, Bool.not_eq_true', Bool.not_eq_false] at hno
      exact .settle _ _ hrun hopen hno.1 hno.2
  | conclude totalElapsedMs runId =>
    simp only [step?, advance?] at h
    split_ifs at h with hrun hno
    rw [Option.not_isSome_iff_eq_none] at hrun
    rw [Bool.or_eq_true, not_or, Option.not_isSome_iff_eq_none, decide_eq_true_eq,
      Nat.not_lt] at hno
    cases h
    exact .conclude _ _ hrun hno.1 hno.2
  | giveUp =>
    simp only [step?, advance?] at h
    split_ifs at h with hrun hyes
    rw [Option.not_isSome_iff_eq_none] at hrun
    rw [Bool.and_eq_true, Option.isSome_iff_exists] at hyes
    obtain ⟨⟨b, hopen⟩, hcancel⟩ := hyes
    cases h
    exact .giveUp hrun hopen hcancel

theorem Step.step? (h : Step s service r m r') : step? s service r m = some r' := by
  cases h with
  | cancel hlive => simp [ScenarioRun.step?, hlive]
  | openBatch hrun hclosed hmore hlive =>
    simp [ScenarioRun.step?, advance?, hrun, hclosed, hmore, hlive]
  | refuse hrun hclosed hmore hcancel =>
    simp [ScenarioRun.step?, advance?, hrun, hclosed, hmore, hcancel]
  | call hrun hopen hjoin hmove =>
    simpa [ScenarioRun.step?, advance?, hrun, hopen, hmove] using hjoin
  | settle _ _ hrun hopen hlive hdone =>
    simp [ScenarioRun.step?, advance?, hrun, hopen, hlive, hdone]
  | conclude _ _ hrun hclosed hall =>
    simp [ScenarioRun.step?, advance?, hrun, hclosed, hall, report]
  | giveUp hrun hopen hcancel => simp [ScenarioRun.step?, advance?, hrun, hopen, hcancel]

theorem step?_eq_some_iff : step? s service r m = some r' ↔ Step s service r m r' :=
  ⟨step_of_step?, Step.step?⟩

/-! ## What every run keeps -/

/-- What a run can have come to: nothing yet, the fault of a cancelled run, or the report of all
    iterations. -/
inductive Outcome (s : Scenario) (r : ScenarioRun) : Prop
  | pending (hrun : r.result = none)
  | cancelled (hclosed : r.batch = none) (hcancel : r.cancelled = true)
    (hresult : r.result = some (.error (.cancelled s.name)))
  | reported (totalElapsedMs : Float) (runId : RunId) (hclosed : r.batch = none)
    (hall : r.settled.length = s.iterations)
    (hresult : r.result = some (.ok (r.report s totalElapsedMs runId)))

/-- The iterations on record are those of the calls made in turn, the open batch is one of the next
    iteration, and the result is drawn up from what is on record. -/
structure Sound (s : Scenario) (service : Nat → Nat → CallEnd) (r : ScenarioRun) : Prop where
  settled : ∀ i it, r.settled[i]? = some it →
    it = s.iterationInTurn service i (it.elapsedMs, it.finishedAt)
  settled_le : r.settled.length ≤ s.iterations
  batch : ∀ b, r.batch = some b →
    b.Sound (service r.settled.length) s.batchSize ∧ r.settled.length < s.iterations
  outcome : r.Outcome s

theorem sound_start (s : Scenario) (service : Nat → Nat → CallEnd) (cancelled : Bool) :
    (start cancelled).Sound s service where
  settled := by simp [start]
  settled_le := Nat.zero_le _
  batch := by simp [start]
  outcome := .pending rfl

theorem iteration_eq {index : Nat} {b : Batch} (hb : b.Sound (service index) s.batchSize)
    (hdone : b.isDone = true) (elapsedMs : Float) (finishedAt : Instant) :
    iteration index b elapsedMs finishedAt =
      s.iterationInTurn service index (elapsedMs, finishedAt) := by
  have hresults := hb.results?_eq hdone
  cases hturn : resultsInTurn s.batchSize (service index) <;>
    simp [iteration, Scenario.iterationInTurn, hresults, hturn]

theorem Sound.stop (hr : r.Sound s service) (hcancel : r.cancelled = true) :
    (r.stop s).Sound s service where
  settled := hr.settled
  settled_le := hr.settled_le
  batch := by simp [ScenarioRun.stop]
  outcome := .cancelled rfl hcancel rfl

/-- Whatever move a run makes, what is on record stays that of the calls made in turn. -/
theorem Sound.step (hr : r.Sound s service) (h : step? s service r m = some r') :
    r'.Sound s service := by
  cases step_of_step? h with
  | cancel hlive =>
    refine ⟨hr.settled, hr.settled_le, hr.batch, ?_⟩
    cases hr.outcome with
    | pending hrun => exact .pending hrun
    | cancelled hclosed hcancel => rw [hlive] at hcancel; cases hcancel
    | reported total runId hclosed hall hresult => exact .reported total runId hclosed hall hresult
  | openBatch hrun hclosed hmore hlive =>
    refine ⟨hr.settled, hr.settled_le, ?_, .pending hrun⟩
    rintro _ ⟨⟩
    exact ⟨Batch.sound_start _ _, hmore⟩
  | refuse hrun hclosed hmore hcancel => exact hr.stop hcancel
  | call hrun hopen hjoin hmove =>
    obtain ⟨hbatch, hmore⟩ := hr.batch _ hopen
    refine ⟨by simpa using hr.settled, by simpa using hr.settled_le, ?_, .pending (by simpa)⟩
    intro b hb
    rw [observe_batch, Option.some_inj] at hb
    subst hb
    simpa using ⟨hbatch.step hmove, hmore⟩
  | settle elapsedMs finishedAt hrun hopen hlive hdone =>
    obtain ⟨hbatch, hmore⟩ := hr.batch _ hopen
    refine ⟨?_, by simpa using hmore, by simp, .pending hrun⟩
    -- the iteration put on record is the one of which the batch was open
    intro i it hit
    rcases Nat.lt_trichotomy i r.settled.length with hi | rfl | hi
    · rw [List.getElem?_append_left hi] at hit
      exact hr.settled i it hit
    · rw [List.getElem?_concat_length, Option.some_inj] at hit
      rw [← hit, iteration_eq hbatch hdone]
      simp
    · rw [List.getElem?_eq_none (by simpa using hi)] at hit
      cases hit
  | conclude totalElapsedMs runId hrun hclosed hall =>
    exact ⟨hr.settled, hr.settled_le, hr.batch,
      .reported totalElapsedMs runId hclosed (le_antisymm hr.settled_le hall) rfl⟩
  | giveUp hrun hopen hcancel => exact hr.stop hcancel

theorem Sound.play {moves : List ScenarioMove} (hr : r.Sound s service)
    (h : r.play? s service moves = some r') : r'.Sound s service :=
  foldlM_keeps (fun _ _ _ hs hstep => Sound.step hs hstep) hr h

/-- The iterations on record of a run, with the times at which they were measured. -/
theorem Sound.settled_eq (hr : r.Sound s service) (hall : r.settled.length = s.iterations) :
    ∃ times, r.settled = s.iterationsInTurn service times := by
  refine ⟨fun i => (r.settled[i]?.map fun it => (it.elapsedMs, it.finishedAt)).getD (0.0, .epoch),
    ?_⟩
  apply List.ext_getElem?
  intro i
  by_cases hi : i < s.iterations
  · have hit := List.getElem?_eq_getElem (hall.symm ▸ hi : i < r.settled.length)
    rw [getElem?_iterationsInTurn s service _ hi, hit]
    exact congrArg some (hr.settled i _ hit)
  · rw [List.getElem?_eq_none (by omega), List.getElem?_eq_none (by simpa using hi)]

/-! ## Every run comes to its result -/

/-- A run without a result can make a move, and need not be cancelled for it. -/
theorem exists_step (s : Scenario) (service : Nat → Nat → CallEnd) (hrun : r.result = none) :
    ∃ m r', m ≠ .cancel ∧ step? s service r m = some r' := by
  cases hopen : r.batch with
  | none =>
    by_cases hmore : r.settled.length < s.iterations
    · cases hcancel : r.cancelled with
      | true => exact ⟨.openBatch, _, by simp, (Step.refuse hrun hopen hmore hcancel).step?⟩
      | false => exact ⟨.openBatch, _, by simp, (Step.openBatch hrun hopen hmore hcancel).step?⟩
    · exact ⟨.conclude 0.0 .zero, _, by simp,
        (Step.conclude 0.0 .zero hrun hopen (by omega)).step?⟩
  | some b =>
    cases hcancel : r.cancelled with
    | true => exact ⟨.giveUp, _, by simp, (Step.giveUp hrun hopen hcancel).step?⟩
    | false =>
      cases hdone : b.isDone with
      | true =>
        exact ⟨.settle 0.0 .epoch, _, by simp,
          (Step.settle 0.0 .epoch hrun hopen hcancel hdone).step?⟩
      | false =>
        obtain ⟨m, b', hmove⟩ := Batch.exists_step (service r.settled.length) hdone
        exact ⟨.call m, _, by simp, (Step.call hrun hopen (fun _ => hcancel) hmove).step?⟩

/-- The most moves that one iteration makes: its batch is opened and settled, and every call makes
    three. -/
def iterationMoves (s : Scenario) : Nat := 3 * s.batchSize + 2

/-- The most moves that a run has still to make, apart from being cancelled. -/
def ahead (s : Scenario) (r : ScenarioRun) : Nat :=
  match r.result, r.batch with
  | some _, _ => 0
  | none, none => (s.iterations - r.settled.length) * iterationMoves s + 1
  | none, some b =>
    (s.iterations - r.settled.length - 1) * iterationMoves s + b.remaining + 2

/-- The most moves that a run has still to make. -/
def remaining (s : Scenario) (r : ScenarioRun) : Nat :=
  r.ahead s + if r.cancelled then 0 else 1

theorem ahead_pos (hrun : r.result = none) : 0 < r.ahead s := by
  rw [ahead, hrun]
  cases r.batch <;> simp

theorem remaining_step (h : step? s service r m = some r') : r'.remaining s < r.remaining s := by
  cases step_of_step? h with
  | cancel hlive => simp [remaining, ahead, hlive]
  | openBatch hrun hclosed hmore hlive =>
    obtain ⟨n, hn⟩ : ∃ n, s.iterations - r.settled.length = n + 1 :=
      ⟨s.iterations - r.settled.length - 1, by omega⟩
    simp only [remaining, ahead, hrun, hclosed, hn, Batch.remaining_start, Nat.add_sub_cancel,
      Nat.succ_mul, iterationMoves]
    omega
  | refuse hrun hclosed hmore hcancel =>
    have := ahead_pos (s := s) hrun
    simp only [remaining, ScenarioRun.stop, hcancel]
    simpa [ahead] using this
  | call hrun hopen hjoin hmove =>
    have := Batch.remaining_step hmove
    simp only [remaining, ahead, hrun, hopen, observe_result, observe_batch, observe_settled,
      observe_cancelled]
    omega
  | settle elapsedMs finishedAt hrun hopen hlive hdone =>
    simp only [remaining, ahead, hrun, hopen, List.length_append, List.length_singleton,
      Nat.sub_sub]
    omega
  | conclude totalElapsedMs runId hrun hclosed hall =>
    simp only [remaining, ahead, hrun, hclosed]
    omega
  | giveUp hrun hopen hcancel =>
    have := ahead_pos (s := s) hrun
    simp only [remaining, ScenarioRun.stop, hcancel]
    simpa [ahead] using this

theorem remaining_start (s : Scenario) (cancelled : Bool) :
    (start cancelled).remaining s ≤ s.iterations * iterationMoves s + 2 := by
  cases cancelled <;> simp [remaining, ahead, start]

/-- A run has only so many moves. -/
theorem length_le_of_play {moves : List ScenarioMove} {cancelled : Bool}
    (h : (start cancelled).play? s service moves = some r) :
    moves.length ≤ s.iterations * iterationMoves s + 2 := by
  have hle := foldlM_length_le (fun _ _ _ _ _ => trivial) (fun _ _ _ _ => remaining_step) trivial h
  have := remaining_start s cancelled
  omega

/-- A run can go on to its result, and need not be cancelled for it. -/
theorem exists_play_to_result (s : Scenario) (service : Nat → Nat → CallEnd) (r : ScenarioRun) :
    ∃ more r', .cancel ∉ more ∧ r.play? s service more = some r' ∧ r'.result.isSome = true := by
  have hgoOn : ∀ r : ScenarioRun, True → ¬ r.result.isSome = true →
      ∃ m r', m ≠ .cancel ∧ step? s service r m = some r' :=
    fun r _ hrun => exists_step s service (Option.not_isSome_iff_eq_none.mp hrun)
  obtain ⟨more, r', hmore, hplay, hresult⟩ :=
    foldlM_complete (fun _ _ _ _ _ => trivial) (fun _ _ _ _ => remaining_step) hgoOn
      (s := r) trivial
  exact ⟨more, r', fun hmem => hmore _ hmem rfl, hplay, hresult⟩

theorem cancelled_of_play {moves : List ScenarioMove} (hlive : r.cancelled = false)
    (hmoves : .cancel ∉ moves) (h : r.play? s service moves = some r') : r'.cancelled = false := by
  have hkeep : ∀ r m r', m ≠ ScenarioMove.cancel → r.cancelled = false →
      step? s service r m = some r' → r'.cancelled = false := by
    intro r m r' hm hlive hstep
    cases step_of_step? hstep with
    | cancel => exact absurd rfl hm
    | call hrun hopen hjoin hmove => simpa using hlive
    | _ => exact hlive
  exact foldlM_keeps_of_allowed hkeep (fun m hm heq => hmoves (heq ▸ hm)) hlive h

end ScenarioRun

/-! ## Whole runs -/

namespace Scenario

variable {s : Scenario} {service : Nat → Nat → CallEnd} {cancelled : Bool}

/-- A run is prepared if its calls are a counter and its iterations can be held. -/
theorem prepare_eq_ok_iff :
    s.prepare = .ok () ↔ s.totalRequests < Counter.size ∧ s.iterations < iterationLimit := by
  rw [prepare, Counter.product, totalRequests]
  by_cases hcalls : s.batchSize * s.iterations < Counter.size
  · rw [if_pos hcalls]
    by_cases hheld : s.iterations < iterationLimit
    · simp [hcalls, hheld, bind, Except.bind, pure, Except.pure]
    · simp [hheld, bind, Except.bind, throw, throwThe, MonadExceptOf.throw]
  · simp [hcalls, bind, Except.bind]

theorem perform_of_fault {fault : Fault} (h : s.validate = .error fault)
    (pick : ScenarioRun → List ScenarioMove) :
    s.perform service cancelled pick = some ⟨.error fault, [], cancelled⟩ := by
  rw [perform, h]

/-- A run that is not prepared starts and breaks down, cancelled or not. -/
theorem perform_of_broken (hvalid : s.validate = .ok ()) {cause : Breakdown}
    (h : s.prepare = .error cause) (pick : ScenarioRun → List ScenarioMove) :
    s.perform service cancelled pick = some ⟨.error (.broken cause), [.started], cancelled⟩ := by
  simp only [perform, hvalid, h]

theorem perform_of_prepared (hvalid : s.validate = .ok ()) (hprepared : s.prepare = .ok ())
    {pick : ScenarioRun → List ScenarioMove} {p : Performed ScenarioEvent ScenarioReport} :
    s.perform service cancelled pick = some p ↔
      ∃ r, (ScenarioRun.start cancelled).play? s service (pick (.start cancelled)) = some r ∧
        r.result = some p.result ∧ p.log = r.log ∧ p.cancelled = r.cancelled := by
  simp only [perform, hvalid, hprepared]
  constructor
  · intro h
    obtain ⟨r, hplay, h⟩ := Option.bind_eq_some_iff.mp h
    obtain ⟨result, hresult, h⟩ := Option.bind_eq_some_iff.mp h
    cases h
    exact ⟨r, hplay, hresult, rfl, rfl⟩
  · rintro ⟨r, hplay, hresult, hlog, hcancelled⟩
    refine Option.bind_eq_some_iff.mpr ⟨r, hplay, Option.bind_eq_some_iff.mpr ⟨_, hresult, ?_⟩⟩
    rw [← hlog, ← hcancelled]
    rfl

/-- A run is refused, breaks down when it is prepared, or goes along its moves to a result. -/
theorem perform_cases {pick : ScenarioRun → List ScenarioMove}
    {p : Performed ScenarioEvent ScenarioReport} (h : s.perform service cancelled pick = some p) :
    (∃ fault, s.validate = .error fault ∧ p = ⟨.error fault, [], cancelled⟩) ∨
    (∃ cause, s.validate = .ok () ∧ s.prepare = .error cause ∧
      p = ⟨.error (.broken cause), [.started], cancelled⟩) ∨
    ∃ r, s.validate = .ok () ∧ s.prepare = .ok () ∧
      (ScenarioRun.start cancelled).play? s service (pick (.start cancelled)) = some r ∧
      r.result = some p.result ∧ p.log = r.log ∧ p.cancelled = r.cancelled := by
  cases hvalid : s.validate with
  | error fault =>
    rw [perform_of_fault hvalid, Option.some_inj] at h
    exact .inl ⟨fault, rfl, h.symm⟩
  | ok =>
    cases hprepared : s.prepare with
    | error cause =>
      rw [perform_of_broken hvalid hprepared, Option.some_inj] at h
      exact .inr (.inl ⟨cause, rfl, rfl, h.symm⟩)
    | ok =>
      obtain ⟨r, hr⟩ := (perform_of_prepared hvalid hprepared).mp h
      exact .inr (.inr ⟨r, rfl, rfl, hr⟩)

/-- A run that has come somewhere can go on to a result, and need not be cancelled for it. -/
theorem exists_perform (hvalid : s.validate = .ok ()) (hprepared : s.prepare = .ok ())
    {before : List ScenarioMove} {r : ScenarioRun}
    (h : (ScenarioRun.start cancelled).play? s service before = some r) :
    ∃ after p, ScenarioMove.cancel ∉ after ∧
      s.perform service cancelled (fun _ => before ++ after) = some p := by
  obtain ⟨after, r', hafter, hplay, hresult⟩ := ScenarioRun.exists_play_to_result s service r
  obtain ⟨result, hresult⟩ := Option.isSome_iff_exists.mp hresult
  exact ⟨after, ⟨result, r'.log, r'.cancelled⟩, hafter, (perform_of_prepared hvalid hprepared).mpr
    ⟨r', (foldlM_append_of_some h after).trans hplay, hresult, rfl, rfl⟩⟩

/-- A report is that of the calls made in turn. -/
structure ReportInTurn (s : Scenario) (service : Nat → Nat → CallEnd) (report : ScenarioReport) :
    Prop where
  /-- It is drawn up from the iterations in turn, in their order; each of them is lost if one of its
      calls crashes, and else has the result of every call. -/
  report_eq : ∃ times totalElapsedMs runId,
    report = { ScenarioReport.ofIterations s (s.iterationsInTurn service times) totalElapsedMs with
      runId := runId } ∧
    (s.iterationsInTurn service times).length = s.iterations ∧
    ∀ i < s.iterations, ∃ it, (s.iterationsInTurn service times)[i]? = some it ∧ it.index = i ∧
      Recorded s.batchSize (service i) (fun r => { r with iteration := some ⟨i, it.elapsedMs⟩ })
        it.failed it.results
  /-- Whether an iteration failed depends on its own calls alone. -/
  failed_iff : ∀ i, i ∈ report.failedIterations ↔
    i < s.iterations ∧ ∃ j < s.batchSize, service i j = .crashed
  /-- The results of an iteration are those of its own calls, in their order. -/
  resultsOf : ∀ i < s.iterations, report.resultsOf i =
    ((resultsInTurn s.batchSize (service i)).getD []).map fun r => { r with iteration := none }
  /-- Every iteration that did not fail has a full batch of results. -/
  completed : report.completedRequests =
    s.batchSize * (s.iterations - report.failedIterations.length)

theorem reportInTurn_of_sound {s : Scenario} {service : Nat → Nat → CallEnd} {r : ScenarioRun}
    (hr : r.Sound s service) (hall : r.settled.length = s.iterations) (totalElapsedMs : Float)
    (runId : RunId) : ReportInTurn s service (r.report s totalElapsedMs runId) := by
  obtain ⟨times, htimes⟩ := hr.settled_eq hall
  rw [ScenarioRun.report, htimes]
  refine ⟨⟨times, totalElapsedMs, runId, rfl, length_iterationsInTurn s service times, ?_⟩,
    mem_failedIterations_iterationsInTurn s service times totalElapsedMs,
    fun i hi => resultsOf_iterationsInTurn s service times totalElapsedMs hi,
    completedRequests_iterationsInTurn s service times totalElapsedMs⟩
  intro i hi
  refine ⟨_, getElem?_iterationsInTurn s service times hi, iterationInTurn_index _ _ _ _, ?_⟩
  rw [iterationInTurn_elapsedMs]
  exact iterationInTurn_recorded s service i (times i)

/-- An uncancelled run of a scenario agrees with the calls made in turn, if its calls are a counter
    and its iterations can be held. However it goes, it can go on to a result, it does so within a
    bounded number of moves, and the result is the report of the calls made in turn. -/
theorem perform_runsInTurn {s : Scenario} (hvalid : s.validate = .ok ())
    (hcalls : s.totalRequests < Counter.size) (hheld : s.iterations < iterationLimit)
    (service : Nat → Nat → CallEnd) :
    (∀ pick p, ScenarioMove.cancel ∉ pick (.start false) →
      s.perform service false pick = some p →
      ∃ report, p.result = .ok report ∧ ReportInTurn s service report) ∧
    ∀ moves r, ScenarioMove.cancel ∉ moves →
      (ScenarioRun.start false).play? s service moves = some r →
      moves.length ≤ s.iterations * (3 * s.batchSize + 2) + 2 ∧
      ∃ more p, ScenarioMove.cancel ∉ more ∧
        s.perform service false (fun _ => moves ++ more) = some p := by
  have hprepared := prepare_eq_ok_iff.mpr ⟨hcalls, hheld⟩
  constructor
  · intro pick p hmoves hperform
    obtain ⟨r, hplay, hresult, -⟩ := (perform_of_prepared hvalid hprepared).mp hperform
    have hr := (ScenarioRun.sound_start s service false).play hplay
    cases hr.outcome with
    | pending hrun => rw [hrun] at hresult; cases hresult
    | cancelled hclosed hcancel =>
      rw [ScenarioRun.cancelled_of_play rfl hmoves hplay] at hcancel
      cases hcancel
    | reported totalElapsedMs runId hclosed hall hreport =>
      rw [hreport, Option.some_inj] at hresult
      exact ⟨_, hresult.symm, reportInTurn_of_sound hr hall totalElapsedMs runId⟩
  · intro moves r hmoves hplay
    exact ⟨ScenarioRun.length_le_of_play hplay, exists_perform hvalid hprepared hplay⟩

/-- A scenario of two calls that are made twice. -/
def pairTwice : Scenario where
  name := "pair"
  description := ""
  calls := List.replicate 2 (.plain ⟨"health", "Health", []⟩)
  iterations := 2
  triggersStream := false

/-- A service that crashes in the second call of the first iteration. -/
def crashesOnce (iteration position : Nat) : CallEnd :=
  if iteration = 0 ∧ position = 1 then .crashed
  else .returned (.ofCall (.plain ⟨"health", "Health", []⟩) 1.0 .epoch (.success .null))

theorem perform_pairTwice : pairTwice.validate = .ok () ∧
    pairTwice.totalRequests < Counter.size ∧ pairTwice.iterations < iterationLimit ∧
    ∃ pick p report, ScenarioMove.cancel ∉ pick (.start false) ∧
      pairTwice.perform crashesOnce false pick = some p ∧ p.result = .ok report ∧
      ReportInTurn pairTwice crashesOnce report := by
  obtain ⟨p, hperform⟩ : ∃ p, pairTwice.perform crashesOnce false
      (ScenarioRun.inOrder pairTwice fun _ => false) = some p := ⟨_, rfl⟩
  have hmoves : ScenarioMove.cancel ∉
      ScenarioRun.inOrder pairTwice (fun _ => false) (.start false) := by
    have hstop : (List.range pairTwice.iterations).find? (fun _ => false) = none := rfl
    simp [ScenarioRun.inOrder, ScenarioRun.start, hstop, ScenarioRun.batchInOrder, Batch.inOrder]
  obtain ⟨report, hresult, hreport⟩ :=
    (perform_runsInTurn (s := pairTwice) rfl (by decide) (by decide) crashesOnce).1 _ p hmoves
      hperform
  exact ⟨rfl, by decide, by decide, _, p, report, hmoves, hperform, hresult, hreport⟩

/-- A scenario of one call that is made `2 ^ 60` times: the calls are a counter, but the iterations
    cannot be held. -/
def pingWithoutEnd : Scenario where
  name := "endless"
  description := ""
  calls := [.plain ⟨"ping", "Ping", []⟩]
  iterations := Nat.pow 2 60
  triggersStream := false

/-- Whatever its calls come to, and cancelled or not, it breaks down in front of the first one. -/
theorem perform_pingWithoutEnd (service : Nat → Nat → CallEnd) (cancelled : Bool)
    (pick : ScenarioRun → List ScenarioMove) : pingWithoutEnd.perform service cancelled pick =
      some ⟨.error (.broken .capacity), [.started], cancelled⟩ :=
  perform_of_broken rfl (by decide) pick

/-- An uncancelled run of an accepted scenario need not have a report, whatever its calls come
    to. -/
theorem not_perform_runsInTurn :
    ¬ ∀ (s : Scenario) (service : Nat → Nat → CallEnd), s.validate = .ok () →
      ∀ pick p, ScenarioMove.cancel ∉ pick (.start false) →
        s.perform service false pick = some p →
        ∃ report, p.result = .ok report ∧ ReportInTurn s service report := by
  intro hclaim
  obtain ⟨report, hresult, -⟩ := hclaim pingWithoutEnd (fun _ _ => .crashed) rfl (fun _ => []) _
    List.not_mem_nil (perform_pingWithoutEnd _ _ _)
  cases hresult

end Scenario

end LoadBench
