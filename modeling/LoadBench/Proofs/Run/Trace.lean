import Mathlib.Tactic
import LoadBench.Proofs.Run.LoadRun
import LoadBench.Proofs.Run.ScenarioRun

/-!
# Traces of batches opened one after the other

What can be seen of a batch is when its calls start and when they end. Where a batch is opened only
when the one before it is settled, each call starts and ends at most once, and no call starts before
all calls of earlier batches have ended. The iterations of a scenario are such batches, and so are
the pages of a user.

Results:
* `InSequence.call`, `InSequence.settle`: what a move of the open batch keeps, and its settlement.
* `InSequence.ended_mem`: when a call starts, every call of an earlier batch has ended.
* `InSequence.length_inFlight_le`: never more calls are in flight than one batch has.
* `ScenarioRun.exists_traced`, `LoadRun.traced_of_play`: the iterations of a scenario and the pages
  of a user are such batches.
-/

namespace LoadBench

/-! ## Events -/

/-- An event of a trace in two parts is one of the first part, or comes after all of it. -/
theorem append_eq_append_cons {ε : Type} {first second before after : List ε} {e : ε}
    (h : first ++ second = before ++ e :: after) :
    (∃ more, first = before ++ e :: more) ∨
      ∃ more, before = first ++ more ∧ second = more ++ e :: after := by
  rcases List.append_eq_append_iff.mp h with ⟨more, hbefore, hsecond⟩ | ⟨more, hfirst, hafter⟩
  · exact .inr ⟨more, hbefore, hsecond⟩
  · cases more with
    | nil => exact .inr ⟨[], by simpa using hfirst.symm, by simpa using hafter.symm⟩
    | cons x more =>
      obtain ⟨rfl, -⟩ := List.cons.inj hafter
      exact .inl ⟨more, hfirst⟩

/-- A call of one of some batches starts or ends. -/
inductive CallEvent
  | started (batch position : Nat)
  | ended (batch position : Nat)
deriving DecidableEq

namespace CallEvent

/-- The call that the event is about. -/
def call : CallEvent → Nat × Nat
  | started k i => (k, i)
  | ended k i => (k, i)

/-- The call that starts. -/
def started? : CallEvent → Option (Nat × Nat)
  | started k i => some (k, i)
  | ended _ _ => none

/-- What can be seen of a move of a batch. -/
def ofMove (batch : Nat) : BatchMove → List CallEvent
  | .launch i => [started batch i]
  | .finish i => [ended batch i]
  | .join _ => []

/-- The calls that have started and not ended. -/
def inFlight (trace : List CallEvent) : List (Nat × Nat) :=
  (trace.filterMap started?).filter fun c => ended c.1 c.2 ∉ trace

theorem mem_filterMap_started? {trace : List CallEvent} {k i : Nat} :
    (k, i) ∈ trace.filterMap started? ↔ started k i ∈ trace := by
  rw [List.mem_filterMap]
  constructor
  · rintro ⟨e, he, hstart⟩
    cases e with
    | started k' i' => cases hstart; exact he
    | ended k' i' => cases hstart
  · intro h
    exact ⟨_, h, rfl⟩

theorem mem_inFlight {trace : List CallEvent} {k i : Nat} :
    (k, i) ∈ inFlight trace ↔ started k i ∈ trace ∧ ended k i ∉ trace := by
  rw [inFlight, List.mem_filter, mem_filterMap_started?, decide_eq_true_eq]

theorem started_mem_ofMove {batch k i : Nat} {m : BatchMove} (h : started k i ∈ ofMove batch m) :
    k = batch := by
  cases m <;> simp [ofMove] at h
  exact h.1

theorem count_started_take (k i n : Nat) :
    ([started k i, ended k i].take n).count (started k i) = if 1 ≤ n then 1 else 0 := by
  match n with
  | 0 => rfl
  | 1 => simp
  | n + 2 => simp

theorem count_ended_take (k i n : Nat) :
    ([started k i, ended k i].take n).count (ended k i) = if 2 ≤ n then 1 else 0 := by
  match n with
  | 0 => rfl
  | 1 => simp
  | n + 2 => simp

end CallEvent

/-! ## Batches in sequence -/

/-- The number of moves behind a call of the `k`-th of some batches, when `left` of them are settled
    and `b` is the next one. -/
def Batch.rankIn (sizes : Nat → Nat) (left : Nat) (b : Batch) (k i : Nat) : Nat :=
  if k < left then if i < sizes k then 3 else 0
  else if k = left then b.rankAt i else 0

theorem Batch.rankIn_start (sizes : Nat → Nat) (left n k i : Nat) :
    (Batch.start n).rankIn sizes left k i = if k < left ∧ i < sizes k then 3 else 0 := by
  rw [rankIn, rankAt_start, ite_self, ite_and]

/-- A trace is that of batches of some sizes, opened one after the other, of which `left` are
    settled and `b` is the next one. -/
structure InSequence (sizes : Nat → Nat) (left : Nat) (b : Batch) (trace : List CallEvent) :
    Prop where
  length : b.phases.length = sizes left
  /-- The events of a call are its start and its end, as far as it has come. -/
  history : ∀ k i, trace.filter (·.call == (k, i)) =
    [CallEvent.started k i, .ended k i].take (b.rankIn sizes left k i)
  /-- When a call starts, every call of an earlier batch has ended. -/
  ended_mem : ∀ before k i after, trace = before ++ .started k i :: after →
    ∀ k' < k, ∀ i' < sizes k', CallEvent.ended k' i' ∈ before

namespace InSequence

variable {sizes : Nat → Nat} {left : Nat} {b b' : Batch} {trace : List CallEvent}
  {ends : Nat → CallEnd} {m : BatchMove} {k i : Nat}

theorem empty (sizes : Nat → Nat) : InSequence sizes 0 (.start (sizes 0)) [] where
  length := by simp [Batch.start]
  history k i := by simp [Batch.rankIn]
  ended_mem before k i after h := by simp at h

theorem count_eq (h : InSequence sizes left b trace) (e : CallEvent) :
    trace.count e = ([CallEvent.started e.call.1 e.call.2, .ended e.call.1 e.call.2].take
      (b.rankIn sizes left e.call.1 e.call.2)).count e := by
  rw [← h.history, List.count_filter (by simp)]

theorem started_mem_iff (h : InSequence sizes left b trace) :
    .started k i ∈ trace ↔ 1 ≤ b.rankIn sizes left k i := by
  rw [← List.count_pos_iff, h.count_eq, CallEvent.call, CallEvent.count_started_take]
  split_ifs with hrank <;> simp [hrank]

theorem ended_mem_iff (h : InSequence sizes left b trace) :
    .ended k i ∈ trace ↔ 2 ≤ b.rankIn sizes left k i := by
  rw [← List.count_pos_iff, h.count_eq, CallEvent.call, CallEvent.count_ended_take]
  split_ifs with hrank <;> simp [hrank]

/-- Calls are made at the positions of their batch only. -/
theorem lt_size (h : InSequence sizes left b trace) (hstart : .started k i ∈ trace) :
    i < sizes k := by
  rw [h.started_mem_iff, Batch.rankIn] at hstart
  split_ifs at hstart with hk hi hk
  · exact hi
  · omega
  · subst hk
    by_contra hi
    rw [Batch.rankAt_eq_zero (by rw [h.length]; omega)] at hstart
    omega
  · omega

/-- A move of the open batch adds its event to the trace. -/
theorem call (h : InSequence sizes left b trace) (hmove : b.step? ends m = some b') :
    InSequence sizes left b' (trace ++ CallEvent.ofMove left m) where
  length := by
    rw [← h.length, (Batch.step?_eq_some_iff.mp hmove).2, Batch.moved_phases, List.length_set]
  history k i := by
    rw [List.filter_append, h.history]
    by_cases hcall : k = left ∧ m.position = i
    · obtain ⟨rfl, rfl⟩ := hcall
      have hafter := Batch.rankAt_step hmove m.position
      rw [if_pos rfl] at hafter
      simp only [Batch.rankIn, lt_irrefl, if_false, if_true, hafter, Batch.rankAt_position hmove]
      cases m <;> simp [CallEvent.ofMove, CallEvent.call, BatchMove.source, BatchMove.target,
        BatchMove.position, CallPhase.rank]
    · have hsame : b'.rankIn sizes left k i = b.rankIn sizes left k i := by
        simp only [Batch.rankIn]
        split_ifs with hk hi hk
        · rfl
        · rfl
        · rw [Batch.rankAt_step hmove i, if_neg fun hi => hcall ⟨hk, hi⟩]
        · rfl
      have hnone : (CallEvent.ofMove left m).filter (·.call == (k, i)) = [] := by
        rw [List.filter_eq_nil_iff]
        intro e he hof
        refine hcall ?_
        cases m <;> simp_all [CallEvent.ofMove, CallEvent.call, BatchMove.position]
      rw [hsame, hnone, List.append_nil]
  ended_mem before k i after hsplit k' hk' i' hi' := by
    rcases append_eq_append_cons hsplit with ⟨more, hmore⟩ | ⟨more, rfl, hmore⟩
    · exact h.ended_mem before k i more hmore k' hk' i' hi'
    · -- the call that starts is one of the open batch, so the earlier ones are settled
      have hstart : CallEvent.started k i ∈ CallEvent.ofMove left m := by
        rw [hmore]
        simp
      obtain rfl := CallEvent.started_mem_ofMove hstart
      refine List.mem_append_left _ (h.ended_mem_iff.mpr ?_)
      rw [Batch.rankIn, if_pos hk', if_pos hi']
      omega

/-- When all calls of the open batch are joined, the next one can be opened. -/
theorem settle (h : InSequence sizes left b trace) (hdone : b.isDone = true) :
    InSequence sizes (left + 1) (.start (sizes (left + 1))) trace where
  length := by simp [Batch.start]
  history k i := by
    rw [h.history]
    congr 1
    simp only [Batch.rankIn, Batch.rankAt_start, ite_self]
    rcases Nat.lt_trichotomy k left with hk | rfl | hk
    · rw [if_pos hk, if_pos (Nat.lt_succ_of_lt hk)]
    · rw [if_neg (lt_irrefl k), if_pos rfl, if_pos (Nat.lt_succ_self k)]
      split_ifs with hi
      · exact Batch.rankAt_of_isDone hdone (by rw [h.length]; exact hi)
      · exact Batch.rankAt_eq_zero (by rw [h.length]; omega)
    · rw [if_neg (by omega), if_neg (by omega), if_neg (by omega)]
  ended_mem := h.ended_mem

/-- The number of times that a call has started. -/
theorem count_started (h : InSequence sizes left b trace) (k i : Nat) :
    (trace.filterMap CallEvent.started?).count (k, i) =
      if 1 ≤ b.rankIn sizes left k i then 1 else 0 := by
  have hcount : (trace.filterMap CallEvent.started?).count (k, i) =
      trace.count (.started k i) := by
    rw [List.count_filterMap, List.count]
    congr 1
    funext e
    cases e <;> simp [CallEvent.started?]
  rw [hcount, h.count_eq, CallEvent.call, CallEvent.count_started_take]

theorem started_nodup (h : InSequence sizes left b trace) :
    (trace.filterMap CallEvent.started?).Nodup := by
  rw [List.nodup_iff_count_le_one]
  rintro ⟨k, i⟩
  rw [h.count_started]
  split_ifs <;> omega

/-- Of two calls in flight none belongs to a later batch. -/
theorem batch_le_of_inFlight (h : InSequence sizes left b trace) {before after : List CallEvent}
    (hsplit : trace = before ++ after) {k i k' i' : Nat}
    (hc : (k, i) ∈ CallEvent.inFlight before) (hc' : (k', i') ∈ CallEvent.inFlight before) :
    k' ≤ k := by
  by_contra hk
  rw [CallEvent.mem_inFlight] at hc hc'
  obtain ⟨first, rest, hbefore⟩ := List.append_of_mem hc'.1
  have hi : i < sizes k := h.lt_size (by rw [hsplit]; exact List.mem_append_left _ hc.1)
  have hended := h.ended_mem first k' i' (rest ++ after) (by simp [hsplit, hbefore]) k
    (by omega) i hi
  exact hc.2 (by rw [hbefore]; exact List.mem_append_left _ hended)

/-- Never more calls are in flight than one batch has. -/
theorem length_inFlight_le (h : InSequence sizes left b trace) {size : Nat}
    (hsizes : ∀ k, sizes k ≤ size) {before after : List CallEvent}
    (hsplit : trace = before ++ after) : (CallEvent.inFlight before).length ≤ size := by
  have hnodup : (CallEvent.inFlight before).Nodup := by
    have hall := h.started_nodup
    rw [hsplit, List.filterMap_append] at hall
    exact hall.of_append_left.filter _
  -- the calls in flight are all of one batch, so their positions tell them apart
  have hpositions : ((CallEvent.inFlight before).map Prod.snd).Nodup := by
    refine hnodup.map_on fun c hc c' hc' hi => Prod.ext ?_ hi
    exact le_antisymm (h.batch_le_of_inFlight hsplit hc' hc) (h.batch_le_of_inFlight hsplit hc hc')
  have hsub : (CallEvent.inFlight before).map Prod.snd ⊆ List.range size := by
    intro i hi
    obtain ⟨⟨k, i⟩, hc, rfl⟩ := List.mem_map.mp hi
    have hstart := List.mem_append_left after (CallEvent.mem_inFlight.mp hc).1
    rw [← hsplit] at hstart
    exact List.mem_range.mpr ((h.lt_size hstart).trans_le (hsizes k))
  simpa using (List.subperm_of_subset hpositions hsub).length_le

theorem started_mem_iff_of_settled {n : Nat} (h : InSequence sizes left (.start n) trace) :
    .started k i ∈ trace ↔ k < left ∧ i < sizes k := by
  rw [h.started_mem_iff, Batch.rankIn_start]
  split_ifs with hcall <;> simp [hcall]

theorem ended_mem_iff_of_settled {n : Nat} (h : InSequence sizes left (.start n) trace) :
    .ended k i ∈ trace ↔ k < left ∧ i < sizes k := by
  rw [h.ended_mem_iff, Batch.rankIn_start]
  split_ifs with hcall <;> simp [hcall]

end InSequence

/-! ## Scenarios -/

/-- What the event says of a call of an iteration. -/
def ScenarioEvent.call? : ScenarioEvent → Option CallEvent
  | .called k i => some (.started k i)
  | .ended k i => some (.ended k i)
  | _ => none

/-- The event of a scenario that a call of an iteration shows. -/
def CallEvent.inScenario : CallEvent → ScenarioEvent
  | started k i => .called k i
  | ended k i => .ended k i

theorem ScenarioEvent.mem_filterMap_call? {log : List ScenarioEvent} {c : CallEvent} :
    c ∈ log.filterMap call? ↔ c.inScenario ∈ log := by
  rw [List.mem_filterMap]
  constructor
  · rintro ⟨e, he, hcall⟩
    cases e <;> cases hcall <;> exact he
  · intro h
    exact ⟨_, h, by cases c <;> rfl⟩

namespace ScenarioRun

variable {s : Scenario} {service : Nat → Nat → CallEnd} {r r' : ScenarioRun} {m : ScenarioMove}
  {b : Batch}

theorem filterMap_seen (r : ScenarioRun) (s : Scenario) (ends : Nat → CallEnd) (m : BatchMove) :
    (r.seen s ends m).filterMap ScenarioEvent.call? = CallEvent.ofMove r.settled.length m := by
  cases m with
  | launch i => rfl
  | finish i =>
    simp only [seen]
    cases ends i <;> rfl
  | join i => rfl

/-- What can be seen of a run is its batches in sequence, one an iteration. The next batch is the
    open one; once the run has stopped, the one that was open then. -/
structure Traced (s : Scenario) (r : ScenarioRun) (b : Batch) : Prop where
  trace : InSequence (fun _ => s.batchSize) r.settled.length b
    (r.log.filterMap ScenarioEvent.call?)
  isOpen : ∀ b', r.batch = some b' → b' = b
  isClosed : r.result = none → r.batch = none → b = .start s.batchSize

theorem traced_start (s : Scenario) (cancelled : Bool) :
    (start cancelled).Traced s (.start s.batchSize) where
  trace := .empty fun _ => s.batchSize
  isOpen := by simp [start]
  isClosed _ _ := rfl

theorem Traced.stop (h : r.Traced s b) : (r.stop s).Traced s b where
  trace := by simpa [ScenarioRun.stop, List.filterMap_cons, ScenarioEvent.call?] using h.trace
  isOpen := by simp [ScenarioRun.stop]
  isClosed := by simp [ScenarioRun.stop]

/-- Whatever move a run makes, its batches stay in sequence. -/
theorem Traced.step (h : r.Traced s b) (hstep : step? s service r m = some r') :
    ∃ b', r'.Traced s b' := by
  cases step_of_step? hstep with
  | cancel hlive => exact ⟨b, h.trace, h.isOpen, h.isClosed⟩
  | openBatch hrun hclosed hmore hlive =>
    obtain rfl := h.isClosed hrun hclosed
    exact ⟨_, h.trace, by simp, by simp⟩
  | refuse hrun hclosed hmore hcancel => exact ⟨b, h.stop⟩
  | @call b₀ b' m hrun hopen hjoin hmove =>
    obtain rfl := h.isOpen b₀ hopen
    refine ⟨b', ?_, by simp, by simp⟩
    rw [observe_log, observe_settled, List.filterMap_append, filterMap_seen]
    exact h.trace.call hmove
  | @settle b₀ elapsedMs finishedAt hrun hopen hlive hdone =>
    obtain rfl := h.isOpen b₀ hopen
    refine ⟨.start s.batchSize, ?_, by simp, fun _ _ => rfl⟩
    simpa [List.filterMap_cons, ScenarioEvent.call?] using h.trace.settle hdone
  | conclude totalElapsedMs runId hrun hclosed hall =>
    refine ⟨b, ?_, h.isOpen, by simp⟩
    simpa [List.filterMap_cons, ScenarioEvent.call?] using h.trace
  | giveUp hrun hopen hcancel => exact ⟨b, h.stop⟩

theorem exists_traced {moves : List ScenarioMove} {cancelled : Bool}
    (h : (start cancelled).play? s service moves = some r) : ∃ b, r.Traced s b := by
  have hkeep : ∀ (r : ScenarioRun) m r', (∃ b, r.Traced s b) → step? s service r m = some r' →
      ∃ b, r'.Traced s b := by
    rintro r m r' ⟨b, hb⟩ hstep
    exact hb.step hstep
  exact foldlM_keeps hkeep ⟨_, traced_start s cancelled⟩ h

end ScenarioRun

/-! ## Users -/

/-- What the event says of a call of a user. -/
def LoadEvent.callOf? (user : Nat) : LoadEvent → Option CallEvent
  | .called u k i => if u = user then some (.started k i) else none
  | .ended u k i => if u = user then some (.ended k i) else none
  | _ => none

/-- The event of a load run that a call of a user shows. -/
def CallEvent.ofUser (user : Nat) : CallEvent → LoadEvent
  | started k i => .called user k i
  | ended k i => .ended user k i

theorem LoadEvent.mem_filterMap_callOf? {user : Nat} {log : List LoadEvent} {c : CallEvent} :
    c ∈ log.filterMap (callOf? user) ↔ c.ofUser user ∈ log := by
  rw [List.mem_filterMap]
  constructor
  · rintro ⟨e, he, hcall⟩
    cases e with
    | called u k i =>
      obtain ⟨rfl, ⟨⟩⟩ := Option.ite_none_right_eq_some.mp hcall
      exact he
    | ended u k i =>
      obtain ⟨rfl, ⟨⟩⟩ := Option.ite_none_right_eq_some.mp hcall
      exact he
    | _ => cases hcall
  · intro h
    exact ⟨_, h, by cases c <;> simp [CallEvent.ofUser, callOf?]⟩

/-- The size of a page of a walk; a page that is not reached has none. -/
def UserAction.sizeReached (a : UserAction) (k : Nat) : Nat :=
  (a.pagesReached[k]?.map Page.size).getD 0

namespace UserAction

variable {a : UserAction}

theorem sizeReached_eq {k : Nat} {page : Page} (h : a.pagesReached[k]? = some page) :
    a.sizeReached k = page.size := by
  rw [sizeReached, h]
  rfl

/-- The page after the visits is reached if it can be held. -/
theorem Visited.pagesReached {service : Nat → Nat → CallEnd} {visits : List PageVisit}
    (hv : a.Visited service visits) {page : Page} (hpage : a.pages[visits.length]? = some page)
    (hheld : page.calls?.isSome = true) : a.pagesReached[visits.length]? = some page := by
  rw [getElem?_pagesReached]
  refine ⟨hpage, fun j hj other hother => ?_⟩
  rcases Nat.lt_or_eq_of_le hj with hlt | rfl
  · exact hv.held j hlt other hother
  · rw [hpage, Option.some_inj] at hother
    rwa [← hother]

end UserAction

/-- Where a user stands: the number of pages left, and the batch of the next one. At the end of the
    walk, and on a page that cannot be held, all pages reached are left. -/
inductive UserTask.Stands (a : UserAction) : UserTask → Nat → Batch → Prop
  | between {visits : List PageVisit} :
    Stands a (.between visits) visits.length (.start (a.sizeReached visits.length))
  | visiting {visits : List PageVisit} {b : Batch} : Stands a (.visiting visits b) visits.length b
  | ended {walk : UserWalk} : Stands a (.ended (some walk)) a.pagesReached.length
    (.start (a.sizeReached a.pagesReached.length))
  | stopped {left : Nat} {b : Batch} : Stands a (.ended none) left b
  | crashed : Stands a .crashed a.pagesReached.length
    (.start (a.sizeReached a.pagesReached.length))
  | joined : Stands a .joined a.pagesReached.length
    (.start (a.sizeReached a.pagesReached.length))

namespace User

variable {service : Nat → Nat → CallEnd} {index : Nat} {cancelled : Bool} {u u' : User}
  {move : UserMove} {events : List LoadEvent} {trace : List CallEvent}

/-- What can be seen of a user is the batches of the pages in sequence. -/
def Traced (u : User) (trace : List CallEvent) : Prop :=
  ∃ left b, u.task.Stands u.action left b ∧ InSequence u.action.sizeReached left b trace

theorem filterMap_seen (index page : Nat) (m : BatchMove) :
    (seen index page m).filterMap (LoadEvent.callOf? index) = CallEvent.ofMove page m := by
  cases m <;> simp [seen, LoadEvent.callOf?, CallEvent.ofMove]

/-- A move of a user shows no call of another one. -/
theorem Step.filterMap_other (h : Step service index cancelled u move u' events) {other : Nat}
    (hother : index ≠ other) : events.filterMap (LoadEvent.callOf? other) = [] := by
  cases h with
  | @call visits b b' m htask hjoin hmove => cases m <;> simp [seen, LoadEvent.callOf?, hother]
  | _ => rfl

/-- Whatever move a user makes, the batches of the pages stay in sequence. -/
theorem Traced.step (ht : u.Traced trace) (hu : u.task.InTurn u.action service index cancelled)
    (h : u.step? service index cancelled move = some (u', events)) :
    u'.Traced (trace ++ events.filterMap (LoadEvent.callOf? index)) := by
  obtain ⟨left, b, hstands, htrace⟩ := ht
  cases step_of_step? h with
  | arrive htask hend =>
    rw [htask] at hu hstands
    cases hstands
    cases hu with
    | between hvisits =>
      have hreached := UserAction.length_pagesReached hvisits.length_le hvisits.held
        (by simp [hend])
      rw [← hreached] at htrace
      exact ⟨_, _, .ended, by simpa using htrace⟩
  | crash htask hpage hcalls =>
    rw [htask] at hu hstands
    cases hstands
    cases hu with
    | between hvisits =>
      have hreached := UserAction.length_pagesReached hvisits.length_le hvisits.held
        (by simp [hpage, hcalls])
      rw [← hreached] at htrace
      exact ⟨_, _, .crashed, by simpa using htrace⟩
  | halt htask hpage hcalls hcancel => exact ⟨left, b, .stopped, by simpa using htrace⟩
  | enter htask hpage hcalls hlive =>
    rw [htask] at hu hstands
    cases hstands
    cases hu with
    | between hvisits =>
      have hreached := hvisits.pagesReached hpage (by simp [hcalls])
      have hsize : u.action.sizeReached _ = _ := UserAction.sizeReached_eq hreached
      rw [hsize, ← Page.length_of_calls? hcalls] at htrace
      exact ⟨_, _, .visiting, by simpa using htrace⟩
  | call htask hjoin hmove =>
    rw [htask] at hstands
    cases hstands
    rw [filterMap_seen]
    exact ⟨_, _, .visiting, htrace.call hmove⟩
  | @leave visits b' page elapsedMs htask hlive hdone hpage =>
    rw [htask] at hstands
    cases hstands
    have hstands : UserTask.Stands u.action (.between (visits ++ [visit page b elapsedMs])) _ _ :=
      .between
    rw [List.length_append, List.length_singleton] at hstands
    have hsettled := htrace.settle hdone
    exact ⟨_, _, hstands, by simpa [List.filterMap_cons, LoadEvent.callOf?] using hsettled⟩
  | giveUp htask hcancel => exact ⟨left, b, .stopped, by simpa using htrace⟩

/-- Of a user who is joined all pages reached are settled. -/
theorem Traced.of_isJoined (ht : u.Traced trace) (h : u.isJoined = true) :
    ∃ n, InSequence u.action.sizeReached u.action.pagesReached.length (.start n) trace := by
  obtain ⟨left, b, hstands, htrace⟩ := ht
  cases htask : u.task with
  | joined =>
    rw [htask] at hstands
    cases hstands
    exact ⟨_, htrace⟩
  | _ => simp [isJoined, htask] at h

end User

/-! ## Mixes -/

namespace LoadRun

variable {m : Mix} {service : Nat → Nat → Nat → CallEnd} {r r' : LoadRun} {move : LoadMove}

/-- What can be seen of a run is the pages of every user in sequence. -/
structure Traced (r : LoadRun) : Prop where
  user : ∀ (i : Nat) (u : User), r.users[i]? = some u →
    u.Traced (r.log.filterMap (LoadEvent.callOf? i))
  nobody : ∀ i, r.users[i]? = none → r.log.filterMap (LoadEvent.callOf? i) = []

theorem traced_start (m : Mix) (cancelled : Bool) : (start m cancelled).Traced where
  user i u hu := by
    obtain ⟨a, -, rfl⟩ := Option.map_eq_some_iff.mp (List.getElem?_map ▸ hu)
    exact ⟨_, _, .between, .empty _⟩
  nobody _ _ := rfl

/-- Events that are not about a call can be added. -/
theorem Traced.append (ht : r.Traced) (husers : r'.users = r.users) {events : List LoadEvent}
    (hlog : r'.log = r.log ++ events)
    (hevents : ∀ i, events.filterMap (LoadEvent.callOf? i) = []) : r'.Traced where
  user i u hu := by
    rw [husers] at hu
    rw [hlog, List.filterMap_append, hevents, List.append_nil]
    exact ht.user i u hu
  nobody i hi := by
    rw [husers] at hi
    rw [hlog, List.filterMap_append, hevents, List.append_nil]
    exact ht.nobody i hi

/-- A user can be replaced, with events that are about no calls of others. -/
theorem Traced.replace (ht : r.Traced) {index : Nat} {u v : User} {events : List LoadEvent}
    (hu : r.users[index]? = some u) (husers : r'.users = r.users.set index v)
    (hlog : r'.log = r.log ++ events)
    (hv : v.Traced (r.log.filterMap (LoadEvent.callOf? index) ++
      events.filterMap (LoadEvent.callOf? index)))
    (hother : ∀ i, index ≠ i → events.filterMap (LoadEvent.callOf? i) = []) : r'.Traced where
  user := by
    have hindex := List.getElem?_set_self (List.getElem?_eq_some_iff.mp hu).1 (a := v)
    intro i u' hu'
    rw [hlog, List.filterMap_append]
    by_cases hi : index = i
    · subst hi
      rw [husers, hindex, Option.some_inj] at hu'
      rwa [← hu']
    · rw [husers, List.getElem?_set_ne hi] at hu'
      rw [hother i hi, List.append_nil]
      exact ht.user i u' hu'
  nobody i hi := by
    rw [husers, List.getElem?_eq_none_iff, List.length_set, ← List.getElem?_eq_none_iff] at hi
    have hne : index ≠ i := by rintro rfl; rw [hu] at hi; cases hi
    rw [hlog, List.filterMap_append, hother i hne, List.append_nil]
    exact ht.nobody i hi

/-- Whatever move a run makes, the pages of its users stay in sequence. -/
theorem Traced.step (ht : r.Traced) (hr : r.Sound m service)
    (h : step? m service r move = some r') : r'.Traced := by
  cases step_of_step? h with
  | cancel hlive => exact ⟨ht.user, ht.nobody⟩
  | user hrun hu hmove =>
    exact ht.replace hu rfl rfl ((ht.user _ _ hu).step (hr.inTurn _ _ hu) hmove)
      fun _ => (User.step_of_step? hmove).filterMap_other
  | @join index u walk hrun hu htask hlive =>
    obtain ⟨left, b, hstands, htrace⟩ := ht.user _ _ hu
    rw [htask] at hstands
    cases hstands
    refine ht.replace hu rfl (List.append_assoc _ _ _) ⟨_, _, .joined, ?_⟩ fun _ _ => rfl
    simpa [List.filterMap_cons, LoadEvent.callOf?] using htrace
  | @joinLost index u hrun hu htask hlive =>
    obtain ⟨left, b, hstands, htrace⟩ := ht.user _ _ hu
    rw [htask] at hstands
    cases hstands
    refine ht.replace hu rfl (List.append_assoc _ _ _) ⟨_, _, .joined, ?_⟩ fun _ _ => rfl
    simpa [List.filterMap_cons, LoadEvent.callOf?] using htrace
  | joinStopped hrun hu htask => exact ht.append rfl rfl fun _ => rfl
  | conclude totalTimeMs hrun hlive hall => exact ht.append rfl rfl fun _ => rfl
  | giveUp hrun hcancel => exact ht.append rfl rfl fun _ => rfl

theorem traced_of_play {moves : List LoadMove} {cancelled : Bool}
    (h : (start m cancelled).play? m service moves = some r) : r.Traced := by
  have hkeep : ∀ (r : LoadRun) move r', r.Sound m service ∧ r.Traced →
      step? m service r move = some r' → r'.Sound m service ∧ r'.Traced :=
    fun r move r' ⟨hr, ht⟩ hstep => ⟨hr.step hstep, ht.step hr hstep⟩
  exact (foldlM_keeps hkeep ⟨sound_start m service cancelled, traced_start m cancelled⟩ h).2

end LoadRun

end LoadBench
