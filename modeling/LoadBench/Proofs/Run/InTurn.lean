import Mathlib.Data.List.Range
import Mathlib.Data.List.TakeWhile
import Mathlib.Tactic
import LoadBench.Run.InTurn
import LoadBench.Proofs.Plan.Mix

/-!
# What calls made in turn come to

The reference for runs: the results of a batch, an iteration and a visit whose calls are made one at
a time, and the walks of users who walk one after the other.

Results:
* `resultsInTurn_eq_some_iff`, `resultsInTurn_eq_none_iff`: there are results iff every call comes
  back, and they are in the order of the positions.
* `Recorded`: what is put on record of a batch, said position by position;
  `iterationInTurn_recorded`, `visitInTurn_recorded`: this holds of iterations and visits in turn.
* `completedRequests_iterationsInTurn`: iterations that are not lost have a full batch of results.
* `resultsOf_iterationsInTurn`, `mem_failedIterations_iterationsInTurn`: what a report says of one
  iteration depends on the calls of that iteration alone.
* `UserAction.recordInTurn_onRecord`: what is on record of a user, said page by page.
* `Mix.countP_failed_recordsInTurn`, `Mix.recordsInTurn_of_fits`: who is lost.
* `Mix.mem_callsInTurn`, `Mix.nodup_callsInTurn`, `Mix.length_callsInTurn`,
  `Mix.countP_callsInTurn`: the calls in turn.
-/

namespace LoadBench

/-! ## Results of a batch -/

theorem resultsInTurn_succ (size : Nat) (ends : Nat → CallEnd) :
    resultsInTurn (size + 1) ends =
      (resultsInTurn size ends).bind fun results =>
        (ends size).result?.map fun r => results ++ [r] := by
  unfold resultsInTurn
  rw [List.range_succ, List.mapM_append]
  cases (List.range size).mapM fun i => (ends i).result? with
  | none => rfl
  | some results => cases h : (ends size).result? <;> simp [h]

theorem result?_eq_some_iff {e : CallEnd} {r : CallResult} :
    e.result? = some r ↔ e = .returned r := by
  cases e <;> simp [CallEnd.result?]

theorem result?_eq_none_iff {e : CallEnd} : e.result? = none ↔ e = .crashed := by
  cases e <;> simp [CallEnd.result?]

/-- The results in turn are those of the calls, if all of them come back. -/
theorem resultsInTurn_eq_some_iff {size : Nat} {ends : Nat → CallEnd} {results : List CallResult} :
    resultsInTurn size ends = some results ↔
      (List.range size).map ends = results.map .returned := by
  induction size generalizing results with
  | zero =>
    cases results <;> simp [resultsInTurn]
  | succ size ih =>
    rw [resultsInTurn_succ, List.range_succ, List.map_append, Option.bind_eq_some_iff]
    constructor
    · rintro ⟨before, hbefore, hlast⟩
      obtain ⟨r, hr, rfl⟩ := Option.map_eq_some_iff.mp hlast
      rw [ih.mp hbefore, List.map_append]
      simp [result?_eq_some_iff.mp hr]
    · intro h
      obtain ⟨before, last, rfl, hbefore, hlast⟩ := List.map_eq_append_iff.mp h.symm
      refine ⟨before, ih.mpr hbefore.symm, ?_⟩
      obtain ⟨r, rfl, hr⟩ := List.map_eq_singleton_iff.mp hlast
      rw [result?_eq_some_iff.mpr hr.symm, Option.map_some]

/-- There are no results in turn iff a call crashes. -/
theorem resultsInTurn_eq_none_iff {size : Nat} {ends : Nat → CallEnd} :
    resultsInTurn size ends = none ↔ ∃ i < size, ends i = .crashed := by
  induction size with
  | zero => simp [resultsInTurn]
  | succ size ih =>
    rw [resultsInTurn_succ]
    cases h : resultsInTurn size ends with
    | none =>
      obtain ⟨i, hi, hcrash⟩ := ih.mp h
      simpa using ⟨i, by omega, hcrash⟩
    | some results =>
      have hnone : ¬ ∃ i < size, ends i = .crashed := by rw [← ih, h]; simp
      rw [Option.bind_some, Option.map_eq_none_iff, result?_eq_none_iff]
      constructor
      · intro hlast; exact ⟨size, by omega, hlast⟩
      · rintro ⟨i, hi, hcrash⟩
        rcases Nat.lt_succ_iff_lt_or_eq.mp hi with hlt | rfl
        · exact absurd ⟨i, hlt, hcrash⟩ hnone
        · exact hcrash

theorem length_of_resultsInTurn {size : Nat} {ends : Nat → CallEnd} {results : List CallResult}
    (h : resultsInTurn size ends = some results) : results.length = size := by
  simpa using (congrArg List.length (resultsInTurn_eq_some_iff.mp h)).symm

theorem getElem?_of_resultsInTurn {size : Nat} {ends : Nat → CallEnd} {results : List CallResult}
    (h : resultsInTurn size ends = some results) {i : Nat} (hi : i < size) :
    ∃ r, ends i = .returned r ∧ results[i]? = some r := by
  have hlen := length_of_resultsInTurn h
  have hat := congrArg (·[i]?) (resultsInTurn_eq_some_iff.mp h)
  simp only [List.getElem?_map, List.getElem?_range hi, Option.map_some] at hat
  obtain ⟨r, hr, hend⟩ := Option.map_eq_some_iff.mp hat.symm
  exact ⟨r, hend.symm, hr⟩

/-! ## Iterations and visits on record -/

/-- What is put on record of a batch of some size: it is lost, and has no results, iff one of its
    calls crashes; else it has the result of every call at the position of the call, marked by
    `mark`. -/
structure Recorded (size : Nat) (ends : Nat → CallEnd) (mark : CallResult → CallResult)
    (failed : Bool) (results : List CallResult) : Prop where
  failed_iff : failed = true ↔ ∃ i < size, ends i = .crashed
  lost : failed = true → results = []
  length : failed = false → results.length = size
  result : failed = false →
    ∀ i < size, ∃ r, ends i = .returned r ∧ results[i]? = some (mark r)

namespace Recorded

variable {size : Nat} {ends : Nat → CallEnd} {mark : CallResult → CallResult}

theorem of_none (h : resultsInTurn size ends = none) : Recorded size ends mark true [] where
  failed_iff := ⟨fun _ => resultsInTurn_eq_none_iff.mp h, fun _ => rfl⟩
  lost _ := rfl
  length := by simp
  result := by simp

theorem of_some {results : List CallResult} (h : resultsInTurn size ends = some results) :
    Recorded size ends mark false (results.map mark) where
  failed_iff := by rw [← resultsInTurn_eq_none_iff, h]; simp
  lost := by simp
  length _ := by rw [List.length_map, length_of_resultsInTurn h]
  result _ i hi := by
    obtain ⟨r, hr, hat⟩ := getElem?_of_resultsInTurn h hi
    exact ⟨r, hr, by rw [List.getElem?_map, hat, Option.map_some]⟩

/-- The results of a batch are all of its size, or the batch is lost. -/
theorem length_add {failed : Bool} {results : List CallResult}
    (h : Recorded size ends mark failed results) :
    results.length + (if failed then size else 0) = size := by
  cases failed with
  | true => simp [h.lost rfl]
  | false => simp [h.length rfl]

end Recorded

theorem iterationInTurn_recorded (s : Scenario) (service : Nat → Nat → CallEnd) (index : Nat)
    (time : Float × Instant) :
    Recorded s.batchSize (service index)
      (fun r => { r with iteration := some ⟨index, time.1⟩ })
      (s.iterationInTurn service index time).failed
      (s.iterationInTurn service index time).results := by
  unfold Scenario.iterationInTurn
  cases h : resultsInTurn s.batchSize (service index) with
  | none => exact .of_none h
  | some results => exact .of_some h

theorem visitInTurn_recorded (p : Page) (ends : Nat → CallEnd) (elapsedMs : Float) :
    Recorded p.size ends id (p.visitInTurn ends elapsedMs).failed
      (p.visitInTurn ends elapsedMs).results := by
  unfold Page.visitInTurn
  cases h : resultsInTurn p.size ends with
  | none => exact .of_none h
  | some results =>
    have hrec : Recorded p.size ends id false (results.map id) := .of_some h
    rwa [List.map_id] at hrec

@[simp] theorem iterationInTurn_index (s : Scenario) (service : Nat → Nat → CallEnd) (index : Nat)
    (time : Float × Instant) : (s.iterationInTurn service index time).index = index := by
  unfold Scenario.iterationInTurn
  split <;> rfl

@[simp] theorem iterationInTurn_elapsedMs (s : Scenario) (service : Nat → Nat → CallEnd)
    (index : Nat) (time : Float × Instant) :
    (s.iterationInTurn service index time).elapsedMs = time.1 := by
  unfold Scenario.iterationInTurn
  split <;> rfl

@[simp] theorem iterationInTurn_finishedAt (s : Scenario) (service : Nat → Nat → CallEnd)
    (index : Nat) (time : Float × Instant) :
    (s.iterationInTurn service index time).finishedAt = time.2 := by
  unfold Scenario.iterationInTurn
  split <;> rfl

@[simp] theorem visitInTurn_pageName (p : Page) (ends : Nat → CallEnd) (elapsedMs : Float) :
    (p.visitInTurn ends elapsedMs).pageName = p.name := by
  unfold Page.visitInTurn
  split <;> rfl

@[simp] theorem visitInTurn_totalTimeMs (p : Page) (ends : Nat → CallEnd) (elapsedMs : Float) :
    (p.visitInTurn ends elapsedMs).totalTimeMs = elapsedMs := by
  unfold Page.visitInTurn
  split <;> rfl

/-! ## Iterations of a scenario -/

theorem length_flatMap_results (size : Nat) {iterations : List Iteration}
    (h : ∀ it ∈ iterations, it.results.length = if it.failed then 0 else size) :
    (iterations.flatMap (·.results)).length =
      size * (iterations.length - (iterations.filter (·.failed)).length) := by
  induction iterations with
  | nil => simp
  | cons it rest ih =>
    have hle := List.length_filter_le (·.failed) rest
    rw [List.flatMap_cons, List.length_append, ih fun x hx => h x (List.mem_cons_of_mem _ hx),
      h it List.mem_cons_self, List.length_cons]
    cases hf : it.failed with
    | true => simp [hf]
    | false =>
      rw [List.filter_cons_of_neg (by simp [hf]), Nat.succ_sub hle, Nat.mul_succ]
      simp [Nat.add_comm]

theorem getElem?_iterationsInTurn (s : Scenario) (service : Nat → Nat → CallEnd)
    (times : Nat → Float × Instant) {i : Nat} (hi : i < s.iterations) :
    (s.iterationsInTurn service times)[i]? = some (s.iterationInTurn service i (times i)) := by
  rw [Scenario.iterationsInTurn, List.getElem?_map, List.getElem?_range hi, Option.map_some]

@[simp] theorem length_iterationsInTurn (s : Scenario) (service : Nat → Nat → CallEnd)
    (times : Nat → Float × Instant) :
    (s.iterationsInTurn service times).length = s.iterations := by
  simp [Scenario.iterationsInTurn]

/-- Every iteration that is not lost has a full batch of results. -/
theorem completedRequests_iterationsInTurn (s : Scenario) (service : Nat → Nat → CallEnd)
    (times : Nat → Float × Instant) (totalElapsedMs : Float) :
    let report := ScenarioReport.ofIterations s (s.iterationsInTurn service times) totalElapsedMs
    report.completedRequests = s.batchSize * (s.iterations - report.failedIterations.length) := by
  simp only [ScenarioReport.ofIterations, List.length_map]
  rw [length_flatMap_results s.batchSize, length_iterationsInTurn]
  intro it hit
  obtain ⟨i, -, rfl⟩ := List.mem_map.mp hit
  have hrec := iterationInTurn_recorded s service i (times i)
  split_ifs with hf
  · rw [hrec.lost hf]; rfl
  · exact hrec.length (by simpa using hf)

/-! ## Results by iteration -/

/-- The results of one iteration in a report, without what was measured of the iteration. -/
def ScenarioReport.resultsOf (report : ScenarioReport) (index : Nat) : List CallResult :=
  (report.results.filter fun r => r.iteration.map (·.index) == some index).map
    fun r => { r with iteration := none }

theorem flatMap_range_of_eq_nil {α : Type} {n i : Nat} (hi : i < n) {f : Nat → List α}
    (h : ∀ j, j ≠ i → f j = []) : (List.range n).flatMap f = f i := by
  induction n with
  | zero => omega
  | succ n ih =>
    rw [List.range_succ, List.flatMap_append, List.flatMap_singleton]
    rcases Nat.lt_succ_iff_lt_or_eq.mp hi with hlt | rfl
    · rw [ih hlt, h n (by omega), List.append_nil]
    · rw [List.flatMap_eq_nil_iff.mpr fun j hj => h j (by rw [List.mem_range] at hj; omega),
        List.nil_append]

/-- The results of an iteration in turn that carry the number of an iteration are all of them, or
    none if it is another one. -/
theorem filter_results_iterationInTurn (s : Scenario) (service : Nat → Nat → CallEnd)
    (index i : Nat) (time : Float × Instant) :
    ((s.iterationInTurn service index time).results.filter
      fun r => r.iteration.map (·.index) == some i).map (fun r => { r with iteration := none }) =
        if index = i then
          ((resultsInTurn s.batchSize (service index)).getD []).map
            fun r => { r with iteration := none }
        else [] := by
  unfold Scenario.iterationInTurn
  cases resultsInTurn s.batchSize (service index) with
  | none => simp [Iteration.lost]
  | some results =>
    split_ifs with hi <;>
      simp [Iteration.completed, List.filter_map, Function.comp_def, hi]

/-- What a report says of one iteration depends on the calls of that iteration alone. -/
theorem resultsOf_iterationsInTurn (s : Scenario) (service : Nat → Nat → CallEnd)
    (times : Nat → Float × Instant) (totalElapsedMs : Float) {i : Nat} (hi : i < s.iterations) :
    (ScenarioReport.ofIterations s (s.iterationsInTurn service times) totalElapsedMs).resultsOf i =
      ((resultsInTurn s.batchSize (service i)).getD []).map
        fun r => { r with iteration := none } := by
  simp only [ScenarioReport.resultsOf, ScenarioReport.ofIterations, Scenario.iterationsInTurn,
    List.flatMap_map, List.filter_flatMap, List.map_flatMap, filter_results_iterationInTurn]
  rw [flatMap_range_of_eq_nil hi (fun j hj => if_neg hj), if_pos rfl]

theorem mem_failedIterations_iterationsInTurn (s : Scenario) (service : Nat → Nat → CallEnd)
    (times : Nat → Float × Instant) (totalElapsedMs : Float) (i : Nat) :
    i ∈ (ScenarioReport.ofIterations s (s.iterationsInTurn service times)
        totalElapsedMs).failedIterations ↔
      i < s.iterations ∧ ∃ j < s.batchSize, service i j = .crashed := by
  simp only [ScenarioReport.ofIterations, Scenario.iterationsInTurn, List.mem_map,
    List.mem_filter, List.mem_range]
  constructor
  · rintro ⟨_, ⟨⟨k, hk, rfl⟩, hfailed⟩, rfl⟩
    rw [iterationInTurn_index]
    exact ⟨hk, (iterationInTurn_recorded s service k (times k)).failed_iff.mp hfailed⟩
  · rintro ⟨hi, hcrash⟩
    have hrec := iterationInTurn_recorded s service i (times i)
    exact ⟨_, ⟨⟨i, hi, rfl⟩, hrec.failed_iff.mpr hcrash⟩,
      iterationInTurn_index s service i (times i)⟩

/-! ## Walks and records of a mix -/

/-- What is on record of a user: a walk that visits every page of the action in turn, or, if one of
    the pages cannot be held, that the user was lost. -/
structure UserAction.OnRecord (a : UserAction) (index : Nat) (service : Nat → Nat → CallEnd)
    (w : UserWalk) : Prop where
  userIndex : w.userIndex = index
  actionName : w.actionName = a.name
  failed_iff : w.failed = true ↔ ∃ page ∈ a.pages, Page.sizeLimit ≤ page.size
  lost : w.failed = true → w.visits = []
  length : w.failed = false → w.visits.length = a.pages.length
  visit : w.failed = false → ∀ (k : Nat) (page : Page), a.pages[k]? = some page →
    ∃ v, w.visits[k]? = some v ∧ v.pageName = page.name ∧
      Recorded page.size (service k) id v.failed v.results

namespace UserAction

theorem fits_eq_false_iff {a : UserAction} :
    a.fits = false ↔ ∃ page ∈ a.pages, Page.sizeLimit ≤ page.size := by
  simp only [fits, List.all_eq_false, Option.not_isSome_iff_eq_none, Page.calls?_eq_none_iff]

@[simp] theorem length_visits_walkInTurn (a : UserAction) (index : Nat)
    (service : Nat → Nat → CallEnd) (times : Nat → Float) :
    (a.walkInTurn index service times).visits.length = a.pages.length := by
  simp [walkInTurn, UserWalk.ofVisits]

theorem getElem?_visits_walkInTurn {a : UserAction} {k : Nat} {page : Page}
    (hpage : a.pages[k]? = some page) (index : Nat) (service : Nat → Nat → CallEnd)
    (times : Nat → Float) :
    (a.walkInTurn index service times).visits[k]? =
      some (page.visitInTurn (service k) (times k)) := by
  simp [walkInTurn, UserWalk.ofVisits, hpage]

@[simp] theorem recordInTurn_userIndex (a : UserAction) (index : Nat)
    (service : Nat → Nat → CallEnd) (times : Nat → Float) :
    (a.recordInTurn index service times).userIndex = index := by
  unfold recordInTurn
  split <;> rfl

@[simp] theorem recordInTurn_failed (a : UserAction) (index : Nat)
    (service : Nat → Nat → CallEnd) (times : Nat → Float) :
    (a.recordInTurn index service times).failed = !a.fits := by
  unfold recordInTurn
  split_ifs with hfits
  · rw [hfits]; rfl
  · rw [Bool.not_eq_true] at hfits; rw [hfits]; rfl

theorem recordInTurn_onRecord (a : UserAction) (index : Nat) (service : Nat → Nat → CallEnd)
    (times : Nat → Float) : a.OnRecord index service (a.recordInTurn index service times) where
  userIndex := recordInTurn_userIndex a index service times
  actionName := by unfold recordInTurn; split <;> rfl
  failed_iff := by rw [recordInTurn_failed, Bool.not_eq_true', fits_eq_false_iff]
  lost h := by
    rw [recordInTurn_failed, Bool.not_eq_true'] at h
    rw [recordInTurn, h]
    rfl
  length h := by
    rw [recordInTurn_failed, Bool.not_eq_false'] at h
    rw [recordInTurn, if_pos h, length_visits_walkInTurn]
  visit h k page hpage := by
    rw [recordInTurn_failed, Bool.not_eq_false'] at h
    rw [recordInTurn, if_pos h]
    exact ⟨_, getElem?_visits_walkInTurn hpage index service times, visitInTurn_pageName _ _ _,
      visitInTurn_recorded _ _ _⟩

end UserAction

namespace Mix

variable (m : Mix) (service : Nat → Nat → Nat → CallEnd) (times : Nat → Nat → Float)

theorem getElem?_recordsInTurn {m : Mix} {i : Nat} {a : UserAction} (h : m.roster[i]? = some a) :
    (m.recordsInTurn service times)[i]? = some (a.recordInTurn i (service i) (times i)) := by
  rw [recordsInTurn, List.getElem?_mapIdx, h, Option.map_some]

theorem mem_recordsInTurn {w : UserWalk} :
    w ∈ m.recordsInTurn service times ↔ ∃ (i : Nat) (a : UserAction), m.roster[i]? = some a ∧
      w = a.recordInTurn i (service i) (times i) := by
  constructor
  · intro hw
    obtain ⟨i, hi, rfl⟩ := List.mem_mapIdx.mp hw
    exact ⟨i, _, List.getElem?_eq_getElem hi, rfl⟩
  · rintro ⟨i, a, ha, rfl⟩
    exact List.mem_of_getElem? (getElem?_recordsInTurn service times ha)

@[simp] theorem length_recordsInTurn :
    (m.recordsInTurn service times).length = m.roster.length := by
  simp [recordsInTurn]

theorem map_userIndex_recordsInTurn :
    (m.recordsInTurn service times).map (·.userIndex) = List.range m.roster.length := by
  apply List.ext_getElem?
  intro i
  by_cases hi : i < m.roster.length
  · rw [List.getElem?_map, getElem?_recordsInTurn service times (List.getElem?_eq_getElem hi),
      List.getElem?_range hi, Option.map_some, UserAction.recordInTurn_userIndex]
  · rw [List.getElem?_eq_none (by simpa using hi), List.getElem?_eq_none (by simpa using hi)]

theorem recordsInTurn_ascending :
    (m.recordsInTurn service times).Pairwise fun a b => a.userIndex ≤ b.userIndex := by
  rw [← List.pairwise_map (f := UserWalk.userIndex) (R := (· ≤ ·)), map_userIndex_recordsInTurn]
  exact List.pairwise_le_range

theorem countP_failed_recordsInTurn :
    (m.recordsInTurn service times).countP (·.failed) = m.roster.countP fun a => !a.fits := by
  have hmap : (m.recordsInTurn service times).map (·.failed) = m.roster.map fun a => !a.fits := by
    apply List.ext_getElem?
    intro i
    simp only [recordsInTurn, List.getElem?_map, List.getElem?_mapIdx, Option.map_map]
    congr 1
    funext a
    exact UserAction.recordInTurn_failed a i (service i) (times i)
  have hcount := congrArg (List.countP id) hmap
  simpa only [List.countP_map, Function.comp_def, id_eq] using hcount

/-- If every page can be held, no user is lost. -/
theorem recordsInTurn_of_fits {m : Mix} (hfits : ∀ a ∈ m.roster, a.fits = true) :
    m.recordsInTurn service times = m.walksInTurn service times := by
  apply List.ext_getElem?
  intro i
  rw [recordsInTurn, walksInTurn, List.getElem?_mapIdx, List.getElem?_mapIdx]
  cases ha : m.roster[i]? with
  | none => rfl
  | some a =>
    rw [Option.map_some, Option.map_some, UserAction.recordInTurn,
      if_pos (hfits a (List.mem_of_getElem? ha))]

end Mix

/-! ## Calls in turn -/

section Placed

variable {α β : Type} {f : α → List β} {entries : List α}

theorem placed_concat (f : α → List β) (entries : List α) (entry : α) :
    placed f (entries ++ [entry]) = placed f entries ++ (f entry).map (entries.length, ·) := by
  simp [placed]

theorem mem_placed {k : Nat} {y : β} :
    (k, y) ∈ placed f entries ↔ ∃ entry, entries[k]? = some entry ∧ y ∈ f entry := by
  rw [placed, List.mem_flatten]
  constructor
  · rintro ⟨_, hl, hy⟩
    obtain ⟨j, hj, rfl⟩ := List.mem_mapIdx.mp hl
    obtain ⟨y, hy, heq⟩ := List.mem_map.mp hy
    cases heq
    exact ⟨_, List.getElem?_eq_getElem hj, hy⟩
  · rintro ⟨entry, hentry, hy⟩
    obtain ⟨hk, rfl⟩ := List.getElem?_eq_some_iff.mp hentry
    exact ⟨_, List.mem_mapIdx.mpr ⟨k, hk, rfl⟩, List.mem_map_of_mem hy⟩

theorem nodup_placed (h : ∀ entry ∈ entries, (f entry).Nodup) : (placed f entries).Nodup := by
  induction entries using List.reverseRecOn with
  | nil => exact List.nodup_nil
  | append_singleton entries entry ih =>
    rw [placed_concat, List.nodup_append]
    refine ⟨ih fun x hx => h x (List.mem_append_left _ hx), ?_, ?_⟩
    · exact (h entry (by simp)).map fun _ _ heq => (Prod.mk.inj heq).2
    · rintro ⟨k, y⟩ hy _ hlast rfl
      -- the new entry stands at a place of its own
      obtain ⟨_, hentry, -⟩ := mem_placed.mp hy
      obtain ⟨_, -, heq⟩ := List.mem_map.mp hlast
      cases heq
      exact absurd (List.getElem?_eq_some_iff.mp hentry).1 (lt_irrefl _)

theorem length_placed (f : α → List β) (entries : List α) :
    (placed f entries).length = (entries.map fun entry => (f entry).length).sum := by
  induction entries using List.reverseRecOn with
  | nil => rfl
  | append_singleton entries entry ih => simp [placed_concat, ih]

theorem countP_placed (f : α → List β) (entries : List α) (k : Nat) :
    (placed f entries).countP (·.1 == k) =
      (entries[k]?.map fun entry => (f entry).length).getD 0 := by
  induction entries using List.reverseRecOn with
  | nil => rfl
  | append_singleton entries entry ih =>
    have hlast : ((f entry).map (entries.length, ·)).countP (·.1 == k) =
        if k = entries.length then (f entry).length else 0 := by
      rw [List.countP_map]
      split_ifs with hk
      · simp [hk]
      · rw [List.countP_eq_zero]
        intro y _
        simpa using fun h => hk h.symm
    rw [placed_concat, List.countP_append, ih, hlast]
    rcases Nat.lt_trichotomy k entries.length with hk | rfl | hk
    · rw [List.getElem?_append_left hk, if_neg hk.ne, Nat.add_zero]
    · simp
    · rw [List.getElem?_eq_none hk.le, List.getElem?_eq_none (by simpa using hk), if_neg hk.ne',
        Nat.add_zero]

end Placed

theorem getElem?_takeWhile {α : Type} {p : α → Bool} {l : List α} {n : Nat} {x : α} :
    (l.takeWhile p)[n]? = some x ↔
      l[n]? = some x ∧ ∀ k ≤ n, ∀ y, l[k]? = some y → p y = true := by
  induction l generalizing n with
  | nil => simp
  | cons y l ih =>
    rw [List.takeWhile_cons]
    cases hy : p y with
    | false =>
      refine ⟨by simp, fun h => ?_⟩
      have := h.2 0 (Nat.zero_le n) y rfl
      rw [hy] at this
      cases this
    | true =>
      cases n with
      | zero => simp [hy]
      | succ n =>
        simp only [if_true, List.getElem?_cons_succ, ih]
        refine and_congr_right fun _ => ⟨fun h k hk z hz => ?_, fun h k hk z hz => ?_⟩
        · cases k with
          | zero => cases hz; exact hy
          | succ k => exact h k (by omega) z hz
        · exact h (k + 1) (by omega) z hz

namespace UserAction

variable {a : UserAction}

theorem getElem?_pagesReached {k : Nat} {page : Page} :
    a.pagesReached[k]? = some page ↔ a.pages[k]? = some page ∧
      ∀ j ≤ k, ∀ page' : Page, a.pages[j]? = some page' → page'.calls?.isSome = true :=
  getElem?_takeWhile

/-- A walk along pages that can be held, up to its end or a page that cannot, has reached them
    all. -/
theorem length_pagesReached {n : Nat} (hle : n ≤ a.pages.length)
    (hheld : ∀ k < n, ∀ page : Page, a.pages[k]? = some page → page.calls?.isSome = true)
    (hend : ∀ page, a.pages[n]? = some page → page.calls? = none) : a.pagesReached.length = n := by
  apply le_antisymm
  · rw [← List.getElem?_eq_none_iff, Option.eq_none_iff_forall_ne_some]
    intro page hpage
    have hreached := getElem?_pagesReached.mp hpage
    have hsome := hreached.2 n le_rfl page hreached.1
    rw [hend page hreached.1] at hsome
    cases hsome
  · by_contra hlt
    rw [Nat.not_le] at hlt
    have hat := List.getElem?_eq_getElem (hlt.trans_le hle)
    have hreached := getElem?_pagesReached.mpr ⟨hat, fun j hj => hheld j (by omega)⟩
    exact absurd (List.getElem?_eq_some_iff.mp hreached).1 (lt_irrefl _)

theorem pagesReached_of_fits (h : a.fits = true) : a.pagesReached = a.pages := by
  rw [pagesReached, List.takeWhile_eq_self_iff]
  exact List.all_eq_true.mp h

theorem mem_callsInTurn {k i : Nat} :
    (k, i) ∈ a.callsInTurn ↔ ∃ page, a.pagesReached[k]? = some page ∧ i < page.size := by
  simp only [callsInTurn, mem_placed, List.mem_range]

theorem nodup_callsInTurn (a : UserAction) : a.callsInTurn.Nodup :=
  nodup_placed fun _ _ => List.nodup_range

theorem length_callsInTurn (a : UserAction) :
    a.callsInTurn.length = (a.pagesReached.map Page.size).sum := by
  simp only [callsInTurn, length_placed, List.length_range]

end UserAction

namespace Mix

variable {m : Mix}

theorem mem_callsInTurn {user page position : Nat} :
    (user, page, position) ∈ m.callsInTurn ↔
      ∃ a, m.roster[user]? = some a ∧ (page, position) ∈ a.callsInTurn := mem_placed

theorem nodup_callsInTurn (m : Mix) : m.callsInTurn.Nodup :=
  nodup_placed fun a _ => a.nodup_callsInTurn

theorem length_callsInTurn (m : Mix) :
    m.callsInTurn.length = (m.roster.map fun a => a.callsInTurn.length).sum :=
  length_placed _ _

theorem countP_callsInTurn {user : Nat} {a : UserAction} (ha : m.roster[user]? = some a) :
    m.callsInTurn.countP (·.1 == user) = a.callsInTurn.length := by
  rw [callsInTurn, countP_placed, ha]
  rfl

end Mix

end LoadBench
