import Mathlib.Tactic
import LoadBench.Proofs.Run.Report

/-!
# Users of whom there is no walk

Before the report is drawn up, every user of the roster of whom there is no walk is put on record as
lost. The record is complete then: it has one walk for every place of the roster, and those that
were there are unchanged. A lost user has visited no page, so every figure that is drawn from visits
and calls is that of the walks that were there.

Results:
* `LoadRun.fill_concat`, `LoadRun.fill_eq_foldl`: the users are put on record one after the other,
  each unless the record grown so far has a walk of that user.
* `LoadReport.map_userIndex_inOrder_fill`: the completed record lists the roster from its first to
  its last place.
* `LoadReport.flatMap_visits_inOrder_fill`: the visits on record are those of the walks.
* `missingUsers_recorded`: what the report on a completed record says, and what it leaves as it is.
-/

namespace LoadBench

namespace LoadRun

/-! ## One user after the other -/

/-- Puts the user at a place of the roster on record as lost, unless there is a walk of that
    user. -/
def recordLost (walks : List UserWalk) (index : Nat) (action : String) : List UserWalk :=
  if walks.any (·.userIndex == index) then walks else walks ++ [.lost index action]

/-- One more user at the end of the roster is put on record behind all others. -/
theorem fill_concat (roster : List String) (action : String) (walks : List UserWalk) :
    fill (roster ++ [action]) walks = recordLost (fill roster walks) roster.length action := by
  -- the users put on record so far have other places than the one at the end
  have hfresh : (fill roster walks).any (·.userIndex == roster.length) =
      walks.any (·.userIndex == roster.length) := by
    rw [fill, List.any_append, Bool.or_eq_left_iff_imp]
    intro h
    obtain ⟨w, hw, hindex⟩ := List.any_eq_true.mp h
    obtain ⟨i, hi, rfl⟩ := List.mem_mapIdx.mp (List.mem_filter.mp hw).1
    exact absurd (beq_iff_eq.mp hindex) hi.ne
  rw [recordLost, hfresh, fill, fill, List.mapIdx_concat, List.filter_append, ← List.append_assoc]
  cases hany : walks.any (·.userIndex == roster.length) with
  | true => simp [UserWalk.lost, hany]
  | false => simp [UserWalk.lost, hany]

/-- The whole roster is put on record by one search for every place. -/
theorem fill_eq_foldl (roster : List String) (walks : List UserWalk) :
    fill roster walks =
      roster.zipIdx.foldl (fun walks entry => recordLost walks entry.2 entry.1) walks := by
  induction roster using List.reverseRecOn with
  | nil => simp [fill]
  | append_singleton roster action ih =>
    rw [fill_concat, ih, List.zipIdx_append, List.foldl_append]
    simp

/-! ## The places without a walk -/

/-- The places of a roster of whose users there is no walk. -/
def missing (roster : List String) (walks : List UserWalk) : List Nat :=
  (List.range roster.length).filter fun index => !walks.any (·.userIndex == index)

theorem mem_missing {roster : List String} {walks : List UserWalk} {index : Nat} :
    index ∈ missing roster walks ↔ index < roster.length ∧ ∀ w ∈ walks, w.userIndex ≠ index := by
  simp [missing]

variable {roster : List String} {walks : List UserWalk}

theorem mem_map_userIndex_fill (hroster : ∀ w ∈ walks, w.userIndex < roster.length) {index : Nat} :
    index ∈ (fill roster walks).map (·.userIndex) ↔ index < roster.length := by
  rw [List.mem_map]
  constructor
  · rintro ⟨w, hw, rfl⟩
    rcases mem_fill.mp hw with hw | ⟨i, name, hname, -, rfl⟩
    · exact hroster w hw
    · exact (List.getElem?_eq_some_iff.mp hname).1
  · intro hindex
    by_cases hwalk : ∃ w ∈ walks, w.userIndex = index
    · obtain ⟨w, hw, rfl⟩ := hwalk
      exact ⟨w, mem_fill.mpr (.inl hw), rfl⟩
    · push Not at hwalk
      exact ⟨_, mem_fill.mpr (.inr ⟨index, _, List.getElem?_eq_getElem hindex, hwalk, rfl⟩), rfl⟩

/-- A completed record has one walk for every place. -/
theorem fill_perm_range (hdistinct : (walks.map (·.userIndex)).Nodup)
    (hroster : ∀ w ∈ walks, w.userIndex < roster.length) :
    ((fill roster walks).map (·.userIndex)).Perm (List.range roster.length) := by
  rw [List.perm_ext_iff_of_nodup (fill_distinct roster hdistinct) List.nodup_range]
  intro index
  rw [mem_map_userIndex_fill hroster, List.mem_range]

/-- The walks that were there are those of the completed record whose places had one. -/
theorem filter_fill (roster : List String) (walks : List UserWalk) :
    (fill roster walks).filter (fun w => walks.any (·.userIndex == w.userIndex)) = walks := by
  have hthere : ∀ w ∈ walks, walks.any (·.userIndex == w.userIndex) = true :=
    fun w hw => List.any_eq_true.mpr ⟨w, hw, beq_self_eq_true _⟩
  rw [fill, List.filter_append, List.filter_filter, List.filter_eq_self.mpr hthere]
  simp

/-- The walks that are put on record are those of the missing places. -/
theorem map_userIndex_filter_lost (roster : List String) (walks : List UserWalk) :
    ((roster.mapIdx fun index action => UserWalk.lost index action).filter
      fun lost => !walks.any (·.userIndex == lost.userIndex)).map (·.userIndex) =
        missing roster walks := by
  rw [missing, ← map_userIndex_lost, List.filter_map]
  rfl

theorem length_fill (roster : List String) (walks : List UserWalk) :
    (fill roster walks).length = walks.length + (missing roster walks).length := by
  rw [fill, List.length_append, ← map_userIndex_filter_lost, List.length_map]

/-- Everyone who is put on record is lost. -/
theorem countP_failed_fill (roster : List String) (walks : List UserWalk) :
    (fill roster walks).countP (·.failed) =
      walks.countP (·.failed) + (missing roster walks).length := by
  have hall : ∀ w ∈ (roster.mapIdx fun index action => UserWalk.lost index action).filter
      (fun lost => !walks.any (·.userIndex == lost.userIndex)), w.failed = true := by
    intro w hw
    obtain ⟨i, hi, rfl⟩ := List.mem_mapIdx.mp (List.mem_filter.mp hw).1
    rfl
  rw [fill, List.countP_append, List.countP_eq_length.mpr hall, ← map_userIndex_filter_lost,
    List.length_map]

end LoadRun

namespace LoadReport

open LoadRun (fill missing)

variable {roster : List String} {walks : List UserWalk}

/-! ## The completed record in order -/

/-- Of distinct users, some come into the order that they have among all. -/
theorem filter_inOrder_eq (hdistinct : (walks.map (·.userIndex)).Nodup) (p : UserWalk → Bool) :
    (inOrder walks).filter p = inOrder (walks.filter p) := by
  have hperm : ((inOrder walks).filter p).Perm (walks.filter p) :=
    (List.mergeSort_perm _ _).filter p
  have hkept : (((inOrder walks).filter p).map (·.userIndex)).Nodup := by
    rw [(hperm.map _).nodup_iff]
    exact (List.filter_sublist.map _).nodup hdistinct
  rw [← inOrder_perm hperm hkept, inOrder_of_ascending ((inOrder_pairwise walks).filter p)]

/-- A completed record lists the roster from its first to its last place. -/
theorem map_userIndex_inOrder_fill (hdistinct : (walks.map (·.userIndex)).Nodup)
    (hroster : ∀ w ∈ walks, w.userIndex < roster.length) :
    (inOrder (fill roster walks)).map (·.userIndex) = List.range roster.length := by
  have hperm : ((inOrder (fill roster walks)).map (·.userIndex)).Perm (List.range roster.length) :=
    ((List.mergeSort_perm _ _).map _).trans (LoadRun.fill_perm_range hdistinct hroster)
  refine hperm.eq_of_pairwise (fun a b _ _ hab hba => le_antisymm hab hba) ?_ List.pairwise_le_range
  exact List.pairwise_map.mpr (inOrder_pairwise _)

/-- Everyone on a completed record stands at the place of the roster. -/
theorem getElem?_inOrder_fill (hdistinct : (walks.map (·.userIndex)).Nodup)
    (hroster : ∀ w ∈ walks, w.userIndex < roster.length) {w : UserWalk}
    (hw : w ∈ fill roster walks) : (inOrder (fill roster walks))[w.userIndex]? = some w := by
  have hmem : w ∈ inOrder (fill roster walks) := (List.mergeSort_perm _ _).mem_iff.mpr hw
  obtain ⟨place, hplace⟩ := List.mem_iff_getElem?.mp hmem
  have hindex : (List.range roster.length)[place]? = some w.userIndex := by
    rw [← map_userIndex_inOrder_fill hdistinct hroster, List.getElem?_map, hplace]
    rfl
  obtain ⟨hlt, hrange⟩ := List.getElem?_eq_some_iff.mp hindex
  rw [List.getElem_range] at hrange
  rw [← hrange, hplace]

/-! ## Lost users have visited nothing -/

theorem flatMap_filter_of_eq_nil {α β : Type} {p : α → Bool} {f : α → List β} {xs : List α}
    (h : ∀ x ∈ xs, p x = false → f x = []) : (xs.filter p).flatMap f = xs.flatMap f := by
  induction xs with
  | nil => rfl
  | cons x xs ih =>
    have hrest := ih fun y hy => h y (List.mem_cons_of_mem x hy)
    cases hp : p x with
    | true => rw [List.filter_cons_of_pos hp, List.flatMap_cons, List.flatMap_cons, hrest]
    | false =>
      rw [List.filter_cons_of_neg (by simp [hp]), List.flatMap_cons, hrest,
        h x List.mem_cons_self hp, List.nil_append]

/-- The visits on a completed record are those of the walks that were there, in their order. -/
theorem flatMap_visits_inOrder_fill (hdistinct : (walks.map (·.userIndex)).Nodup) :
    (inOrder (fill roster walks)).flatMap (·.visits) = (inOrder walks).flatMap (·.visits) := by
  have hnothing : ∀ w ∈ inOrder (fill roster walks),
      walks.any (·.userIndex == w.userIndex) = false → w.visits = [] := by
    intro w hw hfresh
    rcases LoadRun.mem_fill.mp ((List.mergeSort_perm _ _).mem_iff.mp hw) with
      hw | ⟨i, name, -, -, rfl⟩
    · exact absurd (beq_self_eq_true w.userIndex) (List.any_eq_false.mp hfresh w hw)
    · rfl
  rw [← flatMap_filter_of_eq_nil hnothing,
    filter_inOrder_eq (LoadRun.fill_distinct roster hdistinct), LoadRun.filter_fill]

theorem flatMap_results_inOrder_fill (hdistinct : (walks.map (·.userIndex)).Nodup) :
    (inOrder (fill roster walks)).flatMap UserWalk.results =
      (inOrder walks).flatMap UserWalk.results := by
  have hvisits := @flatMap_visits_inOrder_fill roster walks hdistinct
  have hresults : ∀ walks : List UserWalk, walks.flatMap UserWalk.results =
      (walks.flatMap (·.visits)).flatMap (·.results) := fun walks => List.flatMap_assoc.symm
  rw [hresults, hvisits, ← hresults]

/-! ## The report -/

/-- A report on some walks of a roster, beside the one on those walks alone: everyone of the roster
    is on record, and nothing but the number of users and of the lost ones has changed. -/
structure Completes (roster : List String) (walks : List UserWalk)
    (report alone : LoadReport) : Prop where
  /-- Every place of the roster is listed once, in order. -/
  places : report.walks.map (·.userIndex) = List.range roster.length
  /-- Who was joined is on record unchanged. -/
  joined : ∀ w ∈ walks, report.walks[w.userIndex]? = some w
  /-- Who is missing is on record as lost, with the action of the roster and without pages. -/
  lost : ∀ index ∈ missing roster walks, ∃ action, roster[index]? = some action ∧
    report.walks[index]? = some (.lost index action)
  failedUsers : report.failedUsers = alone.failedUsers + (missing roster walks).length
  /-- The figures on pages and calls are those of the walks alone, every one of them. -/
  figures : report =
    { alone with
      concurrentUsers := roster.length
      failedUsers := report.failedUsers
      walks := report.walks }

theorem completes_fill (hdistinct : (walks.map (·.userIndex)).Nodup)
    (hroster : ∀ w ∈ walks, w.userIndex < roster.length) (m : Mix) (totalTimeMs : Float) :
    (ofWalks m (fill roster walks) totalTimeMs).Completes roster walks
      (ofWalks m walks totalTimeMs) where
  places := map_userIndex_inOrder_fill hdistinct hroster
  joined w hw := getElem?_inOrder_fill hdistinct hroster (LoadRun.mem_fill.mpr (.inl hw))
  lost index hindex := by
    obtain ⟨hlt, hfresh⟩ := LoadRun.mem_missing.mp hindex
    have hname := List.getElem?_eq_getElem hlt
    exact ⟨_, hname, getElem?_inOrder_fill hdistinct hroster
      (LoadRun.mem_fill.mpr (.inr ⟨index, _, hname, hfresh, rfl⟩))⟩
  failedUsers := by
    have hcount (walks : List UserWalk) : (ofWalks m walks totalTimeMs).failedUsers =
        walks.countP (·.failed) := (List.mergeSort_perm _ _).countP_eq _
    rw [hcount, hcount, LoadRun.countP_failed_fill]
  figures := by
    have hlength : (inOrder (fill roster walks)).length = roster.length := by
      simpa using congrArg List.length (map_userIndex_inOrder_fill hdistinct hroster)
    simp only [ofWalks, flatMap_visits_inOrder_fill hdistinct,
      flatMap_results_inOrder_fill hdistinct, hlength]

end LoadReport

open LoadRun in
/-- Whatever users of a roster were joined, in whatever order: those who are missing are put on
    record by one search after the other, and the report then has everyone of the roster at their
    place, the joined ones unchanged and the missing ones as lost, with all figures on pages and
    calls as they are without the missing ones. -/
theorem missingUsers_recorded (m : Mix) (roster : List String) (walks : List UserWalk)
    (totalTimeMs : Float) (hdistinct : (walks.map (·.userIndex)).Nodup)
    (hroster : ∀ w ∈ walks, w.userIndex < roster.length) :
    fill roster walks =
      roster.zipIdx.foldl (fun walks entry => recordLost walks entry.2 entry.1) walks ∧
    (LoadReport.ofWalks m (fill roster walks) totalTimeMs).Completes roster walks
      (.ofWalks m walks totalTimeMs) ∧
    (missing roster walks).length + walks.length = roster.length := by
  have hlength := (fill_perm_range hdistinct hroster).length_eq
  rw [List.length_map, length_fill, List.length_range, Nat.add_comm] at hlength
  exact ⟨fill_eq_foldl roster walks, LoadReport.completes_fill hdistinct hroster m totalTimeMs,
    hlength⟩

namespace LoadReport

/-- A user who came to the end of a page of one call, and one whose only page was lost. -/
def homeSeen : UserWalk :=
  .ofVisits 2 "browse" [.completed "home" 3.0
    [.ofCall (.plain ⟨"health", "Health", []⟩) 2.0 .epoch (.success .null)]]

@[inherit_doc homeSeen]
def homeLost : UserWalk := .ofVisits 0 "browse" [.lost "home" 5.0]

end LoadReport

open LoadRun LoadReport in
/-- The user of the second place is missing, and the others were joined in reverse order. -/
theorem missingUsers_recorded_secondPlace :
    ([homeSeen, homeLost].map (·.userIndex)).Nodup ∧
    (∀ w ∈ [homeSeen, homeLost], w.userIndex < ["browse", "search", "browse"].length) ∧
    missing ["browse", "search", "browse"] [homeSeen, homeLost] = [1] ∧
    (ofWalks ⟨"mixed", "", 3, []⟩ (fill ["browse", "search", "browse"] [homeSeen, homeLost])
      8.0).Completes ["browse", "search", "browse"] [homeSeen, homeLost]
        (.ofWalks ⟨"mixed", "", 3, []⟩ [homeSeen, homeLost] 8.0) := by
  have hdistinct : ([homeSeen, homeLost].map (·.userIndex)).Nodup := by decide
  have hroster : ∀ w ∈ [homeSeen, homeLost],
      w.userIndex < ["browse", "search", "browse"].length := by
    simp [homeSeen, homeLost, UserWalk.ofVisits]
  exact ⟨hdistinct, hroster, by decide,
    (missingUsers_recorded ⟨"mixed", "", 3, []⟩ _ _ 8.0 hdistinct hroster).2.1⟩

end LoadBench
