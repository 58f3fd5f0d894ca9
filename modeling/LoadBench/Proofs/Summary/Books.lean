import Mathlib.Tactic
import LoadBench.Proofs.Binary64.Counts
import LoadBench.Proofs.Measure.Errors
import LoadBench.Proofs.Summary.LoadReport

/-!
# The books of a load run

The calls of a run are counted at three levels, each on its own: by the visits of pages, by the
walks of the users, and by the report. The levels agree, also where visits or users were lost.

Results:
* `UserWalk.Made.totalRequests_eq`: a walk counts the results of its visits.
* `ComplexityProfile.Accounts.of_ofResults`: every result is counted under one complexity, or under
  none at all.
* `LoadReport.balances_ofWalks`: the books of a report balance.
-/

namespace LoadBench

/-! ## Visits and walks as runs make them -/

/-- A visit of a page whose calls were joined, or one that was lost. -/
inductive PageVisit.Made : PageVisit → Prop
  | completed (pageName : String) (totalTimeMs : Float) (results : List CallResult) :
      Made (.completed pageName totalTimeMs results)
  | lost (pageName : String) (totalTimeMs : Float) : Made (.lost pageName totalTimeMs)

/-- A walk over such visits that came to its end, or a user who was lost. -/
inductive UserWalk.Made : UserWalk → Prop
  | ofVisits (userIndex : Nat) (actionName : String) {visits : List PageVisit}
      (h : ∀ v ∈ visits, v.Made) : Made (.ofVisits userIndex actionName visits)
  | lost (userIndex : Nat) (actionName : String) : Made (.lost userIndex actionName)

theorem PageVisit.Made.totalRequests_eq {v : PageVisit} (h : v.Made) :
    v.totalRequests = v.results.length := by
  cases h with
  | completed => rfl
  | lost => rfl

namespace UserWalk

/-- The number of results of a walk is what its visits count. -/
theorem length_results {w : UserWalk} (h : ∀ v ∈ w.visits, v.Made) :
    w.results.length = (w.visits.map (·.totalRequests)).sum := by
  have hvisits : w.visits.map (fun v => v.results.length) = w.visits.map (·.totalRequests) := by
    apply List.map_congr_left
    intro v hv
    exact (h v hv).totalRequests_eq.symm
  rw [results, List.length_flatMap, hvisits]

theorem Made.visits_made {w : UserWalk} (h : w.Made) : ∀ v ∈ w.visits, v.Made := by
  cases h with
  | ofVisits _ _ hvisits => exact hvisits
  | lost =>
    intro v hv
    exact absurd hv List.not_mem_nil

theorem Made.totalRequests_eq {w : UserWalk} (h : w.Made) :
    w.totalRequests = w.results.length := by
  cases h with
  | ofVisits => rfl
  | lost => rfl

theorem Made.totalRequests_eq_sum {w : UserWalk} (h : w.Made) :
    w.totalRequests = (w.visits.map (·.totalRequests)).sum := by
  rw [h.totalRequests_eq, length_results h.visits_made]

end UserWalk

/-! ## Complexities -/

namespace ByComplexity

@[simp] theorem get?_tabulate (f : Complexity → Option Float) (c : Complexity) :
    (tabulate f).get? c = f c := by
  cases c <;> rfl

/-- The complexities that a function gives a figure for are those with an entry. -/
theorem map_fst_entries (f : Complexity → Option Float) :
    (tabulate f).entries.map Prod.fst = Complexity.all.filter fun c => (f c).isSome := by
  unfold entries
  simp only [get?_tabulate]
  induction Complexity.all with
  | nil => rfl
  | cons c rest ih => cases h : f c <;> simp [h, ih]

end ByComplexity

/-- The number of results that are marked with a complexity, or with none. -/
def taggedCount (results : List CallResult) (tag : Option Complexity) : Nat :=
  results.countP (·.complexity == tag)

/-- Every result carries one of four marks. -/
theorem taggedCount_add (results : List CallResult) :
    taggedCount results (some .low) + taggedCount results (some .medium) +
      taggedCount results (some .high) + taggedCount results none = results.length := by
  unfold taggedCount
  induction results with
  | nil => rfl
  | cons r rest ih =>
    simp only [List.countP_cons, List.length_cons]
    -- the first result adds to one of the four counts
    have hone : (if r.complexity == some .low then 1 else 0) +
        (if r.complexity == some .medium then 1 else 0) +
        (if r.complexity == some .high then 1 else 0) +
        (if r.complexity == none then 1 else 0) = 1 := by
      rcases r.complexity with _ | c
      · rfl
      · cases c <;> rfl
    omega

namespace ComplexityProfile

theorem length_timesOf (results : List CallResult) (c : Complexity) :
    (timesOf results c).length = taggedCount results (some c) := by
  unfold timesOf taggedCount
  rw [List.length_map, List.countP_eq_length_filter]

/-- What a profile says about the results it is drawn from: each is counted under one complexity or
    under none, all three complexities have a share, and those that occur have an average. -/
structure Accounts (p : ComplexityProfile) (results : List CallResult) : Prop where
  all_tagged : taggedCount results (some .low) + taggedCount results (some .medium) +
    taggedCount results (some .high) + taggedCount results none = results.length
  shares : p.distribution.entries.map Prod.fst = Complexity.all
  share : ∀ c, p.distribution.get? c =
    some (Statistics.countRatio (taggedCount results (some c)) results.length)
  averages : p.averageTimes.entries.map Prod.fst =
    Complexity.all.filter fun c => 0 < taggedCount results (some c)
  average : ∀ c, 0 < taggedCount results (some c) →
    p.averageTimes.get? c = some (Statistics.average (timesOf results c))

theorem Accounts.of_ofResults (results : List CallResult) :
    (ofResults results).Accounts results where
  all_tagged := taggedCount_add results
  shares := by
    unfold ofResults
    rw [ByComplexity.map_fst_entries]
    rfl
  share c := by
    unfold ofResults
    rw [ByComplexity.get?_tabulate, length_timesOf]
  averages := by
    unfold ofResults
    rw [ByComplexity.map_fst_entries]
    apply List.filter_congr
    intro c _
    rw [← length_timesOf]
    cases timesOf results c with
    | nil => rfl
    | cons => simp
  average c hc := by
    unfold ofResults
    rw [← length_timesOf] at hc
    rw [ByComplexity.get?_tabulate]
    have hne : (timesOf results c).isEmpty = false := by
      rw [List.isEmpty_eq_false_iff]
      exact List.ne_nil_of_length_pos hc
    simp only [hne, Bool.false_eq_true, if_false]

end ComplexityProfile

/-! ## Reports -/

namespace LoadReport

/-- The walks of a report are the given ones in the order of their users: none is lost, none is
    changed, and those of equal indices stay in the order in which they are given. -/
structure KeepsWalks (r : LoadReport) (walks : List UserWalk) : Prop where
  perm : r.walks.Perm walks
  ascending : r.walks.Pairwise fun a b => a.userIndex ≤ b.userIndex
  stable : ∀ i, r.walks.filter (·.userIndex == i) = walks.filter (·.userIndex == i)
  concurrentUsers : r.concurrentUsers = walks.length
  failedUsers : r.failedUsers = walks.countP (·.failed)

/-- The number of calls is the same at every level: of the run, of its users, of their visits, of
    the results that are there, and of the latencies that are drawn from them. -/
structure CountsCalls (r : LoadReport) (walks : List UserWalk) : Prop where
  ofVisit : ∀ w ∈ walks, ∀ v ∈ w.visits, v.totalRequests = v.results.length
  ofWalk : ∀ w ∈ walks, w.totalRequests = (w.visits.map (·.totalRequests)).sum
  overWalks : r.totalRequests = (walks.map (·.totalRequests)).sum
  overVisits : r.totalRequests = ((walks.flatMap (·.visits)).map (·.totalRequests)).sum
  results : r.totalRequests = r.results.length
  latency : ∃ samples, samples.length = r.totalRequests ∧
    samples = r.results.map (·.elapsedMs) ∧ r.latency = .ofSamples samples

/-- Failures and successes add up to the number of calls, in the summary of the failures and in the
    two rates. The rate of the failures is a difference of numbers, which is that of the counts
    where these are small enough to be numbers. -/
structure CountsFailures (r : LoadReport) : Prop where
  errors_none : r.errors = none ↔ ∀ result ∈ r.results, result.succeeded = true
  errors_some : ∀ e, r.errors = some e → e.Tallies r.results
  successRate : r.successRate = Statistics.countRatio (successCount r.results) r.totalRequests
  failureRate : r.failureRate = Statistics.guardedRatio
    (Binary64.ofCount r.totalRequests - Binary64.ofCount (successCount r.results))
    (Binary64.ofCount r.totalRequests)
  failureRate_small : r.totalRequests < 2 ^ 53 → r.failureRate =
    Statistics.countRatio (r.totalRequests - successCount r.results) r.totalRequests

/-- The books of a report on some walks balance. -/
structure Balances (r : LoadReport) (walks : List UserWalk) : Prop where
  keepsWalks : r.KeepsWalks walks
  countsCalls : r.CountsCalls walks
  countsFailures : r.CountsFailures
  complexity : r.complexity.Accounts r.results

theorem perm_inOrder (walks : List UserWalk) : (inOrder walks).Perm walks :=
  List.mergeSort_perm _ _

/-- Walks of one index stay in the order in which they are given. -/
theorem filter_inOrder (walks : List UserWalk) (i : Nat) :
    (inOrder walks).filter (·.userIndex == i) = walks.filter (·.userIndex == i) := by
  have hequal : (walks.filter (·.userIndex == i)).Pairwise
      fun a b => decide (a.userIndex ≤ b.userIndex) = true := by
    apply List.pairwise_of_forall_mem_list
    intro a ha b hb
    have ha' : a.userIndex = i := by simpa using (List.mem_filter.mp ha).2
    have hb' : b.userIndex = i := by simpa using (List.mem_filter.mp hb).2
    simp only [ha', hb', le_refl, decide_true]
  -- walks that are in order already keep their order when others are sorted in between
  have hkept : (walks.filter (·.userIndex == i)).Sublist (inOrder walks) := by
    apply List.sublist_mergeSort _ _ hequal List.filter_sublist
    · intro a b c
      simpa using le_trans
    · intro a b
      simpa using le_total a.userIndex b.userIndex
  have hsublist := hkept.filter (·.userIndex == i)
  rw [List.filter_filter] at hsublist
  simp only [Bool.and_self] at hsublist
  have hlength := ((perm_inOrder walks).filter (·.userIndex == i)).length_eq
  exact (hsublist.eq_of_length hlength.symm).symm

theorem keepsWalks_ofWalks (m : Mix) (walks : List UserWalk) (totalTimeMs : Float) :
    (ofWalks m walks totalTimeMs).KeepsWalks walks where
  perm := perm_inOrder walks
  ascending := inOrder_pairwise walks
  stable := filter_inOrder walks
  concurrentUsers := (perm_inOrder walks).length_eq
  failedUsers := (perm_inOrder walks).countP_eq _

theorem countsCalls_ofWalks {walks : List UserWalk} (h : ∀ w ∈ walks, w.Made) (m : Mix)
    (totalTimeMs : Float) : (ofWalks m walks totalTimeMs).CountsCalls walks := by
  have hsum : (ofWalks m walks totalTimeMs).totalRequests = (walks.map (·.totalRequests)).sum := by
    have hlength : ((inOrder walks).flatMap UserWalk.results).length =
        (walks.flatMap UserWalk.results).length :=
      ((perm_inOrder walks).flatMap_right _).length_eq
    have hcounts : walks.map (fun w => w.results.length) = walks.map (·.totalRequests) := by
      apply List.map_congr_left
      intro w hw
      exact (h w hw).totalRequests_eq.symm
    show ((inOrder walks).flatMap UserWalk.results).length = _
    rw [hlength, List.length_flatMap, hcounts]
  have hvisits : ((walks.flatMap (·.visits)).map (·.totalRequests)).sum =
      (walks.map (·.totalRequests)).sum := by
    have hcounts : walks.map (fun w => (w.visits.map (·.totalRequests)).sum) =
        walks.map (·.totalRequests) := by
      apply List.map_congr_left
      intro w hw
      exact (h w hw).totalRequests_eq_sum.symm
    rw [List.map_flatMap, List.flatMap_def, List.sum_flatten, List.map_map]
    exact congrArg List.sum hcounts
  exact {
    ofVisit := fun w hw v hv => ((h w hw).visits_made v hv).totalRequests_eq
    ofWalk := fun w hw => (h w hw).totalRequests_eq_sum
    overWalks := hsum
    overVisits := hsum.trans hvisits.symm
    results := rfl
    latency := ⟨_, List.length_map _, rfl, rfl⟩ }

theorem countsFailures_ofWalks (m : Mix) (walks : List UserWalk) (totalTimeMs : Float) :
    (ofWalks m walks totalTimeMs).CountsFailures where
  errors_none := ErrorSummary.ofResults_eq_none_iff
  errors_some := fun _ => ErrorSummary.Tallies.of_ofResults
  successRate := rfl
  failureRate := rfl
  failureRate_small hsmall := by
    show Statistics.guardedRatio (Binary64.ofCount _ - Binary64.ofCount _) _ = _
    rw [Binary64.ofCount_sub (successCount_le_length _) hsmall]
    rfl

/-- The books of a report balance, whatever was lost on the way. -/
theorem balances_ofWalks {walks : List UserWalk} (h : ∀ w ∈ walks, w.Made) (m : Mix)
    (totalTimeMs : Float) : (ofWalks m walks totalTimeMs).Balances walks where
  keepsWalks := keepsWalks_ofWalks m walks totalTimeMs
  countsCalls := countsCalls_ofWalks h m totalTimeMs
  countsFailures := countsFailures_ofWalks m walks totalTimeMs
  complexity := ComplexityProfile.Accounts.of_ofResults _

/-- What came of a call on the health of the service. -/
def healthResult (complexity : Option Complexity) (outcome : Outcome) : CallResult :=
  { CallResult.ofCall (.plain ⟨"health", "Health", []⟩) 2.0 .epoch outcome with
    complexity := complexity }

/-- A user who was lost, and one who lost a page after another on which a call failed. -/
def lostAndFailing : List UserWalk :=
  [.lost 1 "browse", .ofVisits 0 "browse"
    [.completed "home" 3.0 [healthResult (some .low) (.success .null),
      healthResult none (.failure .timeout "too late")], .lost "cart" 1.0]]

theorem balances_lostAndFailing :
    (∀ w ∈ lostAndFailing, w.Made) ∧
      (ofWalks ⟨"browsing", "", 2, []⟩ lostAndFailing 4.0).Balances lostAndFailing ∧
      (ofWalks ⟨"browsing", "", 2, []⟩ lostAndFailing 4.0).totalRequests = 2 ∧
      (ofWalks ⟨"browsing", "", 2, []⟩ lostAndFailing 4.0).errors.map (·.count) = some 1 := by
  have hmade : ∀ w ∈ lostAndFailing, w.Made := by
    intro w hw
    simp only [lostAndFailing, List.mem_cons, List.not_mem_nil, or_false] at hw
    rcases hw with rfl | rfl
    · exact .lost 1 "browse"
    · apply UserWalk.Made.ofVisits
      intro v hv
      simp only [List.mem_cons, List.not_mem_nil, or_false] at hv
      rcases hv with rfl | rfl
      · exact .completed ..
      · exact .lost ..
  have hsorted : inOrder lostAndFailing = lostAndFailing.reverse := by
    rw [inOrder_perm (List.reverse_perm lostAndFailing).symm (by decide)]
    exact inOrder_of_ascending (by decide)
  refine ⟨hmade, balances_ofWalks hmade _ 4.0, ?_, ?_⟩
  · unfold ofWalks
    rw [hsorted]
    rfl
  · unfold ofWalks
    rw [hsorted]
    rfl

end LoadReport

end LoadBench
