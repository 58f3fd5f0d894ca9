import Mathlib.Tactic
import LoadBench.Summary.LoadReport

/-!
# Walks in the order of their users

A report brings the walks into the order of their users' indices. Where the indices are distinct,
that order does not depend on the one in which the walks are given.

Results:
* `LoadReport.inOrder_of_ascending`: walks in ascending order stay as they are.
* `LoadReport.inOrder_perm`: walks of distinct users have one order.
* `LoadReport.ofWalks_perm`: reports on them are the same.
-/

namespace LoadBench

namespace LoadReport

theorem inOrder_pairwise (walks : List UserWalk) :
    (inOrder walks).Pairwise fun a b => a.userIndex ≤ b.userIndex := by
  have hsorted : (inOrder walks).Pairwise
      fun a b => decide (a.userIndex ≤ b.userIndex) = true := by
    apply List.pairwise_mergeSort
    · intro a b c; simpa using le_trans
    · intro a b; simpa using le_total a.userIndex b.userIndex
  simpa using hsorted

theorem inOrder_of_ascending {walks : List UserWalk}
    (h : walks.Pairwise fun a b => a.userIndex ≤ b.userIndex) : inOrder walks = walks :=
  List.mergeSort_of_pairwise (by simpa using h)

/-- Walks of distinct users come into the same order however they are given. -/
theorem inOrder_perm {walks others : List UserWalk} (h : walks.Perm others)
    (hdistinct : (walks.map (·.userIndex)).Nodup) : inOrder walks = inOrder others := by
  have hperm : (inOrder walks).Perm (inOrder others) :=
    (List.mergeSort_perm _ _).trans (h.trans (List.mergeSort_perm _ _).symm)
  refine hperm.eq_of_pairwise ?_ (inOrder_pairwise walks) (inOrder_pairwise others)
  intro a b ha hb hab hba
  have ha' : a ∈ walks := (List.mergeSort_perm _ _).mem_iff.mp ha
  have hb' : b ∈ walks := h.mem_iff.mpr ((List.mergeSort_perm _ _).mem_iff.mp hb)
  exact List.inj_on_of_nodup_map hdistinct ha' hb' (le_antisymm hab hba)

/-- A report on walks of distinct users does not depend on the order in which they are given. -/
theorem ofWalks_perm {walks others : List UserWalk} (h : walks.Perm others)
    (hdistinct : (walks.map (·.userIndex)).Nodup) (m : Mix) (totalTimeMs : Float) :
    ofWalks m walks totalTimeMs = ofWalks m others totalTimeMs := by
  simp only [ofWalks, inOrder_perm h hdistinct]

end LoadReport

end LoadBench
