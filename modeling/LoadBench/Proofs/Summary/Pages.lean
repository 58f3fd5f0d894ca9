import Mathlib.Data.String.Basic
import LoadBench.Proofs.Summary.Books

/-!
# The pages of a load run

A report has a timeline for every page that was visited. The timelines grow visit after visit: the
time of a visit goes to the timeline of its page, and a page that is new gets one behind the others.
What holds of the timelines is therefore said of one more visit, and follows for all of them.

Results:
* `PageTimeline.note_of_mem`, `PageTimeline.note_of_not_mem`: all that one more visit changes.
* `PageTimeline.Partitions.note`, `PageTimeline.partitions_foldl`: the timelines keep every visit
  under its page, the pages in the order of their first visit.
* `PageTimeline.ofVisits_eq_foldl`: timelines drawn from all visits at once are the same.
* `LoadReport.timelines_sortVisits`: the timelines of a report, and its average for each page.
-/

namespace LoadBench

namespace PageTimeline

/-! ## One more visit -/

/-- The timeline of a page after one more visit of it. -/
def visited (t : PageTimeline) (v : PageVisit) : PageTimeline :=
  ofTimes t.name (t.times ++ [v.totalTimeMs])

/-- Takes note of a visit in the timeline of its page. A page without one gets one behind the
    others. -/
def note (v : PageVisit) : List PageTimeline → List PageTimeline
  | [] => [ofTimes v.pageName [v.totalTimeMs]]
  | t :: rest => if t.name == v.pageName then t.visited v :: rest else t :: note v rest

variable {timelines : List PageTimeline} {visits : List PageVisit} {v : PageVisit}

/-- A visit of a page that has a timeline makes this one longer and leaves the others alone. -/
theorem note_of_mem (hdistinct : (timelines.map (·.name)).Nodup)
    (hmem : v.pageName ∈ timelines.map (·.name)) :
    note v timelines = timelines.map fun t => if t.name == v.pageName then t.visited v else t := by
  induction timelines with
  | nil => cases hmem
  | cons t rest ih =>
    rw [List.map_cons, List.nodup_cons] at hdistinct
    rw [note, List.map_cons]
    split_ifs with heq
    · have hname : t.name = v.pageName := by simpa using heq
      have hrest : rest.map (fun u => if u.name == v.pageName then u.visited v else u) = rest := by
        rw [List.map_congr_left (g := id), List.map_id]
        intro u hu
        have hne : u.name ≠ v.pageName := by
          intro heq
          exact hdistinct.1 (hname ▸ heq ▸ List.mem_map_of_mem hu)
        simp [hne]
      rw [hrest]
    · have hname : v.pageName ≠ t.name := fun h => heq (by simp [h])
      have hmem' : v.pageName ∈ rest.map (·.name) := (List.mem_cons.mp hmem).resolve_left hname
      rw [ih hdistinct.2 hmem']

/-- A visit of a page that has no timeline adds one at the end. -/
theorem note_of_not_mem (hmem : v.pageName ∉ timelines.map (·.name)) :
    note v timelines = timelines ++ [ofTimes v.pageName [v.totalTimeMs]] := by
  induction timelines with
  | nil => rfl
  | cons t rest ih =>
    rw [List.map_cons, List.mem_cons, not_or] at hmem
    have hname : (t.name == v.pageName) = false := by simpa using Ne.symm hmem.1
    rw [note, hname, ih hmem.2]
    rfl

theorem map_name_note_of_mem (hdistinct : (timelines.map (·.name)).Nodup)
    (hmem : v.pageName ∈ timelines.map (·.name)) :
    (note v timelines).map (·.name) = timelines.map (·.name) := by
  rw [note_of_mem hdistinct hmem, List.map_map]
  apply List.map_congr_left
  intro t _
  show (if t.name == v.pageName then t.visited v else t).name = t.name
  split_ifs <;> rfl

/-- The time of a visit is added to the others, and nothing else is. -/
theorem times_note_perm (v : PageVisit) (timelines : List PageTimeline) :
    ((note v timelines).flatMap (·.times)).Perm
      (timelines.flatMap (·.times) ++ [v.totalTimeMs]) := by
  induction timelines with
  | nil => exact .refl _
  | cons t rest ih =>
    rw [note]
    split_ifs
    · show (t.times ++ [v.totalTimeMs] ++ rest.flatMap (·.times)).Perm _
      rw [List.flatMap_cons, List.append_assoc, List.append_assoc]
      exact List.perm_append_comm.append_left _
    · rw [List.flatMap_cons, List.flatMap_cons, List.append_assoc]
      exact ih.append_left _

/-! ## All visits -/

/-- The place of the first visit of a page. -/
def firstVisit (visits : List PageVisit) (name : String) : Nat :=
  visits.findIdx (·.pageName == name)

theorem firstVisit_lt {name : String} (h : name ∈ visits.map (·.pageName)) :
    firstVisit visits name < visits.length := by
  obtain ⟨w, hw, rfl⟩ := List.mem_map.mp h
  exact List.findIdx_lt_length_of_exists ⟨w, hw, by simp⟩

/-- A later visit does not change which visit of a page is the first. -/
theorem firstVisit_concat {name : String} (h : name ∈ visits.map (·.pageName)) (v : PageVisit) :
    firstVisit (visits ++ [v]) name = firstVisit visits name := by
  have hfirst : visits.findIdx (·.pageName == name) < visits.length := firstVisit_lt h
  unfold firstVisit
  rw [List.findIdx_append, if_pos hfirst]

theorem firstVisit_concat_of_not_mem (h : v.pageName ∉ visits.map (·.pageName)) :
    firstVisit (visits ++ [v]) v.pageName = visits.length := by
  have hnone : ¬visits.findIdx (·.pageName == v.pageName) < visits.length := by
    rw [List.findIdx_lt_length]
    rintro ⟨w, hw, hname⟩
    exact h (List.mem_map.mpr ⟨w, hw, by simpa using hname⟩)
  unfold firstVisit
  rw [List.findIdx_append, if_neg hnone]
  simp

theorem timesOf_concat (visits : List PageVisit) (v : PageVisit) (name : String) :
    timesOf (visits ++ [v]) name =
      timesOf visits name ++ if v.pageName = name then [v.totalTimeMs] else [] := by
  unfold timesOf
  rw [List.filter_append, List.map_append]
  by_cases hname : v.pageName = name <;> simp [hname]

theorem timesOf_eq_nil {name : String} (h : name ∉ visits.map (·.pageName)) :
    timesOf visits name = [] := by
  unfold timesOf
  rw [List.map_eq_nil_iff, List.filter_eq_nil_iff]
  intro w hw hname
  exact h (List.mem_map.mpr ⟨w, hw, by simpa using hname⟩)

/-- The timelines keep some visits apart by their pages: every visit has its time in the timeline of
    its page, in the order of the visits, and the pages come in the order of their first visit. -/
structure Partitions (timelines : List PageTimeline) (visits : List PageVisit) : Prop where
  names : ∀ name, name ∈ timelines.map (·.name) ↔ name ∈ visits.map (·.pageName)
  inOrder : timelines.Pairwise fun t u => firstVisit visits t.name < firstVisit visits u.name
  times : ∀ t ∈ timelines,
    t.times = (visits.filter (·.pageName == t.name)).map (·.totalTimeMs)
  times_ne_nil : ∀ t ∈ timelines, t.times ≠ []
  figures : ∀ t ∈ timelines, t = ofTimes t.name t.times
  allTimes : (timelines.flatMap (·.times)).Perm (visits.map (·.totalTimeMs))

namespace Partitions

theorem nil : Partitions [] [] where
  names _ := Iff.rfl
  inOrder := .nil
  times _ ht := absurd ht List.not_mem_nil
  times_ne_nil _ ht := absurd ht List.not_mem_nil
  figures _ ht := absurd ht List.not_mem_nil
  allTimes := .nil

theorem distinct (h : Partitions timelines visits) : (timelines.map (·.name)).Nodup := by
  rw [List.Nodup, List.pairwise_map]
  refine h.inOrder.imp fun hlt heq => ?_
  rw [heq] at hlt
  exact lt_irrefl _ hlt

theorem mem_visits (h : Partitions timelines visits) {t : PageTimeline} (ht : t ∈ timelines) :
    t.name ∈ visits.map (·.pageName) :=
  (h.names t.name).mp (List.mem_map_of_mem ht)

/-- The pages that were there keep their order when one more visit is made. -/
theorem inOrder_concat (h : Partitions timelines visits) (v : PageVisit) :
    timelines.Pairwise fun t u =>
      firstVisit (visits ++ [v]) t.name < firstVisit (visits ++ [v]) u.name := by
  refine h.inOrder.imp_of_mem fun ht hu hlt => ?_
  rwa [firstVisit_concat (h.mem_visits ht), firstVisit_concat (h.mem_visits hu)]

theorem allTimes_concat (h : Partitions timelines visits) (v : PageVisit) :
    ((note v timelines).flatMap (·.times)).Perm ((visits ++ [v]).map (·.totalTimeMs)) := by
  rw [List.map_append]
  exact (times_note_perm v timelines).trans (h.allTimes.append_right _)

/-- One more visit of a page that was visited before. -/
theorem note_again (h : Partitions timelines visits)
    (hmem : v.pageName ∈ timelines.map (·.name)) :
    Partitions (note v timelines) (visits ++ [v]) := by
  have hall := h.allTimes_concat v
  have hnames := map_name_note_of_mem h.distinct hmem
  rw [note_of_mem h.distinct hmem] at hall hnames ⊢
  refine ⟨fun name => ?_, ?_, ?_, ?_, ?_, hall⟩
  · rw [hnames, h.names, List.map_append, List.mem_append]
    refine (or_iff_left_of_imp fun hname => ?_).symm
    obtain rfl := List.mem_singleton.mp hname
    exact (h.names _).mp hmem
  · rw [← List.pairwise_map (f := fun t : PageTimeline => t.name)
      (R := fun a b => firstVisit (visits ++ [v]) a < firstVisit (visits ++ [v]) b), hnames,
      List.pairwise_map]
    exact h.inOrder_concat v
  -- what is left is said of each timeline, of which one is longer now
  all_goals
    rw [List.forall_mem_map]
    intro t ht
  · show _ = timesOf (visits ++ [v]) _
    have htimes : t.times = timesOf visits t.name := h.times t ht
    split_ifs with hname
    · have hpage : v.pageName = t.name := (by simpa using hname : t.name = v.pageName).symm
      show t.times ++ [v.totalTimeMs] = timesOf (visits ++ [v]) t.name
      rw [timesOf_concat, if_pos hpage, htimes]
    · have hpage : v.pageName ≠ t.name := fun heq => hname (by simp [heq])
      rw [timesOf_concat, if_neg hpage, List.append_nil, htimes]
  · split_ifs
    · exact List.append_ne_nil_of_right_ne_nil _ (by simp)
    · exact h.times_ne_nil t ht
  · split_ifs
    · rfl
    · exact h.figures t ht

/-- A visit of a page that was not visited before. -/
theorem note_new (h : Partitions timelines visits)
    (hmem : v.pageName ∉ timelines.map (·.name)) :
    Partitions (note v timelines) (visits ++ [v]) := by
  have hall := h.allTimes_concat v
  have hnew : v.pageName ∉ visits.map (·.pageName) := fun hname => hmem ((h.names _).mpr hname)
  have hother : ∀ t ∈ timelines, v.pageName ≠ t.name := by
    intro t ht heq
    exact hmem (heq ▸ List.mem_map_of_mem ht)
  rw [note_of_not_mem hmem] at hall ⊢
  refine ⟨fun name => ?_, ?_, ?_, ?_, ?_, hall⟩
  · rw [List.map_append, List.mem_append, h.names, List.map_append, List.mem_append]
    rfl
  · rw [List.pairwise_append]
    refine ⟨h.inOrder_concat v, List.pairwise_singleton _ _, fun t ht u hu => ?_⟩
    obtain rfl := List.mem_singleton.mp hu
    show firstVisit (visits ++ [v]) t.name < firstVisit (visits ++ [v]) v.pageName
    rw [firstVisit_concat (h.mem_visits ht), firstVisit_concat_of_not_mem hnew]
    exact firstVisit_lt (h.mem_visits ht)
  -- what is left is said of the timelines that were there and of the new one
  all_goals
    rw [List.forall_mem_append, List.forall_mem_singleton]
  · refine ⟨fun t ht => ?_, ?_⟩
    · show t.times = timesOf (visits ++ [v]) t.name
      rw [timesOf_concat, if_neg (hother t ht), List.append_nil]
      exact h.times t ht
    · show [v.totalTimeMs] = timesOf (visits ++ [v]) v.pageName
      rw [timesOf_concat, if_pos rfl, timesOf_eq_nil hnew, List.nil_append]
  · exact ⟨h.times_ne_nil, List.cons_ne_nil _ _⟩
  · exact ⟨h.figures, rfl⟩

/-- One more visit of any page. -/
theorem note (h : Partitions timelines visits) (v : PageVisit) :
    Partitions (PageTimeline.note v timelines) (visits ++ [v]) := by
  by_cases hmem : v.pageName ∈ timelines.map (·.name)
  · exact h.note_again hmem
  · exact h.note_new hmem

end Partitions

/-- The timelines of visits that are noted one after the other. -/
theorem partitions_foldl (visits : List PageVisit) :
    Partitions (visits.foldl (fun timelines v => note v timelines) []) visits := by
  induction visits using List.reverseRecOn with
  | nil => exact .nil
  | append_singleton visits v ih =>
    rw [List.foldl_concat]
    exact ih.note v

/-- One more visit changes the timelines drawn from all visits as it does when it is noted. -/
theorem ofVisits_concat (h : Partitions (ofVisits visits) visits) (v : PageVisit) :
    ofVisits (visits ++ [v]) = note v (ofVisits visits) := by
  have hnames : (ofVisits visits).map (·.name) = (visits.map (·.pageName)).eraseDups := by
    unfold ofVisits
    rw [List.map_map]
    exact List.map_id _
  have hconcat : ((visits ++ [v]).map (·.pageName)).eraseDups =
      (visits.map (·.pageName)).eraseDups ++
        ([v.pageName].removeAll (visits.map (·.pageName))).eraseDups := by
    rw [List.map_append, List.eraseDups_append]
    rfl
  by_cases hmem : v.pageName ∈ (ofVisits visits).map (·.name)
  · have hold : [v.pageName].removeAll (visits.map (·.pageName)) = [] := by
      simpa [List.removeAll] using (h.names _).mp hmem
    rw [note_of_mem h.distinct hmem]
    unfold ofVisits
    rw [hconcat, hold, List.eraseDups_nil, List.append_nil, List.map_map]
    apply List.map_congr_left
    intro name _
    show ofTimes name (timesOf (visits ++ [v]) name) =
      if name == v.pageName then (ofTimes name (timesOf visits name)).visited v
      else ofTimes name (timesOf visits name)
    rw [timesOf_concat]
    by_cases hname : v.pageName = name
    · rw [if_pos hname, if_pos (by simp [hname])]
      rfl
    · rw [if_neg hname, if_neg (by simpa using Ne.symm hname), List.append_nil]
  · have hnew : v.pageName ∉ visits.map (·.pageName) := fun hname => hmem ((h.names _).mpr hname)
    have hone : [v.pageName].removeAll (visits.map (·.pageName)) = [v.pageName] := by
      simpa [List.removeAll] using hnew
    rw [note_of_not_mem hmem]
    unfold ofVisits
    rw [hconcat, hone, List.map_append]
    congr 1
    · apply List.map_congr_left
      intro name hname
      have hne : v.pageName ≠ name := by
        rintro rfl
        exact hmem (hnames ▸ hname)
      rw [timesOf_concat, if_neg hne, List.append_nil]
    · show [ofTimes v.pageName (timesOf (visits ++ [v]) v.pageName)] = _
      rw [timesOf_concat, if_pos rfl, timesOf_eq_nil hnew, List.nil_append]

/-- Timelines drawn from all visits at once are those of visits noted one after the other. -/
theorem ofVisits_eq_foldl (visits : List PageVisit) :
    ofVisits visits = visits.foldl (fun timelines v => note v timelines) [] := by
  induction visits using List.reverseRecOn with
  | nil => rfl
  | append_singleton visits v ih =>
    have h : Partitions (ofVisits visits) visits := by
      rw [ih]
      exact partitions_foldl visits
    rw [List.foldl_concat, ← ih, ofVisits_concat h]

theorem partitions_ofVisits (visits : List PageVisit) : Partitions (ofVisits visits) visits := by
  rw [ofVisits_eq_foldl]
  exact partitions_foldl visits

/-- A visit that was lost counts with its time as well. -/
example : (ofVisits [.completed "home" 1.0 [], .lost "cart" 2.0, .lost "home" 3.0]).map
    (fun t => (t.name, t.times)) = [("home", [1.0, 3.0]), ("cart", [2.0])] := by
  decide

end PageTimeline

/-! ## Averages -/

/-- Figures under names of their own ascend strictly. -/
theorem ascending_sortedFigures {figures : List (String × Float)}
    (h : (figures.map Prod.fst).Nodup) :
    ((sortedFigures figures).map Prod.fst).Pairwise (· < ·) := by
  have hsorted : (sortedFigures figures).Pairwise fun a b => decide (a.1 ≤ b.1) = true := by
    apply List.pairwise_mergeSort
    · intro a b c
      simpa using le_trans
    · intro a b
      simpa using le_total a.1 b.1
  have hnodup : ((sortedFigures figures).map Prod.fst).Nodup :=
    ((List.mergeSort_perm figures _).map Prod.fst).nodup_iff.mpr h
  rw [List.Nodup, List.pairwise_map] at hnodup
  rw [List.pairwise_map]
  refine (hsorted.and hnodup).imp fun hab => ?_
  exact lt_of_le_of_ne (of_decide_eq_true hab.1) hab.2

namespace LoadReport

/-- The visits of a run, user after user. -/
def visits (r : LoadReport) : List PageVisit := r.walks.flatMap (·.visits)

/-- The timelines of a report are drawn from the visits of its walks, visit after visit: every page
    has one timeline, all visits are in the timelines of their pages, and the averages by page are
    those of the timelines. -/
structure SortsVisits (r : LoadReport) : Prop where
  inTurn : r.pageTimelines =
    r.visits.foldl (fun timelines v => PageTimeline.note v timelines) []
  partitions : PageTimeline.Partitions r.pageTimelines r.visits
  distinct : (r.pageTimelines.map (·.name)).Nodup
  length_visits : (r.pageTimelines.map (·.times.length)).sum = r.visits.length
  averages : r.averagePageLoadMs.Perm (r.pageTimelines.map fun t => (t.name, t.average))
  averages_ascending : (r.averagePageLoadMs.map Prod.fst).Pairwise (· < ·)

/-- The timelines of a report keep the visits apart by their pages, the walks in the order of their
    users, also where different actions share a page. -/
theorem timelines_sortVisits (m : Mix) (walks : List UserWalk) (totalTimeMs : Float) :
    (ofWalks m walks totalTimeMs).KeepsWalks walks ∧
      (ofWalks m walks totalTimeMs).SortsVisits := by
  have hpartitions := PageTimeline.partitions_ofVisits ((inOrder walks).flatMap (·.visits))
  refine ⟨keepsWalks_ofWalks m walks totalTimeMs, PageTimeline.ofVisits_eq_foldl _, hpartitions,
    hpartitions.distinct, ?_, List.mergeSort_perm _ _, ascending_sortedFigures ?_⟩
  · have hlength := hpartitions.allTimes.length_eq
    rwa [List.length_flatMap, List.length_map] at hlength
  · rw [List.map_map]
    exact hpartitions.distinct

end LoadReport

end LoadBench
