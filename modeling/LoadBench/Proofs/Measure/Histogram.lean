import Mathlib.Data.String.Basic
import Mathlib.Tactic
import LoadBench.Measure.Errors

/-!
# Counts under keys

A histogram is built key after key. Its keys ascend and only what was counted is listed, so it is
known by how often each key was counted, and the order in which the keys came does not show in it.

Results:
* `Histogram.total_ofKeys`: the counts of a histogram add up to the number of its keys.
* `Histogram.wellFormed_ofKeys`: the keys ascend and the counts are positive.
* `Histogram.count_ofKeys`: under a key stands how often it was counted.
* `Histogram.WellFormed.ext`: a histogram is known by its counts.
* `Histogram.ofKeys_eq_of_perm`: keys in another order make the same histogram.
-/

namespace LoadBench

namespace Histogram

/-! ## Totals -/

@[simp] theorem total_nil : total [] = 0 := rfl

@[simp] theorem total_cons (entry : String × Nat) (h : Histogram) :
    total (entry :: h) = entry.2 + total h := rfl

/-- Wherever a key is counted, the total grows by one. -/
theorem total_add (key : String) (h : Histogram) : (add key h).total = h.total + 1 := by
  induction h with
  | nil => rfl
  | cons entry rest ih =>
    obtain ⟨k, n⟩ := entry
    unfold add
    split_ifs
    · simp only [total_cons]
      omega
    · simp only [total_cons]
      omega
    · simp only [total_cons, ih]
      omega

theorem total_foldl_add (keys : List String) (h : Histogram) :
    (keys.foldl (fun h k => add k h) h).total = h.total + keys.length := by
  induction keys generalizing h with
  | nil => rfl
  | cons key keys ih =>
    rw [List.foldl_cons, ih, total_add, List.length_cons]
    omega

theorem total_ofKeys (keys : List String) : (ofKeys keys).total = keys.length := by
  have h := total_foldl_add keys []
  rwa [total_nil, Nat.zero_add] at h

theorem le_total {h : Histogram} {entry : String × Nat} (hentry : entry ∈ h) :
    entry.2 ≤ h.total := by
  induction h with
  | nil => cases hentry
  | cons first rest ih =>
    rw [total_cons]
    rcases List.mem_cons.mp hentry with rfl | hentry
    · exact Nat.le_add_right _ _
    · exact (ih hentry).trans (Nat.le_add_left _ _)

/-! ## Keys -/

/-- The keys ascend, and what is listed was counted. -/
structure WellFormed (h : Histogram) : Prop where
  ascending : (h.map Prod.fst).Pairwise (· < ·)
  positive : ∀ entry ∈ h, 0 < entry.2

theorem wellFormed_nil : WellFormed [] := ⟨.nil, by simp⟩

/-- Counting a key adds no other key. -/
theorem mem_keys_add {key k : String} {h : Histogram} (hk : k ∈ (add key h).map Prod.fst) :
    k = key ∨ k ∈ h.map Prod.fst := by
  induction h with
  | nil => exact .inl (List.mem_singleton.mp hk)
  | cons entry rest ih =>
    unfold add at hk
    split_ifs at hk
    · exact List.mem_cons.mp hk
    · exact .inr hk
    · rcases List.mem_cons.mp hk with rfl | hk
      · exact .inr List.mem_cons_self
      · exact (ih hk).imp_right (List.mem_cons_of_mem _)

theorem ascending_add (key : String) {h : Histogram} (hkeys : (h.map Prod.fst).Pairwise (· < ·)) :
    ((add key h).map Prod.fst).Pairwise (· < ·) := by
  induction h with
  | nil => exact List.pairwise_singleton _ _
  | cons entry rest ih =>
    obtain ⟨k, n⟩ := entry
    obtain ⟨hfirst, hrest⟩ := List.pairwise_cons.mp hkeys
    unfold add
    split_ifs with hlt heq
    · refine List.pairwise_cons.mpr ⟨fun k' hk' => ?_, hkeys⟩
      rcases List.mem_cons.mp hk' with rfl | hk'
      · exact hlt
      · exact hlt.trans (hfirst k' hk')
    · exact hkeys
    · have hgt : k < key := by
        have hne : key ≠ k := by simpa using heq
        exact lt_of_le_of_ne (not_lt.mp hlt) hne.symm
      refine List.pairwise_cons.mpr ⟨fun k' hk' => ?_, ih hrest⟩
      rcases mem_keys_add hk' with rfl | hk'
      · exact hgt
      · exact hfirst k' hk'

theorem positive_add (key : String) {h : Histogram} (hpositive : ∀ entry ∈ h, 0 < entry.2) :
    ∀ entry ∈ add key h, 0 < entry.2 := by
  induction h with
  | nil => simp [add]
  | cons first rest ih =>
    obtain ⟨hfirst, hrest⟩ := List.forall_mem_cons.mp hpositive
    unfold add
    split_ifs
    · exact List.forall_mem_cons.mpr ⟨Nat.one_pos, hpositive⟩
    · exact List.forall_mem_cons.mpr ⟨Nat.succ_pos _, hrest⟩
    · exact List.forall_mem_cons.mpr ⟨hfirst, ih hrest⟩

theorem WellFormed.add {h : Histogram} (hh : h.WellFormed) (key : String) :
    (h.add key).WellFormed :=
  ⟨ascending_add key hh.ascending, positive_add key hh.positive⟩

/-- The keys of a histogram ascend, and its counts are positive. -/
theorem wellFormed_ofKeys (keys : List String) : (ofKeys keys).WellFormed :=
  List.foldlRecOn keys _ wellFormed_nil fun _ hh key _ => hh.add key

/-! ## Counts -/

theorem count_nil (key : String) : count [] key = 0 := rfl

theorem count_cons (k : String) (n : Nat) (rest : Histogram) (key : String) :
    count ((k, n) :: rest) key = if key = k then n else rest.count key := by
  unfold count
  rw [List.lookup_cons]
  by_cases hkey : key = k
  · simp [hkey]
  · have hne : (key == k) = false := by simpa using hkey
    simp [hkey, hne]

theorem count_eq_zero {h : Histogram} {key : String} (hkey : key ∉ h.map Prod.fst) :
    h.count key = 0 := by
  induction h with
  | nil => rfl
  | cons first rest ih =>
    rw [List.map_cons, List.mem_cons, not_or] at hkey
    rw [count_cons, if_neg hkey.1, ih hkey.2]

/-- A key has no count in front of greater ones. -/
theorem count_eq_zero_of_lt {h : Histogram} {key : String} (hlt : ∀ k ∈ h.map Prod.fst, key < k) :
    h.count key = 0 :=
  count_eq_zero fun hmem => lt_irrefl key (hlt key hmem)

/-- Counting a key leaves the others as they are. -/
theorem count_add_of_ne {key k : String} (hne : k ≠ key) (h : Histogram) :
    (add key h).count k = h.count k := by
  induction h with
  | nil => rw [add, count_cons, if_neg hne]
  | cons first rest ih =>
    obtain ⟨first, n⟩ := first
    unfold add
    split_ifs with hlt heq
    · rw [count_cons, if_neg hne]
    · have hfirst : k ≠ first := by
        have hkey : key = first := by simpa using heq
        rwa [← hkey]
      rw [count_cons, count_cons, if_neg hfirst, if_neg hfirst]
    · rw [count_cons, count_cons, ih]

theorem count_add_self {h : Histogram} (hascending : (h.map Prod.fst).Pairwise (· < ·))
    (key : String) : (add key h).count key = h.count key + 1 := by
  induction h with
  | nil => rw [add, count_cons, if_pos rfl, count_nil]
  | cons first rest ih =>
    obtain ⟨first, n⟩ := first
    obtain ⟨hfirst, hrest⟩ := List.pairwise_cons.mp hascending
    unfold add
    split_ifs with hlt heq
    · -- all keys that are there are greater
      have hnew : count ((first, n) :: rest) key = 0 := by
        refine count_eq_zero_of_lt (List.forall_mem_cons.mpr ⟨hlt, fun k hk => ?_⟩)
        exact hlt.trans (hfirst k hk)
      rw [hnew, count_cons, if_pos rfl]
    · have hkey : key = first := by simpa using heq
      rw [count_cons, count_cons, if_pos hkey, if_pos hkey]
    · have hkey : key ≠ first := by simpa using heq
      rw [count_cons, count_cons, if_neg hkey, if_neg hkey, ih hrest]

theorem count_foldl_add {h : Histogram} (hh : h.WellFormed) (keys : List String) (k : String) :
    (keys.foldl (fun h key => add key h) h).count k = h.count k + keys.count k := by
  induction keys generalizing h with
  | nil => rfl
  | cons key keys ih =>
    rw [List.foldl_cons, ih (hh.add key)]
    by_cases hk : key = k
    · subst hk
      rw [count_add_self hh.ascending, List.count_cons_self]
      omega
    · rw [count_add_of_ne (Ne.symm hk), List.count_cons_of_ne hk]

/-- Under a key stands how often it was counted. -/
theorem count_ofKeys (keys : List String) (k : String) : (ofKeys keys).count k = keys.count k := by
  have h := count_foldl_add wellFormed_nil keys k
  rwa [count_nil, Nat.zero_add] at h

/-! ## Histograms of equal counts -/

namespace WellFormed

variable {h h' : Histogram}

/-- The entries are the counts that are not zero. -/
theorem mem_iff (hh : h.WellFormed) {entry : String × Nat} :
    entry ∈ h ↔ 0 < entry.2 ∧ h.count entry.1 = entry.2 := by
  obtain ⟨key, m⟩ := entry
  show (key, m) ∈ h ↔ 0 < m ∧ h.count key = m
  induction h with
  | nil =>
    have hzero : 0 < m → 0 ≠ m := fun hm => hm.ne
    simpa [count_nil] using hzero
  | cons first rest ih =>
    obtain ⟨k, n⟩ := first
    obtain ⟨hascending, hpositive⟩ := hh
    obtain ⟨hfirst, hrest⟩ := List.pairwise_cons.mp hascending
    obtain ⟨hn, hpositive⟩ := List.forall_mem_cons.mp hpositive
    rw [List.mem_cons, ih ⟨hrest, hpositive⟩, count_cons, Prod.mk.injEq]
    split_ifs with hkey
    · subst hkey
      have hnew : Histogram.count rest key = 0 := count_eq_zero_of_lt hfirst
      simp only [hnew, true_and]
      omega
    · simp only [hkey, false_and, false_or]

theorem nodup (hh : h.WellFormed) : h.Nodup :=
  List.Nodup.of_map Prod.fst (hh.ascending.imp fun hlt => hlt.ne)

/-- A histogram is known by its counts. -/
theorem ext (hh : h.WellFormed) (hh' : h'.WellFormed) (hcount : ∀ key, h.count key = h'.count key) :
    h = h' := by
  have hperm : h.Perm h' := by
    refine (List.perm_ext_iff_of_nodup hh.nodup hh'.nodup).mpr fun entry => ?_
    rw [hh.mem_iff, hh'.mem_iff, hcount]
  refine hperm.eq_of_pairwise ?_ (List.pairwise_map.mp hh.ascending)
    (List.pairwise_map.mp hh'.ascending)
  intro a b _ _ hab hba
  exact absurd hab hba.asymm

end WellFormed

/-- Keys in another order make the same histogram. -/
theorem ofKeys_eq_of_perm {keys others : List String} (hperm : keys.Perm others) :
    ofKeys keys = ofKeys others := by
  refine (wellFormed_ofKeys keys).ext (wellFormed_ofKeys others) fun key => ?_
  rw [count_ofKeys, count_ofKeys, hperm.count_eq]

/-- Counts of keys that follow on others are added to theirs. -/
theorem count_ofKeys_append (keys more : List String) (key : String) :
    (ofKeys (keys ++ more)).count key = (ofKeys keys).count key + (ofKeys more).count key := by
  rw [count_ofKeys, count_ofKeys, count_ofKeys, List.count_append]

end Histogram

end LoadBench
