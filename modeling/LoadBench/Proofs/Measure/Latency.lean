import LoadBench.Proofs.Measure.Patterns
import LoadBench.Proofs.Measure.Ranks

/-!
# The distribution of latencies

Every figure of a distribution is drawn from the ascending arrangement of the samples. The order is
total and tells any two patterns of bits apart, so there is one such arrangement of some samples, no
matter how they were listed: sums are rounded, and so depend on the order of what is summed, but
here it is always the same one. Percentiles are elements of the arrangement, at ranks that do not
fall as the shares rise; the least and the greatest are found by passing through it.

Results:
* `arrange_spec`, `arrange_unique`: samples have one ascending arrangement.
* `ofSamples_eq_of_arranges`, `ofSamples_perm`: the distribution is that of the arrangement,
  whatever the order of the samples and whatever they are calculated with.
* `map_ofBits_ofSamples`: the figures of patterns stand for those of their numbers.
* `ofSamples_eq_ofAscending`: all eight figures of patterns and of numbers.
* `ofSamples_percentiles`: percentiles are samples in ascending order, and the least and the
  greatest bound them.
-/

namespace LoadBench.Statistics

open Binary64

/-! ## Ascending arrangements -/

section

variable {α β : Type _} {key : α → Int} {xs ys : List α}

/-- The same samples in ascending order of their keys. -/
structure Arranges (key : α → Int) (xs ys : List α) : Prop where
  perm : ys.Perm xs
  ascending : ys.Pairwise fun x y => key x ≤ key y

theorem arrange_spec (key : α → Int) (xs : List α) : Arranges key xs (arrange key xs) where
  perm := List.mergeSort_perm _ _
  ascending := List.pairwise_mergeSort' (fun x y => key x ≤ key y) xs

/-- Where a key tells the samples apart there is one ascending arrangement. -/
theorem arrange_unique (hkey : Function.Injective key) (h : Arranges key xs ys) :
    ys = arrange key xs := by
  have hspec := arrange_spec key xs
  exact List.Perm.eq_of_pairwise (fun x y _ _ hxy hyx => hkey (le_antisymm hxy hyx))
    h.ascending hspec.ascending (h.perm.trans hspec.perm.symm)

theorem arrange_perm (hkey : Function.Injective key) (h : ys.Perm xs) :
    arrange key ys = arrange key xs := by
  have hspec := arrange_spec key ys
  exact arrange_unique hkey ⟨hspec.perm.trans h, hspec.ascending⟩

theorem arrange_map (key : β → Int) (f : α → β) (xs : List α) :
    (arrange (key ∘ f) xs).map f = arrange key (xs.map f) :=
  List.map_mergeSort fun _ _ _ _ => rfl

end

/-- Numbers are arranged by their bits. -/
theorem toBits_sorted (samples : List Float) :
    (sorted samples).map Float.toBits = arrange patternKey (samples.map Float.toBits) :=
  arrange_map patternKey Float.toBits samples

/-- The distribution is that of the one ascending arrangement of the samples. -/
theorem ofSamples_eq_of_arranges {α : Type} {a : Arithmetic α} {xs ys : List α}
    (hkey : Function.Injective a.key) (h : Arranges a.key xs ys) :
    Distribution.ofSamples a xs = .ofAscending a ys := by
  rw [Distribution.ofSamples, arrange_unique hkey h]

/-- The same samples in another order have the same distribution. -/
theorem ofSamples_perm {α : Type} {a : Arithmetic α} {xs ys : List α}
    (hkey : Function.Injective a.key) (h : ys.Perm xs) :
    Distribution.ofSamples a ys = .ofSamples a xs := by
  rw [Distribution.ofSamples, Distribution.ofSamples, arrange_perm hkey h]

/-- The arrangement of patterns is that of their numbers. -/
theorem map_ofBits_arrange {words : List UInt64}
    (hsigns : ∀ w ∈ words, (Float.ofBits w).isNaN = true → w.toNat < 2 ^ 63) :
    (arrange patternKey words).map Float.ofBits = sorted (words.map Float.ofBits) := by
  have hspec := arrange_spec patternKey words
  refine arrange_unique orderKey_injective ⟨hspec.perm.map _, ?_⟩
  rw [List.pairwise_map]
  refine hspec.ascending.imp_of_mem fun {v w} hv _ h => ?_
  exact orderKey_ofBits_le (hsigns v (hspec.perm.mem_iff.mp hv)) h

/-- The figures of patterns stand for the figures of their numbers. -/
theorem map_ofBits_ofSamples {m : Arithmetic UInt64} (hm : IsMachine m) {words : List UInt64}
    (hsigns : ∀ w ∈ words, (Float.ofBits w).isNaN = true → w.toNat < 2 ^ 63) :
    (Distribution.ofSamples m words).map Float.ofBits =
      Latency.ofSamples (words.map Float.ofBits) := by
  rw [Distribution.ofSamples, hm.key, hm.map_ofAscending, map_ofBits_arrange hsigns]
  rfl

/-- There is one ascending arrangement of some patterns of bits, and of some numbers: every figure
    of a distribution is drawn from it, so the same samples in another order have the very same
    distribution. Of patterns this is so whatever they are calculated with; where the operations are
    those of numbers, the figures stand for those of the numbers. -/
theorem ofSamples_eq_ofAscending :
    (∀ (m : Arithmetic UInt64) (words : List UInt64), m.key = patternKey →
      Arranges patternKey words (arrange patternKey words) ∧
      (∀ ascending, Arranges patternKey words ascending → ascending = arrange patternKey words ∧
        Distribution.ofSamples m words = .ofAscending m ascending) ∧
      ∀ others : List UInt64, others.Perm words →
        arrange patternKey others = arrange patternKey words ∧
        Distribution.ofSamples m others = .ofSamples m words) ∧
    (∀ (m : Arithmetic UInt64) (words : List UInt64), IsMachine m →
      (∀ w ∈ words, (Float.ofBits w).isNaN = true → w.toNat < 2 ^ 63) →
      (Distribution.ofSamples m words).map Float.ofBits =
        Latency.ofSamples (words.map Float.ofBits)) ∧
    ∀ samples : List Float,
      (sorted samples).map Float.toBits = arrange patternKey (samples.map Float.toBits) ∧
      Arranges orderKey samples (sorted samples) ∧
      (∀ ascending, Arranges orderKey samples ascending →
        ascending = sorted samples ∧ Latency.ofSamples samples = Latency.ofAscending ascending) ∧
      ∀ others : List Float, others.Perm samples →
        Latency.ofSamples others = Latency.ofSamples samples := by
  refine ⟨fun m words hm => ?_, fun _ _ hm => map_ofBits_ofSamples hm, fun samples => ?_⟩
  · have hkey : Function.Injective m.key := hm ▸ patternKey_injective
    rw [← hm]
    exact ⟨arrange_spec _ _,
      fun _ h => ⟨arrange_unique hkey h, ofSamples_eq_of_arranges hkey h⟩,
      fun _ h => ⟨arrange_perm hkey h, ofSamples_perm hkey h⟩⟩
  · have hkey : Function.Injective numbers.key := orderKey_injective
    exact ⟨toBits_sorted samples, arrange_spec _ _,
      fun _ h => ⟨arrange_unique hkey h, ofSamples_eq_of_arranges hkey h⟩,
      fun _ h => ofSamples_perm hkey h⟩

theorem ofSamples_eq_ofAscending_zerosAndNotANumber :
    Arithmetic.words.key = patternKey ∧ IsMachine .words ∧
      Arranges patternKey [0x7FF8000000000001, 0, 0xFFF8000000000000, 0x8000000000000000]
        [0xFFF8000000000000, 0x8000000000000000, 0, 0x7FF8000000000001] ∧
      Arranges orderKey [notANumber, 0.0, infinity, negZero] [negZero, 0.0, infinity, notANumber] ∧
      [0.0, negZero, notANumber, infinity].Perm [notANumber, 0.0, infinity, negZero] ∧
      Distribution.ofSamples .words
          [0x7FF8000000000001, 0, 0xFFF8000000000000, 0x8000000000000000] =
        .ofAscending .words [0xFFF8000000000000, 0x8000000000000000, 0, 0x7FF8000000000001] ∧
      Distribution.ofSamples .words [0x3FF0000000000000, 0xFFF8000000000000] =
        .ofSamples .words [0xFFF8000000000000, 0x3FF0000000000000] ∧
      (Distribution.ofSamples .words [0x7FF8000000000001, 0x3FF0000000000000]).map Float.ofBits =
        Latency.ofSamples [notANumber, 1.0] ∧
      Latency.ofSamples [notANumber, 0.0, infinity, negZero] =
        Latency.ofAscending [negZero, 0.0, infinity, notANumber] ∧
      Latency.ofSamples [0.0, negZero, notANumber, infinity] =
        Latency.ofSamples [notANumber, 0.0, infinity, negZero] := by
  have hwords : Arranges patternKey [0x7FF8000000000001, 0, 0xFFF8000000000000, 0x8000000000000000]
      [0xFFF8000000000000, 0x8000000000000000, 0, 0x7FF8000000000001] := ⟨by decide, by decide⟩
  have hsamples : Arranges orderKey [notANumber, 0.0, infinity, negZero]
      [negZero, 0.0, infinity, notANumber] := ⟨by decide, by decide⟩
  have hperm : [0.0, negZero, notANumber, infinity].Perm [notANumber, 0.0, infinity, negZero] := by
    decide
  obtain ⟨hpatterns, hmachine, hnumbers⟩ := ofSamples_eq_ofAscending
  have hread := hmachine .words [0x7FF8000000000001, 0x3FF0000000000000] isMachine_words (by simp)
  have hone : [0x7FF8000000000001, 0x3FF0000000000000].map Float.ofBits = [notANumber, 1.0] := by
    decide
  rw [hone] at hread
  exact ⟨rfl, isMachine_words, hwords, hsamples, hperm, ((hpatterns .words _ rfl).2.1 _ hwords).2,
    ((hpatterns .words _ rfl).2.2 _ (by decide)).2, hread, ((hnumbers _).2.2.1 _ hsamples).2,
    (hnumbers _).2.2.2 _ hperm⟩

/-- A pattern with a sign that stands for what is not a number comes before all numbers, so it is
    passed over by the percentile that is a number. -/
example : (Distribution.ofSamples .words [0xFFF8000000000000, 0x3FF0000000000000]).p50 =
    0x3FF0000000000000 := by
  have h : Arranges patternKey [0xFFF8000000000000, 0x3FF0000000000000]
      [0xFFF8000000000000, 0x3FF0000000000000] := ⟨by decide, by decide⟩
  rw [ofSamples_eq_of_arranges patternKey_injective h]
  decide

/-! ## The least and the greatest -/

variable {R : Float → Float → Prop} {choose : Float → Float → Float} {x y z : Float}
  {xs : List Float}

theorem lesser_eq (x y : Float) : lesser x y = x ∨ lesser x y = y := by
  unfold lesser
  split_ifs <;> simp

theorem greater_eq (x y : Float) : greater x y = x ∨ greater x y = y := by
  unfold greater
  split_ifs <;> simp

theorem lesser_le (hx : x.isNaN = false) (hy : y.isNaN = false) :
    lesser x y ≤ x ∧ lesser x y ≤ y := by
  rw [lesser, hx, if_neg Bool.false_ne_true]
  split_ifs with hlt
  · exact ⟨(le_iff hy hx).mpr ((lt_iff hy hx).mp hlt).le, float_le_refl hy⟩
  · exact ⟨float_le_refl hx, float_le_of_not_lt hx hy hlt⟩

theorem le_greater (hx : x.isNaN = false) (hy : y.isNaN = false) :
    x ≤ greater x y ∧ y ≤ greater x y := by
  rw [greater, hx, if_neg Bool.false_ne_true]
  split_ifs with hlt
  · exact ⟨(le_iff hx hy).mpr ((lt_iff hx hy).mp hlt).le, float_le_refl hy⟩
  · exact ⟨float_le_refl hx, float_le_of_not_lt hy hx hlt⟩

/-- Passing through samples with a choice of one of two finds one of them. -/
theorem foldl_choose_mem (hchoose : ∀ x y, choose x y = x ∨ choose x y = y) (x : Float)
    (xs : List Float) : xs.foldl choose x ∈ x :: xs := by
  induction xs generalizing x with
  | nil => exact List.mem_singleton_self x
  | cons y xs ih =>
    rw [List.foldl_cons]
    rcases List.mem_cons.mp (ih (choose x y)) with hfirst | hlater
    · rw [hfirst]
      rcases hchoose x y with h | h <;> simp [h]
    · simp [hlater]

/-- Where the choice comes before both, what is found comes before all samples. -/
theorem foldl_choose_before (hchoose : ∀ x y, choose x y = x ∨ choose x y = y)
    (hbefore : ∀ x y : Float, x.isNaN = false → y.isNaN = false →
      R (choose x y) x ∧ R (choose x y) y)
    (hrefl : ∀ x : Float, x.isNaN = false → R x x) (htrans : ∀ x y z, R x y → R y z → R x z)
    (hnumbers : ∀ y ∈ x :: xs, y.isNaN = false) : ∀ y ∈ x :: xs, R (xs.foldl choose x) y := by
  induction xs generalizing x with
  | nil => simpa using hrefl x (hnumbers x (List.mem_singleton_self x))
  | cons y xs ih =>
    obtain ⟨hx, hy, hxs⟩ := by simpa only [List.forall_mem_cons] using hnumbers
    have hchosen : (choose x y).isNaN = false := by
      rcases hchoose x y with h | h <;> rw [h] <;> assumption
    have hall := ih (List.forall_mem_cons.mpr ⟨hchosen, hxs⟩)
    obtain ⟨hfirst, hlater⟩ := List.forall_mem_cons.mp hall
    obtain ⟨hbeforex, hbeforey⟩ := hbefore x y hx hy
    rw [List.foldl_cons]
    exact List.forall_mem_cons.mpr ⟨htrans _ _ _ hfirst hbeforex,
      List.forall_mem_cons.mpr ⟨htrans _ _ _ hfirst hbeforey, hlater⟩⟩

theorem least_spec (hne : xs ≠ []) (hnumbers : ∀ x ∈ xs, x.isNaN = false) :
    least xs ∈ xs ∧ ∀ x ∈ xs, least xs ≤ x := by
  cases xs with
  | nil => exact absurd rfl hne
  | cons x xs =>
    exact ⟨foldl_choose_mem lesser_eq x xs, foldl_choose_before lesser_eq (fun _ _ => lesser_le)
      (fun _ => float_le_refl) (fun _ _ _ => float_le_trans) hnumbers⟩

theorem greatest_spec (hne : xs ≠ []) (hnumbers : ∀ x ∈ xs, x.isNaN = false) :
    greatest xs ∈ xs ∧ ∀ x ∈ xs, x ≤ greatest xs := by
  cases xs with
  | nil => exact absurd rfl hne
  | cons x xs =>
    exact ⟨foldl_choose_mem greater_eq x xs,
      @foldl_choose_before (fun x y => y ≤ x) _ _ _ greater_eq (fun _ _ => le_greater)
        (fun _ => float_le_refl) (fun _ _ _ hxy hyz => float_le_trans hyz hxy) hnumbers⟩

/-! ## Percentiles -/

variable {p q : Float}

theorem percentile_eq (xs : List Float) (p : Float) :
    percentile xs p = (atShare? xs p).getD 0.0 := rfl

/-- A percentile of some samples is one of them. -/
theorem percentile_mem (hne : xs ≠ []) (p : Float) : percentile xs p ∈ xs := by
  obtain ⟨x, hx, hat⟩ := exists_atShare? hne p
  rw [percentile_eq, hat]
  exact hx

/-- Where the samples are in the order of some relation, so are the percentiles. -/
theorem percentile_mono (hrefl : ∀ x ∈ xs, R x x) (hzero : R 0.0 0.0) (hascending : xs.Pairwise R)
    (h : p ≤ q) : R (percentile xs p) (percentile xs q) := by
  rcases eq_or_ne xs [] with rfl | hne
  · exact hzero
  · obtain ⟨x, -, hx⟩ := exists_atShare? hne p
    obtain ⟨y, -, hy⟩ := exists_atShare? hne q
    rw [percentile_eq, percentile_eq, hx, hy]
    exact atShare?_mono hrefl hascending h hx hy

end LoadBench.Statistics

namespace LoadBench.Latency

open Binary64 Statistics

variable {samples : List Float}

/-- The percentiles are samples in ascending total order. -/
structure Percentiles (samples : List Float) (l : Latency) : Prop where
  member : ∀ x ∈ [l.p50, l.p90, l.p95, l.p99], x ∈ samples
  ascending : [l.p50, l.p90, l.p95, l.p99].Pairwise fun x y => orderKey x ≤ orderKey y

/-- The least and the greatest are samples that bound all samples, and as numbers they and the
    percentiles between them are in ascending order. -/
structure Bounds (samples : List Float) (l : Latency) : Prop where
  least_mem : l.least ∈ samples
  greatest_mem : l.greatest ∈ samples
  bounded : ∀ x ∈ samples, l.least ≤ x ∧ x ≤ l.greatest
  ascending : [l.least, l.p50, l.p90, l.p95, l.p99, l.greatest].IsChain (· ≤ ·)

theorem mem_sorted {x : Float} : x ∈ sorted samples ↔ x ∈ samples :=
  (arrange_spec orderKey samples).perm.mem_iff

theorem sorted_ne_nil (hne : samples ≠ []) : sorted samples ≠ [] := by
  obtain ⟨x, hx⟩ := List.exists_mem_of_ne_nil samples hne
  exact List.ne_nil_of_mem (mem_sorted.mpr hx)

theorem percentiles_ofSamples (hne : samples ≠ []) : Percentiles samples (ofSamples samples) where
  member x hx := by
    have hmem (p : Float) := mem_sorted.mp (percentile_mem (sorted_ne_nil hne) p)
    simp only [List.mem_cons, List.not_mem_nil, or_false] at hx
    rcases hx with rfl | rfl | rfl | rfl <;> exact hmem _
  ascending := by
    have hmono {p q : Float} (h : p ≤ q) :=
      percentile_mono (R := fun x y => orderKey x ≤ orderKey y) (fun _ _ => le_rfl) le_rfl
        (arrange_spec orderKey samples).ascending h
    have h90 : (0.50 : Float) ≤ 0.90 := by decide
    have h95 : (0.90 : Float) ≤ 0.95 := by decide
    have h99 : (0.95 : Float) ≤ 0.99 := by decide
    rw [← List.isChain_iff_pairwise]
    simpa using ⟨hmono h90, hmono h95, hmono h99⟩

theorem bounds_ofSamples (hne : samples ≠ []) (hnumbers : ∀ x ∈ samples, x.isNaN = false) :
    Bounds samples (ofSamples samples) := by
  have hsorted (x) (hx : x ∈ sorted samples) : x.isNaN = false := hnumbers x (mem_sorted.mp hx)
  have hnonempty := sorted_ne_nil hne
  obtain ⟨hleast, hlower⟩ := least_spec hnonempty hsorted
  obtain ⟨hgreatest, hupper⟩ := greatest_spec hnonempty hsorted
  have hmem (p : Float) := percentile_mem hnonempty p
  have hstep {p q : Float} (h : orderKey (percentile (sorted samples) p) ≤
      orderKey (percentile (sorted samples) q)) :
      percentile (sorted samples) p ≤ percentile (sorted samples) q :=
    le_of_orderKey_le (hsorted _ (hmem p)) (hsorted _ (hmem q)) h
  have hkeys := List.isChain_iff_pairwise.mpr (percentiles_ofSamples hne).ascending
  simp only [List.isChain_cons_cons, List.isChain_singleton, and_true] at hkeys
  obtain ⟨h90, h95, h99⟩ := hkeys
  exact {
    least_mem := mem_sorted.mp hleast
    greatest_mem := mem_sorted.mp hgreatest
    bounded x hx := ⟨hlower x (mem_sorted.mpr hx), hupper x (mem_sorted.mpr hx)⟩
    ascending := by
      simp only [List.isChain_cons_cons, List.isChain_singleton, and_true]
      exact ⟨hlower _ (hmem _), hstep h90, hstep h95, hstep h99, hupper _ (hmem _)⟩ }

/-- The percentiles of some patterns of bits are among them, and the larger share does not have the
    lower pattern. -/
theorem atShare?_arrange (words : List UInt64) (hne : words ≠ []) :
    (∀ p, ∃ w ∈ words, atShare? (arrange patternKey words) p = some w) ∧
    ∀ p q v w, p ≤ q → atShare? (arrange patternKey words) p = some v →
      atShare? (arrange patternKey words) q = some w → patternKey v ≤ patternKey w := by
  have hspec := arrange_spec patternKey words
  have hnonempty : arrange patternKey words ≠ [] :=
    fun h => hne (List.nil_perm.mp (h ▸ hspec.perm))
  refine ⟨fun p => ?_, fun p q v w h hv hw => ?_⟩
  · obtain ⟨w, hw, hat⟩ := exists_atShare? hnonempty p
    exact ⟨w, hspec.perm.mem_iff.mp hw, hat⟩
  · exact @atShare?_mono p q _ _ (fun v w => patternKey v ≤ patternKey w) (fun _ _ => le_rfl)
      hspec.ascending h v w hv hw

/-- The percentiles of some samples are among them, in ascending order; where all samples are
    numbers, the least and the greatest are samples too, and bound the others. A percentile stands
    at a rank that is in the list, whatever the share is, and in ascending samples the larger share
    does not have the smaller percentile. The same goes for patterns of bits, many of which stand
    for what is not a number. -/
theorem ofSamples_percentiles (samples : List Float) (hne : samples ≠ []) :
    Percentiles samples (ofSamples samples) ∧
    ((∀ x ∈ samples, x.isNaN = false) → Bounds samples (ofSamples samples)) ∧
    (∀ p, ∃ h : min (rank samples.length p) (samples.length - 1) < samples.length,
      percentile samples p = samples[min (rank samples.length p) (samples.length - 1)]) ∧
    (∀ (ascending : List Float) (p q : Float), p ≤ q →
      (ascending.Pairwise (fun x y => orderKey x ≤ orderKey y) →
        orderKey (percentile ascending p) ≤ orderKey (percentile ascending q)) ∧
      ((∀ x ∈ ascending, x.isNaN = false) → ascending.Pairwise (· ≤ ·) →
        percentile ascending p ≤ percentile ascending q)) ∧
    ∀ words : List UInt64, words ≠ [] →
      (∀ p, ∃ w ∈ words, atShare? (arrange patternKey words) p = some w) ∧
      ∀ p q v w, p ≤ q → atShare? (arrange patternKey words) p = some v →
        atShare? (arrange patternKey words) q = some w → patternKey v ≤ patternKey w := by
  refine ⟨percentiles_ofSamples hne, bounds_ofSamples hne, fun p => ⟨rank_lt hne p, ?_⟩,
    fun ascending p q h => ⟨fun hascending => ?_, fun hnumbers hascending => ?_⟩,
    atShare?_arrange⟩
  · rw [percentile_eq, atShare?, List.getElem?_eq_getElem (rank_lt hne p), Option.getD_some]
  · exact percentile_mono (R := fun x y => orderKey x ≤ orderKey y) (fun _ _ => le_rfl) le_rfl
      hascending h
  · exact percentile_mono (fun x hx => float_le_refl (hnumbers x hx)) (by decide) hascending h

theorem ofSamples_percentiles_zerosAndInfinity :
    [infinity, negZero, 0.0] ≠ [] ∧ (∀ x ∈ [infinity, negZero, 0.0], x.isNaN = false) ∧
      Percentiles [infinity, negZero, 0.0] (ofSamples [infinity, negZero, 0.0]) ∧
      Bounds [infinity, negZero, 0.0] (ofSamples [infinity, negZero, 0.0]) ∧
      orderKey (percentile [negZero, 0.0, infinity] 0.50) ≤
        orderKey (percentile [negZero, 0.0, infinity] 0.99) ∧
      percentile [negZero, 0.0, infinity] 0.50 ≤ percentile [negZero, 0.0, infinity] 0.99 ∧
      ∃ w ∈ [(0x7FF8000000000001 : UInt64), 0xFFF8000000000000],
        atShare? (arrange patternKey [0x7FF8000000000001, 0xFFF8000000000000]) 0.50 = some w := by
  have hne : [infinity, negZero, 0.0] ≠ [] := by decide
  have hnumbers : ∀ x ∈ [infinity, negZero, 0.0], x.isNaN = false := by decide
  have hshares : (0.50 : Float) ≤ 0.99 := by decide
  obtain ⟨hpercentiles, hbounds, -, hmono, hwords⟩ := ofSamples_percentiles _ hne
  obtain ⟨htotal, hnumeric⟩ := hmono [negZero, 0.0, infinity] _ _ hshares
  exact ⟨hne, hnumbers, hpercentiles, hbounds hnumbers, htotal (by decide),
    hnumeric (by decide) (by decide), (hwords _ (by decide)).1 0.50⟩

end LoadBench.Latency
