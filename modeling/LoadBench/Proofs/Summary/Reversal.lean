import LoadBench.Proofs.Binary64.Quotients
import LoadBench.Proofs.Binary64.Sums
import LoadBench.Proofs.Report.Comparison

/-!
# Two runs compared the other way round

With the runs exchanged, the change of the success rate is the opposite one. The change of the
average time is not, since it is relative to the other baseline; but a time that falls beyond the
tolerance rises by an even larger share when it is read backwards. So what was an improvement is a
regression the other way round, unless the share of the faster run does not exist: a run that takes
no time at all is no baseline, the share of such a run counts as zero, and an improvement in its
time alone is no change when it is read backwards.

Results:
* `Comparison.successPoints_reversed`: the two changes of the success rate are opposites.
* `Comparison.lt_percentChange_reversed`: a fall beyond the tolerance is a rise beyond it backwards.
* `Comparison.verdict_reversed_of_improved`: what becomes of an improvement.
-/

namespace LoadBench

open Binary64 Float.Model Float.Model.UnpackedFloat

/-! ## Ratios that exist -/

/-- The ratio of two numbers exists: the divisor is not zero, and the quotient is finite. -/
def Statistics.HasRatio (num den : Float) : Prop :=
  (den == 0.0) = false ∧ (num / den).isFinite = true

open Statistics

variable {num den : Float}

theorem guardedRatio_of_hasRatio (h : HasRatio num den) : guardedRatio num den = num / den := by
  obtain ⟨hden, hfinite⟩ := h
  simp [guardedRatio, hden, hfinite]

theorem guardedRatio_of_not_hasRatio (h : ¬ HasRatio num den) : guardedRatio num den = 0.0 := by
  unfold guardedRatio
  cases hden : den == 0.0 with
  | true => rfl
  | false =>
    have hfinite : ¬ (num / den).isFinite = true := fun hfinite => h ⟨hden, hfinite⟩
    simp [hfinite]

/-! ## Changes read backwards -/

/-- The figures of a run that was measured: all of them finite, the success rate a share of one, and
    the average time not negative. -/
structure Snapshot.IsSound (s : Snapshot) : Prop where
  successRate_finite : s.successRate.isFinite = true
  averageResponseMs_finite : s.averageResponseMs.isFinite = true
  p95_finite : s.p95.isFinite = true
  throughput_finite : s.throughput.isFinite = true
  successRate_nonneg : 0.0 ≤ s.successRate
  successRate_le_one : s.successRate ≤ 1.0
  averageResponseMs_nonneg : 0.0 ≤ s.averageResponseMs

namespace Comparison

/-- Of two opposite changes, one falls below the negative of a tolerance if, and only if, the other
    one exceeds the tolerance. -/
theorem lt_neg_iff_lt {tolerance change change' : Float} (htolerance : tolerance.isNaN = false)
    (htolerance' : (-tolerance).isNaN = false)
    (hopposite : level (number (-tolerance)) = -level (number tolerance))
    (hchange : change.isNaN = false) (hchange' : change'.isNaN = false)
    (h : level (number change') = -level (number change)) :
    change' < -tolerance ↔ tolerance < change := by
  rw [lt_iff hchange' htolerance', lt_iff htolerance hchange, h, hopposite]
  omega

/-- A hundredfold keeps the sign, and exists if the number does. -/
theorem hundredfold_spec {r : Float} (hr : r.isNaN = false) : (100.0 * r).isNaN = false ∧
    level (number (100.0 * r)) = (sign (number r)).apply (place (number (100.0 * r))) := by
  have hnan : (100.0 * r).isNaN = false := isNaN_mul_of_isFinite (by decide) (by decide) hr
  have hsign := (number_mul_spec ((isNaN_mul 100.0 r).symm.trans hnan)).1
  have hhundred : sign (number 100.0) = .positive := by rfl
  rw [hhundred, positive_mul] at hsign
  exact ⟨hnan, by rw [level, hsign]⟩

variable {a b : Snapshot}

/-- The two changes of the success rate are opposites. -/
theorem successPoints_reversed (ha : a.successRate.isFinite = true)
    (hb : b.successRate.isFinite = true) :
    (of a b).successPoints.isNaN = false ∧ (of b a).successPoints.isNaN = false ∧
      level (number (of b a).successPoints) = -level (number (of a b).successPoints) := by
  have hproduct (x y : Snapshot) :
      (of x y).successPoints = 100.0 * (y.successRate - x.successRate) := float_mul_comm _ _
  have hab := (hundredfold_spec (number_sub_spec hb ha).1).1
  have hba := (hundredfold_spec (number_sub_spec ha hb).1).1
  rw [hproduct, hproduct]
  exact ⟨hab, hba, level_mul_opposite hab hba (level_sub_swap hb ha)⟩

/-- Where there is no ratio, the change is within the tolerance. -/
theorem percentChange_of_not_hasRatio {x y : Float} (h : ¬ HasRatio (y - x) x) :
    ¬ percentChange x y < -percentTolerance ∧ ¬ percentTolerance < percentChange x y := by
  rw [percentChange, guardedRatio_of_not_hasRatio h]
  decide

theorem percentChange_of_hasRatio {x y : Float} (h : HasRatio (y - x) x) :
    percentChange x y = 100.0 * ((y - x) / x) := by
  rw [percentChange, guardedRatio_of_hasRatio h, float_mul_comm]

/-- A fall by some share is a rise by no smaller share when it is read backwards. -/
theorem place_ratio_le_reversed {x y : Float} (hx : x.isFinite = true) (hy : y.isFinite = true)
    (hx0 : 0.0 ≤ x) (hy0 : 0.0 ≤ y) (hxpos : 0 < place (number x)) (hypos : 0 < place (number y))
    (hsign : sign (number ((y - x) / x)) = .negative) (hplace : place (number ((y - x) / x)) ≠ 0) :
    sign (number ((x - y) / y)) = .positive ∧
      place (number ((y - x) / x)) ≤ place (number ((x - y) / y)) := by
  have hsub := isFinite_sub hy hx hy0 hx0
  have hsub' := isFinite_sub hx hy hx0 hy0
  rw [sign_div hsub hx hx0 hxpos] at hsign
  have hsome : place (number (y - x)) ≠ 0 := fun hzero => hplace (place_div_of_zero hx hxpos hzero)
  obtain ⟨hsame, hopposite⟩ := level_eq_neg_iff.mp (level_sub_swap hy hx)
  have hpositive : sign (number (x - y)) = .positive := by
    have hne := hopposite.resolve_left hsome
    rw [hsign] at hne
    cases hs : sign (number (x - y)) with
    | positive => rfl
    | negative => exact absurd hs hne
  -- the number that it falls to is the smaller one
  have hle : place (number y) ≤ place (number x) := by
    have hneg : level (number (y - x)) < 0 := by
      rw [level, hsign]
      exact Int.neg_neg_of_pos (Int.natCast_pos.mpr (Nat.pos_of_ne_zero hsome))
    have hlevel := level_le_of_sub_neg hy hx hneg
    rw [level_of_nonneg hy0, level_of_nonneg hx0] at hlevel
    exact Int.ofNat_le.mp hlevel
  exact ⟨(sign_div hsub' hy hy0 hypos).trans hpositive, place_div_mono hsub' hx hypos hsame.ge hle⟩

/-- A time that falls beyond the tolerance rises beyond it when it is read backwards, if there is
    such a ratio. -/
theorem lt_percentChange_reversed {x y : Float} (hx : x.isFinite = true) (hy : y.isFinite = true)
    (hx0 : 0.0 ≤ x) (hy0 : 0.0 ≤ y) (h : percentChange x y < -percentTolerance)
    (hratio' : HasRatio (x - y) y) : percentTolerance < percentChange y x := by
  have hratio : HasRatio (y - x) x := by
    by_contra hnone
    exact (percentChange_of_not_hasRatio hnone).1 h
  obtain ⟨hproduct, hsigned⟩ := hundredfold_spec (isNaN_of_isFinite hratio.2)
  obtain ⟨hproduct', hsigned'⟩ := hundredfold_spec (isNaN_of_isFinite hratio'.2)
  rw [percentChange_of_hasRatio hratio, lt_iff hproduct (by decide), hsigned] at h
  rw [percentChange_of_hasRatio hratio', lt_iff (by decide) hproduct', hsigned']
  have htolerance : level (number (-percentTolerance)) = -level (number percentTolerance) := by
    decide
  have htolerance' : 0 < level (number percentTolerance) := by decide
  rw [htolerance] at h
  -- the change is a fall, and not by nothing
  obtain ⟨hsign, hfall⟩ : sign (number ((y - x) / x)) = .negative ∧
      level (number percentTolerance) < place (number (100.0 * ((y - x) / x))) := by
    cases hsign : sign (number ((y - x) / x)) <;> rw [hsign] at h <;> simp only [Sign.apply] at h
    · exact ⟨rfl, by omega⟩
    · omega
  have hsome : place (number ((y - x) / x)) ≠ 0 := by
    intro hzero
    have := place_mul_of_zero hproduct (.inr hzero)
    omega
  obtain ⟨hsign', hplace⟩ := place_ratio_le_reversed hx hy hx0 hy0 (place_pos hratio.1)
    (place_pos hratio'.1) hsign hsome
  have := place_mul_mono hproduct hproduct' hplace
  rw [hsign']
  simp only [Sign.apply]
  omega

/-! ## The verdict -/

theorem judge_eq_improved_iff {points percent : Float} : judge points percent = .improved ↔
    (¬ points < -pointTolerance ∧ ¬ percentTolerance < percent) ∧
      (pointTolerance < points ∨ percent < -percentTolerance) := by
  rw [judge_eq_ofRatings, (Verdict.follows_ofRatings _ _).improved, ne_eq, ne_eq,
    Rating.ofSuccess_eq_worse_iff, Rating.ofLatency_eq_worse_iff, Rating.ofSuccess_eq_better_iff,
    Rating.ofLatency_eq_better_iff]

theorem judge_eq_regressed_iff {points percent : Float} : judge points percent = .regressed ↔
    points < -pointTolerance ∨ percentTolerance < percent := by
  rw [judge_eq_ofRatings, (Verdict.follows_ofRatings _ _).regressed, Rating.ofSuccess_eq_worse_iff,
    Rating.ofLatency_eq_worse_iff]

/-- An improvement read backwards is a regression if the success rate gained more than its
    tolerance, or if the change of the average time is a ratio of the candidate's average as well.
    Otherwise it is no change. -/
theorem verdict_reversed_of_improved (ha : a.IsSound) (hb : b.IsSound)
    (h : (of a b).verdict = .improved) :
    (pointTolerance < (of a b).successPoints ∨
        HasRatio (a.averageResponseMs - b.averageResponseMs) b.averageResponseMs →
      (of b a).verdict = .regressed) ∧
    (¬ pointTolerance < (of a b).successPoints →
      ¬ HasRatio (a.averageResponseMs - b.averageResponseMs) b.averageResponseMs →
      (of b a).verdict = .unchanged) := by
  obtain ⟨⟨hnoLoss, -⟩, hgain⟩ := judge_eq_improved_iff.mp h
  obtain ⟨hpoints, hpoints', hopposite⟩ :=
    successPoints_reversed ha.successRate_finite hb.successRate_finite
  -- the success rate loses backwards what it gained
  have hloss : (of b a).successPoints < -pointTolerance ↔ pointTolerance < (of a b).successPoints :=
    lt_neg_iff_lt (by decide) (by decide) (by decide) hpoints hpoints' hopposite
  have hgain' :
      pointTolerance < (of b a).successPoints ↔ (of a b).successPoints < -pointTolerance :=
    (lt_neg_iff_lt (by decide) (by decide) (by decide) hpoints' hpoints (by omega)).symm
  refine ⟨fun hcause => judge_eq_regressed_iff.mpr ?_, fun hsame hnone => ?_⟩
  · rcases hcause with hpointsGain | hratio
    · exact .inl (hloss.mpr hpointsGain)
    · rcases hgain with hpointsGain | hfall
      · exact .inl (hloss.mpr hpointsGain)
      · exact .inr (lt_percentChange_reversed ha.averageResponseMs_finite
          hb.averageResponseMs_finite ha.averageResponseMs_nonneg hb.averageResponseMs_nonneg
          hfall hratio)
  · obtain ⟨hnoFall, hnoRise⟩ := percentChange_of_not_hasRatio hnone
    show judge (of b a).successPoints (percentChange b.averageResponseMs a.averageResponseMs) = _
    have hnoLoss' : ¬ (of b a).successPoints < -pointTolerance := mt hloss.mp hsame
    have hnoGain' : ¬ pointTolerance < (of b a).successPoints := mt hgain'.mp hnoLoss
    simp [judge, hnoLoss', hnoGain', hnoFall, hnoRise]

/-- A run of calls that took 100 ms on average, one of calls that took half as long, and one of
    calls that took no time that was measured. -/
def hundredMs : Snapshot := ⟨"sync", 1.0, 100.0, 150.0, 10.0⟩

@[inherit_doc hundredMs]
def fiftyMs : Snapshot := ⟨"async", 1.0, 50.0, 75.0, 20.0⟩

@[inherit_doc hundredMs]
def noMs : Snapshot := ⟨"cached", 1.0, 0.0, 0.0, 20.0⟩

theorem isSound_hundredMs : hundredMs.IsSound := by constructor <;> decide

theorem isSound_fiftyMs : fiftyMs.IsSound := by constructor <;> decide

theorem isSound_noMs : noMs.IsSound := by constructor <;> decide

theorem verdict_reversed_hundredMs :
    (of fiftyMs hundredMs).verdict = .regressed ∧ (of noMs hundredMs).verdict = .unchanged :=
  ⟨(verdict_reversed_of_improved isSound_hundredMs isSound_fiftyMs (by decide)).1
      (.inr ⟨by decide, by decide⟩),
    (verdict_reversed_of_improved isSound_hundredMs isSound_noMs (by decide)).2 (by decide)
      fun hratio => absurd hratio.1 (by decide)⟩

/-- An improvement is not always a regression the other way round. -/
theorem not_regressed_of_improved : ¬ ∀ a b : Snapshot, a.IsSound → b.IsSound →
    (of a b).verdict = .improved → (of b a).verdict = .regressed := by
  intro h
  have hreversed := h hundredMs noMs isSound_hundredMs isSound_noMs (by decide)
  have hunchanged : (of noMs hundredMs).verdict = .unchanged := by decide
  rw [hunchanged] at hreversed
  cases hreversed

end Comparison

end LoadBench
