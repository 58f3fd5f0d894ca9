import LoadBench.Proofs.Binary64.Sums

/-!
# Exact values of binary64 numbers

A finite number stands for a rational, and is rounded to a whole number by its mantissa and exponent
alone. What comes out is the whole number nearest to the rational, a half going to the even
neighbour: there is one such number, and it grows with the rational.

Results:
* `IsNearestEven.mono`, `IsNearestEven.unique`: the nearest whole number grows with the rational,
  and is the only one.
* `Dyad.isNearestEven_wholeEven`: rounding by mantissa and exponent.
* `magnitude_le_pred`: no number lies between two whole numbers that have the width of a mantissa.
* `le_iff_value_le`: a number that is not negative compares by its value.
-/

namespace LoadBench.Binary64

open Float.Model Float.Model.UnpackedFloat

/-! ## The nearest whole number -/

/-- The whole number nearest to a rational; a half goes to the even neighbour. -/
structure IsNearestEven (n : Nat) (q : ℚ) : Prop where
  low : q ≤ n + 1 / 2
  high : n ≤ q + 1 / 2
  even : q = n + 1 / 2 ∨ n = q + 1 / 2 → n % 2 = 0

namespace IsNearestEven

variable {m n : Nat} {q r : ℚ}

/-- The larger of two rationals is not nearest to the lower number. -/
theorem mono (hm : IsNearestEven m q) (hn : IsNearestEven n r) (h : q ≤ r) : m ≤ n := by
  by_contra hlt
  have hsucc : (n : ℚ) + 1 ≤ m := by exact_mod_cast Nat.succ_le_of_lt (Nat.not_le.mp hlt)
  have hlow := hn.low
  have hhigh := hm.high
  -- both rationals lie halfway between two neighbours, of which one is odd
  have hmeven := hm.even (.inr (by linarith))
  have hneven := hn.even (.inl (by linarith))
  have hnext : (m : ℚ) = n + 1 := by linarith
  have : m = n + 1 := by exact_mod_cast hnext
  omega

theorem unique (hm : IsNearestEven m q) (hn : IsNearestEven n q) : m = n :=
  le_antisymm (hm.mono hn le_rfl) (hn.mono hm le_rfl)

theorem natCast (n : Nat) : IsNearestEven n n :=
  ⟨by linarith, by linarith, by rintro (h | h) <;> linarith⟩

/-- Only what exceeds a half is not rounded to zero. -/
theorem pos_iff (h : IsNearestEven n q) : 0 < n ↔ 1 / 2 < q := by
  have hlow := h.low
  have hhigh := h.high
  constructor
  · intro hn
    have hone : (1 : ℚ) ≤ n := by exact_mod_cast hn
    by_contra hle
    have hn1 : (n : ℚ) = 1 := by linarith
    have heven := h.even (.inr (by linarith))
    have : n = 1 := by exact_mod_cast hn1
    omega
  · intro hq
    by_contra hn
    have hzero : n = 0 := by omega
    rw [hzero, Nat.cast_zero] at hlow
    linarith

end IsNearestEven

/-! ## Rounding a quotient -/

theorem isNearestEven_div {m n u : Nat} (hu : 0 < u) (hlow : 2 * m ≤ 2 * n * u + u)
    (hhigh : 2 * n * u ≤ 2 * m + u)
    (heven : 2 * m = 2 * n * u + u ∨ 2 * n * u = 2 * m + u → n % 2 = 0) :
    IsNearestEven n (m / u) := by
  have hu' : (0 : ℚ) < u := Nat.cast_pos.mpr hu
  have hlow' : (2 * m : ℚ) ≤ 2 * n * u + u := by exact_mod_cast hlow
  have hhigh' : (2 * n * u : ℚ) ≤ 2 * m + u := by exact_mod_cast hhigh
  constructor
  · rw [div_le_iff₀ hu']
    linarith
  · have hdiv : (n : ℚ) - 1 / 2 ≤ m / u := by
      rw [le_div_iff₀ hu']
      linarith
    linarith
  · rintro (h | h)
    · rw [div_eq_iff hu'.ne'] at h
      have htie : (2 * m : ℚ) = 2 * n * u + u := by linarith
      exact heven (.inl (by exact_mod_cast htie))
    · rw [← sub_eq_iff_eq_add, eq_div_iff hu'.ne'] at h
      have htie : (2 * n * u : ℚ) = 2 * m + u := by linarith
      exact heven (.inr (by exact_mod_cast htie))

/-- A quotient by an even number, a half going up: one that has come to an odd number is taken back
    if it was a half. -/
theorem isNearestEven_half {m h : Nat} (hh : 0 < h) :
    IsNearestEven (if 2 * (m % (2 * h)) = 2 * h ∧ (m + h) / (2 * h) % 2 = 1
      then (m + h) / (2 * h) - 1 else (m + h) / (2 * h)) (m / (2 * h : Nat)) := by
  have hm := Nat.div_add_mod m (2 * h)
  have hr := Nat.mod_lt m (show 0 < 2 * h by omega)
  generalize m / (2 * h) = w at hm
  generalize m % (2 * h) = r at hm hr ⊢
  have hnear : (m + h) / (2 * h) = if r < h then w else w + 1 := by
    have hprod : w * (2 * h) = 2 * h * w := by ring
    have hprod' : (w + 1) * (2 * h) = 2 * h * w + 2 * h := by ring
    split_ifs with hlt <;> rw [Nat.div_eq_iff (by omega)] <;> omega
  rw [hnear]
  obtain ⟨n, hn⟩ : ∃ n, (if 2 * r = 2 * h ∧ (if r < h then w else w + 1) % 2 = 1
    then (if r < h then w else w + 1) - 1 else if r < h then w else w + 1) = n := ⟨_, rfl⟩
  have hcases : n = w ∧ (r < h ∨ r = h ∧ w % 2 = 0) ∨
      n = w + 1 ∧ (h < r ∨ r = h ∧ w % 2 = 1) := by
    split_ifs at hn <;> omega
  rw [hn]
  have hprod : 2 * w * (2 * h) = 2 * (2 * h * w) := by ring
  have hprod' : 2 * (w + 1) * (2 * h) = 2 * (2 * h * w) + 4 * h := by ring
  rcases hcases with ⟨rfl, hcase⟩ | ⟨rfl, hcase⟩
  · refine isNearestEven_div (by omega) ?_ ?_ ?_ <;> rw [hprod] <;> omega
  · refine isNearestEven_div (by omega) ?_ ?_ ?_ <;> rw [hprod'] <;> omega

/-! ## Values -/

namespace Dyad

/-- The magnitude as a rational. -/
def magnitude (d : Dyad) : ℚ := d.mantissa * 2 ^ d.exponent

/-- The rational that it stands for. -/
def value (d : Dyad) : ℚ := if d.negative then -d.magnitude else d.magnitude

theorem magnitude_nonneg (d : Dyad) : 0 ≤ d.magnitude := by
  unfold magnitude
  positivity

theorem magnitude_scale (d : Dyad) (n : Nat) : (d.scale n).magnitude = d.magnitude * n := by
  simp only [magnitude, scale]
  push_cast
  ring

theorem value_eq_magnitude (d : Dyad) (h : 0 ≤ d.value) : d.value = d.magnitude := by
  have hmagnitude := d.magnitude_nonneg
  unfold value at h ⊢
  split_ifs at h ⊢
  · linarith
  · rfl

/-- Only a sign in front of something makes a number negative. -/
theorem value_neg_iff (d : Dyad) : (d.negative && d.mantissa != 0) = true ↔ d.value < 0 := by
  have hzero : d.magnitude = 0 ↔ d.mantissa = 0 := by
    rw [magnitude, mul_eq_zero, Nat.cast_eq_zero]
    exact or_iff_left (zpow_ne_zero _ two_ne_zero)
  have hmagnitude := d.magnitude_nonneg
  rw [Bool.and_eq_true, bne_iff_ne, ne_eq, ← hzero]
  unfold value
  cases d.negative with
  | false => simpa using hmagnitude
  | true => simpa using hmagnitude.lt_iff_ne'.symm

variable (negative : Bool) (m k : Nat)

theorem magnitude_whole : (Dyad.mk negative m k).magnitude = (m * 2 ^ k : Nat) := by
  simp [magnitude]

theorem magnitude_fraction :
    (Dyad.mk negative m (-((k : Int) + 1))).magnitude = m / (2 * 2 ^ k : Nat) := by
  have hpow : (2 : ℚ) ^ ((k : Int) + 1) = (2 * 2 ^ k : Nat) := by
    rw [zpow_add_one₀ two_ne_zero, zpow_natCast, mul_comm]
    push_cast
    rfl
  rw [magnitude, zpow_neg, hpow, div_eq_mul_inv]

theorem wholeEven_whole : (Dyad.mk negative m k).wholeEven = m * 2 ^ k := by
  simp [wholeEven, wholeNear, Nat.shiftLeft_eq]

theorem wholeEven_fraction : (Dyad.mk negative m (-((k : Int) + 1))).wholeEven =
    if 2 * (m % (2 * 2 ^ k)) = 2 * 2 ^ k ∧ (m + 2 ^ k) / (2 * 2 ^ k) % 2 = 1
    then (m + 2 ^ k) / (2 * 2 ^ k) - 1 else (m + 2 ^ k) / (2 * 2 ^ k) := by
  have hnonneg : ¬ 0 ≤ -((k : Int) + 1) := by omega
  have hneg : -((k : Int) + 1) < 0 := by omega
  have hplaces : (- -((k : Int) + 1)).toNat = k + 1 := by omega
  have hunit : Nat.pow 2 (k + 1) = 2 * 2 ^ k := Nat.pow_succ'
  have hhalf : Nat.pow 2 k = 2 ^ k := rfl
  simp only [wholeEven, wholeNear, hnonneg, hneg, if_false, hplaces, Nat.shiftRight_eq_div_pow,
    Nat.pow_succ', Nat.add_sub_cancel, hunit, hhalf, decide_true, Bool.true_and, Bool.and_eq_true,
    beq_iff_eq]

/-- Rounding by mantissa and exponent gives the nearest whole number. -/
theorem isNearestEven_wholeEven (d : Dyad) : IsNearestEven d.wholeEven d.magnitude := by
  obtain ⟨negative, m, e⟩ := d
  rcases le_or_gt 0 e with he | he
  · obtain ⟨k, rfl⟩ := Int.eq_ofNat_of_zero_le he
    rw [wholeEven_whole, magnitude_whole]
    exact .natCast _
  · obtain ⟨k, rfl⟩ : ∃ k : Nat, e = -((k : Int) + 1) := ⟨(-e).toNat - 1, by omega⟩
    rw [wholeEven_fraction, magnitude_fraction]
    exact isNearestEven_half (by positivity)

end Dyad

/-! ## The order of values -/

variable {x y : Float} {d d' : Dyad}

/-- The numbers that stand for a rational are zero and those with a mantissa. -/
theorem dyad?_cases (h : dyad? x = some d) :
    (∃ s, number x = .zero s ∧ d = ⟨s == .negative, 0, 0⟩) ∨
      ∃ s m e hm, number x = .finite s m e hm ∧ d = ⟨s == .negative, m, e⟩ := by
  rw [dyad?_eq] at h
  cases hx : number x with
  | notANumber => rw [hx] at h; cases h
  | infinity s => rw [hx] at h; cases h
  | zero s =>
    rw [hx] at h
    exact .inl ⟨s, rfl, (Option.some_inj.mp h).symm⟩
  | finite s m e hm =>
    rw [hx] at h
    exact .inr ⟨s, m, e, hm, rfl, (Option.some_inj.mp h).symm⟩

theorem isFinite_of_dyad? (h : dyad? x = some d) : (number x).isFinite = true := by
  rcases dyad?_cases h with ⟨s, hx, -⟩ | ⟨s, m, e, hm, hx, -⟩ <;> rw [hx] <;> rfl

theorem exists_dyad? (h : (number x).isFinite = true) : ∃ d, dyad? x = some d := by
  rw [dyad?_eq]
  cases hx : number x <;> rw [hx] at h <;> first | exact ⟨_, rfl⟩ | cases h

theorem mantissa_lt (h : dyad? x = some d) : d.mantissa < 2 ^ 53 := by
  rcases dyad?_cases h with ⟨s, -, rfl⟩ | ⟨s, m, e, hm, hx, rfl⟩
  · exact Nat.two_pow_pos 53
  · have hrounded := isRounded_number x
    rw [hx] at hrounded
    exact hrounded.1

/-- A mantissa is too narrow for a fraction behind so large a whole number. -/
theorem magnitude_le_pred {k : Nat} (hx : dyad? x = some d) (hk : 53 ≤ k)
    (h : d.magnitude < 2 ^ k) : d.magnitude ≤ 2 ^ k - 1 := by
  have hmantissa := mantissa_lt hx
  obtain ⟨negative, m, e⟩ := d
  rcases le_or_gt 0 e with he | he
  · obtain ⟨j, rfl⟩ := Int.eq_ofNat_of_zero_le he
    rw [Dyad.magnitude_whole] at h ⊢
    have hlt : m * 2 ^ j < 2 ^ k := by exact_mod_cast h
    have hle : ((m * 2 ^ j + 1 : Nat) : ℚ) ≤ (2 ^ k : Nat) := Nat.cast_le.mpr hlt
    push_cast at hle ⊢
    linarith
  · have hfraction : (2 : ℚ) ^ e ≤ 1 := zpow_le_one_of_nonpos₀ one_le_two he.le
    have hle : ((m + 1 : Nat) : ℚ) ≤ (2 ^ k : Nat) :=
      Nat.cast_le.mpr (hmantissa.trans_le (Nat.pow_le_pow_right (by norm_num) hk))
    push_cast at hle
    calc (m : ℚ) * 2 ^ e ≤ m := mul_le_of_le_one_right (Nat.cast_nonneg m) hfraction
      _ ≤ 2 ^ k - 1 := by linarith

/-- The value of a number in units of the least one. -/
theorem value_eq (h : dyad? x = some d) : d.value = signedUnits (number x) / 2 ^ 1074 := by
  rcases dyad?_cases h with ⟨s, hx, rfl⟩ | ⟨s, m, e, hm, hx, rfl⟩ <;> rw [hx]
  · cases s <;> simp [Dyad.value, Dyad.magnitude, signedUnits, sign, units, Sign.apply]
  · have hrounded := isRounded_number x
    rw [hx] at hrounded
    obtain ⟨j, hj⟩ : ∃ j : Nat, (e + 1074).toNat = j := ⟨_, rfl⟩
    have hpow : (2 : ℚ) ^ e = 2 ^ j / 2 ^ 1074 := by
      have he : e = (j : Int) - (1074 : Nat) := by
        have := hrounded.2.1
        omega
      rw [he, zpow_sub₀ two_ne_zero, zpow_natCast, zpow_natCast]
    simp only [signedUnits, sign, units, hj]
    cases s with
    | positive =>
      show (m : ℚ) * 2 ^ e = ((m * 2 ^ j : Nat) : Int) / 2 ^ 1074
      rw [hpow, ← mul_div_assoc]
      push_cast
      rfl
    | negative =>
      show -((m : ℚ) * 2 ^ e) = (-((m * 2 ^ j : Nat) : Int) : Int) / 2 ^ 1074
      rw [hpow, ← mul_div_assoc, ← neg_div]
      push_cast
      rfl

theorem signedUnits_mono (hy : (number y).isFinite = true) (hx0 : 0.0 ≤ x) (h : x ≤ y) :
    signedUnits (number x) ≤ signedUnits (number y) := by
  have hy0 := float_le_trans hx0 h
  obtain ⟨hxnan, hynan⟩ := not_isNaN_of_le h
  have hlevel := (le_iff hxnan hynan).mp h
  rw [level_of_nonneg hx0, level_of_nonneg hy0] at hlevel
  have hplace : place (number x) ≤ place (number y) := Int.ofNat_le.mp hlevel
  have hx := isFinite_iff.mpr (hplace.trans_lt (isFinite_iff.mp hy))
  rcases Nat.eq_zero_or_pos (place (number x)) with hzero | hpos
  · obtain ⟨s, hs⟩ := exists_eq_zero hzero
    rw [hs]
    exact (apply_zero s).trans_le (signedUnits_nonneg hy0)
  · rw [signedUnits, signedUnits, sign_of_nonneg hx0 hpos,
      sign_of_nonneg hy0 (hpos.trans_le hplace)]
    exact Int.ofNat_le.mpr
      (units_mono (isRounded_number x) (isRounded_number y) hx hy hplace)

/-- A number that is not negative compares by its value. -/
theorem le_iff_value_le (hx : dyad? x = some d) (hy : dyad? y = some d') (hx0 : 0.0 ≤ x) :
    x ≤ y ↔ d.value ≤ d'.value := by
  have hxfinite := isFinite_of_dyad? hx
  have hyfinite := isFinite_of_dyad? hy
  rw [value_eq hx, value_eq hy, div_le_div_iff_of_pos_right (by positivity), Int.cast_le]
  refine ⟨signedUnits_mono hyfinite hx0, fun h => ?_⟩
  rw [le_iff (isNaN_of_isFinite hxfinite) (isNaN_of_isFinite hyfinite), level_of_isFinite hxfinite,
    level_of_isFinite hyfinite]
  exact limitedLevel_mono (roundedLevel_mono h)

theorem value_nonneg (hx : dyad? x = some d) (hx0 : 0.0 ≤ x) : 0 ≤ d.value := by
  rw [value_eq hx]
  exact div_nonneg (Int.cast_nonneg (signedUnits_nonneg hx0)) (by positivity)

end LoadBench.Binary64
