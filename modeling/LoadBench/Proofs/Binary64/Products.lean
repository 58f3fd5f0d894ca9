import LoadBench.Counter
import LoadBench.Proofs.Binary64.Exact

/-!
# Products that are rounded to whole numbers

The product of two numbers that are not negative grows with either factor as long as it is finite,
and a count is such a number. So does the whole number nearest to the product: a half goes up, and
what a counter cannot hold stops at the largest one.

Results:
* `ofCount_le_ofCount`: the number of the larger of two counts is not the lower one.
* `float_mul_le_mul`: a finite product grows with both of its factors.
* `factors_of_mul_pos`: the factors of a positive product have one sign.
* `saturate_round`: the counter nearest to a number.
-/

namespace LoadBench.Binary64

open Float.Model Float.Model.UnpackedFloat

variable {x y x' y' : Float} {d d' : Dyad}

/-! ## Numbers that are not negative -/

theorem nonneg_of_sign (hnan : x.isNaN = false) (hsign : sign (number x) = .positive) :
    0.0 ≤ x := by
  have hzero : level (number 0.0) = 0 := by decide
  rw [le_iff (by decide) hnan, hzero, level, hsign]
  exact Int.natCast_nonneg _

theorem nonneg_of_place_eq_zero (hnan : x.isNaN = false) (hplace : place (number x) = 0) :
    0.0 ≤ x := by
  have hzero : level (number 0.0) = 0 := by decide
  rw [le_iff (by decide) hnan, hzero, level, hplace]
  exact (apply_zero _).ge

theorem le_of_place_le (hx : 0.0 ≤ x) (hy : 0.0 ≤ y)
    (h : place (number x) ≤ place (number y)) : x ≤ y := by
  rw [le_iff (not_isNaN_of_le hx).2 (not_isNaN_of_le hy).2, level_of_nonneg hx, level_of_nonneg hy]
  exact Int.ofNat_le.mpr h

theorem place_le_of_le (hx : 0.0 ≤ x) (h : x ≤ y) : place (number x) ≤ place (number y) := by
  obtain ⟨hxnan, hynan⟩ := not_isNaN_of_le h
  have hlevel := (le_iff hxnan hynan).mp h
  rw [level_of_nonneg hx, level_of_nonneg (float_le_trans hx h)] at hlevel
  exact Int.ofNat_le.mp hlevel

/-- What lies between zero and a finite number is finite. -/
theorem isFinite_of_le (hx : 0.0 ≤ x) (h : x ≤ y) (hy : (number y).isFinite = true) :
    (number x).isFinite = true :=
  isFinite_iff.mpr ((place_le_of_le hx h).trans_lt (isFinite_iff.mp hy))

/-- A number above zero has a positive sign and a magnitude. -/
theorem sign_place_of_pos (h : 0.0 < x) :
    sign (number x) = .positive ∧ 0 < place (number x) := by
  have hnonneg := float_le_of_lt h
  obtain ⟨hzeroNaN, hnan⟩ := not_isNaN_of_le hnonneg
  have hzero : level (number 0.0) = 0 := by decide
  have hlevel := (lt_iff hzeroNaN hnan).mp h
  rw [hzero, level_of_nonneg hnonneg] at hlevel
  have hplace := Int.natCast_pos.mp hlevel
  exact ⟨sign_of_nonneg hnonneg hplace, hplace⟩

/-! ## Counts -/

theorem ofCount_nonneg (n : Nat) : 0.0 ≤ ofCount n :=
  nonneg_of_sign (ofCount_spec n).2 (ofCount_spec n).1

/-- A count that a mantissa holds is its own number. -/
theorem exists_dyad?_ofCount {n : Nat} (hn : n < 2 ^ 53) :
    ∃ d, dyad? (ofCount n) = some d ∧ d.value = n := by
  rw [dyad?_eq, number, unpack_ofCount hn, unpackedCount]
  split_ifs with hpos
  · refine ⟨_, rfl, ?_⟩
    obtain ⟨k, hk⟩ : ∃ k, k + n.log2 = 52 := ⟨52 - n.log2, Nat.sub_add_cancel (log2_le hpos hn)⟩
    have hshift : 52 - n.log2 = k := by omega
    have hexponent : (n.log2 : Int) - 52 = -(k : Int) := by omega
    show ((n * 2 ^ (52 - n.log2) : Nat) : ℚ) * 2 ^ ((n.log2 : Int) - 52) = n
    rw [hshift, hexponent, zpow_neg, zpow_natCast]
    push_cast
    exact mul_inv_cancel_right₀ (by positivity) _
  · obtain rfl : n = 0 := Nat.eq_zero_of_not_pos hpos
    exact ⟨_, rfl, by simp [Dyad.value, Dyad.magnitude]⟩

/-- The number of the larger of two counts is not the lower one. -/
theorem ofCount_le_ofCount {m n : Nat} (h : m ≤ n) : ofCount m ≤ ofCount n := by
  by_cases hm : 2 ^ 53 ≤ m
  · exact ofCount_mono hm h
  obtain ⟨d, hd, hvalue⟩ := exists_dyad?_ofCount (Nat.not_le.mp hm)
  by_cases hn : 2 ^ 53 ≤ n
  · -- the first count that is rounded lies between the two
    have hmiddle : dyad? (ofCount (2 ^ 53)) = some ⟨false, 2 ^ 52, 1⟩ := by decide
    have hmiddleValue : (Dyad.mk false (2 ^ 52) 1).value = (2 ^ 53 : Nat) := by
      norm_num [Dyad.value, Dyad.magnitude]
    refine float_le_trans ?_ (ofCount_mono le_rfl hn)
    rw [le_iff_value_le hd hmiddle (ofCount_nonneg m), hvalue, hmiddleValue, Nat.cast_le]
    exact (Nat.not_le.mp hm).le
  · obtain ⟨d', hd', hvalue'⟩ := exists_dyad?_ofCount (Nat.not_le.mp hn)
    rwa [le_iff_value_le hd hd' (ofCount_nonneg m), hvalue, hvalue', Nat.cast_le]

/-! ## Finite products -/

/-- A finite product has finite factors. -/
theorem isFinite_of_isFinite_mul (h : (x * y).isFinite = true) :
    (number x).isFinite = true ∧ (number y).isFinite = true := by
  have hnan := isNaN_of_isFinite h
  rw [isNaN_number, isNaN_mul] at hnan
  by_contra hinfinite
  have hplace := (number_mul_spec hnan).2
  rw [if_neg hinfinite] at hplace
  exact (place_lt_of_isFinite h).ne hplace

theorem isNaN_mul_of_finite (hx : (number x).isFinite = true) (hy : (number y).isFinite = true) :
    (x * y).isNaN = false := by
  rw [isNaN_mul]
  exact isNaN_of_isFinite (mul_spec (isRounded_number x) (isRounded_number y) hx hy).2.2.1

theorem place_pos_of_mul (hnan : (x * y).isNaN = false) (h : 0 < place (number (x * y))) :
    0 < place (number x) ∧ 0 < place (number y) := by
  constructor <;> rw [Nat.pos_iff_ne_zero] <;> intro hzero
  · exact h.ne' (place_mul_of_zero hnan (.inl hzero))
  · exact h.ne' (place_mul_of_zero hnan (.inr hzero))

theorem float_mul_nonneg (hx : 0.0 ≤ x) (hy : 0.0 ≤ y) (hnan : (x * y).isNaN = false) :
    0.0 ≤ x * y := by
  rcases Nat.eq_zero_or_pos (place (number (x * y))) with hzero | hpos
  · exact nonneg_of_place_eq_zero hnan hzero
  · obtain ⟨hxpos, hypos⟩ := place_pos_of_mul hnan hpos
    refine nonneg_of_sign hnan ?_
    rw [(number_mul_spec ((isNaN_mul x y).symm.trans hnan)).1, sign_of_nonneg hx hxpos,
      sign_of_nonneg hy hypos]
    rfl

/-- The factors of a positive product have one sign. -/
theorem factors_of_mul_pos (h : 0.0 < x * y) (hfactor : 0.0 ≤ x ∨ 0.0 ≤ y)
    (hx : x.isNaN = false) (hy : y.isNaN = false) : 0.0 ≤ x ∧ 0.0 ≤ y := by
  obtain ⟨hsign, hplace⟩ := sign_place_of_pos h
  have hnan := (not_isNaN_of_le (float_le_of_lt h)).2
  obtain ⟨hxpos, hypos⟩ := place_pos_of_mul hnan hplace
  rw [(number_mul_spec ((isNaN_mul x y).symm.trans hnan)).1] at hsign
  rcases hfactor with hnonneg | hnonneg
  · rw [sign_of_nonneg hnonneg hxpos, positive_mul] at hsign
    exact ⟨hnonneg, nonneg_of_sign hy hsign⟩
  · rw [sign_of_nonneg hnonneg hypos, sign_mul_comm, positive_mul] at hsign
    exact ⟨nonneg_of_sign hx hsign, hnonneg⟩

/-- A finite product of numbers that are not negative grows with both of its factors. -/
theorem float_mul_le_mul (hx : 0.0 ≤ x) (hxx : x ≤ x') (hy : 0.0 ≤ y) (hyy : y ≤ y')
    (hfinite : (x' * y').isFinite = true) : x * y ≤ x' * y' := by
  obtain ⟨hx'finite, hy'finite⟩ := isFinite_of_isFinite_mul hfinite
  have hxfinite := isFinite_of_le hx hxx hx'finite
  have hyfinite := isFinite_of_le hy hyy hy'finite
  have hnan := isNaN_mul_of_finite hxfinite hyfinite
  have hnan' := isNaN_mul_of_finite hx'finite hy'finite
  have hmiddle := isNaN_mul_of_finite hxfinite hy'finite
  refine le_of_place_le (float_mul_nonneg hx hy hnan)
    (float_mul_nonneg (float_le_trans hx hxx) (float_le_trans hy hyy) hnan') ?_
  -- one factor after the other
  calc place (number (x * y)) ≤ place (number (x * y')) :=
        place_mul_mono hnan hmiddle (place_le_of_le hy hyy)
    _ = place (number (y' * x)) := by rw [float_mul_comm]
    _ ≤ place (number (y' * x')) :=
        place_mul_mono (float_mul_comm x y' ▸ hmiddle) (float_mul_comm x' y' ▸ hnan')
          (place_le_of_le hx hxx)
    _ = place (number (x' * y')) := by rw [float_mul_comm]

/-! ## The nearest whole number -/

/-- The nearest whole number, a half going up, is the integer part of the magnitude and a half. -/
theorem Dyad.wholeNear_eq_floor (d : Dyad) : d.wholeNear = ⌊d.magnitude + 1 / 2⌋₊ := by
  obtain ⟨negative, m, e⟩ := d
  rcases le_or_gt 0 e with he | he
  · obtain ⟨k, rfl⟩ := Int.eq_ofNat_of_zero_le he
    have hnear : (Dyad.mk negative m k).wholeNear = m * 2 ^ k := by
      simp [wholeNear, Nat.shiftLeft_eq]
    have hhalf : ⌊(1 / 2 : ℚ)⌋₊ = 0 := by norm_num
    rw [hnear, magnitude_whole, add_comm, Nat.floor_add_natCast (by norm_num), hhalf, Nat.zero_add]
  · obtain ⟨k, rfl⟩ : ∃ k : Nat, e = -((k : Int) + 1) := ⟨(-e).toNat - 1, by omega⟩
    have hnear : (Dyad.mk negative m (-((k : Int) + 1))).wholeNear =
        (m + 2 ^ k) / (2 * 2 ^ k) := by
      have hnonneg : ¬ 0 ≤ -((k : Int) + 1) := by omega
      have hplaces : (- -((k : Int) + 1)).toNat = k + 1 := by omega
      have hhalf : Nat.pow 2 k = 2 ^ k := rfl
      simp only [wholeNear, hnonneg, if_false, hplaces, Nat.shiftRight_eq_div_pow,
        Nat.add_sub_cancel, hhalf, pow_succ']
    have hsum : (m / (2 * 2 ^ k : Nat) + 1 / 2 : ℚ) =
        ((m + 2 ^ k : Nat) : ℚ) / (2 * 2 ^ k : Nat) := by
      push_cast
      field_simp
    rw [hnear, magnitude_fraction, hsum, Nat.floor_div_natCast, Nat.floor_natCast]

/-- The counter nearest to a number: zero for those below a half, and the largest counter for those
    beyond it. -/
theorem saturate_round (d : Dyad) :
    Counter.saturate d.round = min ⌊d.value + 1 / 2⌋₊ Counter.largest := by
  unfold Counter.saturate Dyad.round Dyad.signed Dyad.value
  cases d.negative with
  | false =>
    show min (d.wholeNear : Int).toNat _ = min ⌊d.magnitude + 1 / 2⌋₊ _
    rw [Int.toNat_natCast, d.wholeNear_eq_floor]
  | true =>
    have hfloor : ⌊-d.magnitude + 1 / 2⌋₊ = 0 := by
      rw [Nat.floor_eq_zero]
      have := d.magnitude_nonneg
      linarith
    show min (-(d.wholeNear : Int)).toNat _ = min ⌊-d.magnitude + 1 / 2⌋₊ _
    rw [hfloor, Int.toNat_neg_natCast]

end LoadBench.Binary64
