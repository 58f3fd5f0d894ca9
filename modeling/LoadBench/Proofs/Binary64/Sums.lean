import LoadBench.Proofs.Binary64.Rounding

/-!
# Sums and differences of binary64 numbers

All finite numbers are whole multiples of the least one, and so are their sums and differences: the
exact result is a whole number of units, which is rounded once. Rounding keeps the order and does
not look at the sign, so a sum does not fall when a summand grows, and the two differences of two
numbers are opposites.

Results:
* `roundedLevel_mono`, `roundedLevel_neg`: rounding a whole number of units keeps the order and the
  magnitude.
* `level_eq_roundedLevel`: a number stands where its own units are rounded to.
* `number_add_spec`, `number_sub_spec`: a sum and a difference of finite numbers are the rounded sum
  and difference of their units, infinity at most.
* `level_sub_swap`: the two differences of two numbers are opposites.
* `le_add_of_nonneg`, `level_sub_le`: adding what is not negative does not lower a number, and
  taking it away does not raise it.
-/

namespace LoadBench.Binary64

open Float.Model Float.Model.UnpackedFloat

/-! ## Signs -/

theorem apply_zero (s : Sign) : s.apply 0 = 0 := by cases s <;> rfl

theorem apply_mul (s : Sign) (m n : Int) : s.apply (m * n) = s.apply m * n := by
  cases s <;> simp [Sign.apply]

theorem apply_neg (s : Sign) (n : Int) : (-s).apply n = -s.apply n := by
  cases s
  · exact (Int.neg_neg n).symm
  · rfl

/-! ## Rounding a whole number of units -/

variable {m n : Nat} {e : Int}

/-- The level that a whole number of units is rounded to, were there no limit to the exponents. -/
def roundedLevel (k : Int) : Int := k.sign * nearestPlace k.natAbs (-1074)

theorem le_roundExponent_units (n : Nat) : -1074 ≤ roundExponent n (-1074) := le_max_right _ _

theorem roundedLevel_natCast (n : Nat) : roundedLevel n = nearestPlace n (-1074) := by
  rcases Nat.eq_zero_or_pos n with rfl | hn
  · decide
  · simp [roundedLevel, Int.sign_eq_one_of_pos (Int.natCast_pos.mpr hn)]

theorem roundedLevel_neg (k : Int) : roundedLevel (-k) = -roundedLevel k := by
  simp [roundedLevel]

theorem roundedLevel_apply (s : Sign) (n : Nat) :
    roundedLevel (s.apply n) = s.apply (nearestPlace n (-1074)) := by
  cases s with
  | positive => exact roundedLevel_natCast n
  | negative => exact (roundedLevel_neg n).trans (congrArg Neg.neg (roundedLevel_natCast n))

theorem roundedLevel_nonneg {k : Int} (hk : 0 ≤ k) : 0 ≤ roundedLevel k :=
  Int.mul_nonneg (Int.sign_nonneg_iff.mpr hk) (Int.natCast_nonneg _)

/-- The larger of two numbers of units is not rounded to the lower level. -/
theorem roundedLevel_mono {j k : Int} (h : j ≤ k) : roundedLevel j ≤ roundedLevel k := by
  rcases Int.le_total 0 j with hj | hj
  · obtain ⟨m, rfl⟩ := Int.eq_ofNat_of_zero_le hj
    obtain ⟨n, rfl⟩ := Int.eq_ofNat_of_zero_le (hj.trans h)
    rw [roundedLevel_natCast, roundedLevel_natCast]
    exact Int.ofNat_le.mpr (nearestPlace_mono (Int.ofNat_le.mp h) (le_roundExponent_units m))
  · have hj' := roundedLevel_nonneg (Int.neg_nonneg_of_nonpos hj)
    rw [roundedLevel_neg] at hj'
    rcases Int.le_total 0 k with hk | hk
    · have := roundedLevel_nonneg hk
      omega
    · obtain ⟨m, hm⟩ := Int.eq_ofNat_of_zero_le (Int.neg_nonneg_of_nonpos hj)
      obtain ⟨n, hn⟩ := Int.eq_ofNat_of_zero_le (Int.neg_nonneg_of_nonpos hk)
      have hle := nearestPlace_mono (show n ≤ m by omega) (le_roundExponent_units n)
      rw [← Int.neg_le_neg_iff, ← roundedLevel_neg, ← roundedLevel_neg, hm, hn,
        roundedLevel_natCast, roundedLevel_natCast]
      exact Int.ofNat_le.mpr hle

/-! ## What a mantissa is normalized to -/

/-- A magnitude is rounded as a whole number of units, whatever its exponent is. -/
theorem round_spec (s : Sign) (hm : m ≠ 0) (he : -1074 ≤ e) :
    IsRounded (UnpackedFloat.round Format.binary64 s m e) ∧
      (UnpackedFloat.round Format.binary64 s m e).isFinite = true ∧
      level (UnpackedFloat.round Format.binary64 s m e) =
        s.apply (nearestPlace (m * 2 ^ (e + 1074).toNat) (-1074)) := by
  -- the mantissa is shifted to the left by `k`, to the exponent at which it is rounded
  obtain ⟨k, hk⟩ : ∃ k, (e - roundExponent m e).toNat = k := ⟨_, rfl⟩
  have hround : UnpackedFloat.round Format.binary64 s m e =
      roundWithAccuracy Format.binary64 s (m * 2 ^ k) (e - k) .exact := by
    simp only [UnpackedFloat.round, targetExponent_eq, decreaseExponent, hk, Nat.shiftLeft_eq]
  have hmk : m * 2 ^ k ≠ 0 := Nat.mul_ne_zero hm (by positivity)
  have hleast : -1074 ≤ roundExponent m e := le_max_right _ _
  have hexponent : e - k ≤ roundExponent (m * 2 ^ k) (e - k) := by
    have hsame : roundExponent (m * 2 ^ k) (e - k) = roundExponent m e := by
      unfold roundExponent
      rw [log2_scaled hm]
      omega
    omega
  obtain ⟨j, hj⟩ : ∃ j : Nat, (j : Int) = e - k + 1074 := ⟨(e - k + 1074).toNat, by omega⟩
  have hunits : m * 2 ^ (e + 1074).toNat = m * 2 ^ k * 2 ^ j := by
    rw [mul_assoc, ← pow_add]
    congr 2
    omega
  have hleft : (-1074 : Int) = e - k - j := by omega
  obtain ⟨hrounded, hsign, hfinite, hplace⟩ := roundWithAccuracy_spec s hmk hexponent
  rw [hround]
  refine ⟨hrounded, hfinite, ?_⟩
  rw [level, hsign, hplace, hunits, hleft, nearestPlace_scaled hmk hexponent]

theorem normalize_spec (k : Int) (he : -1074 ≤ e) :
    IsRounded (UnpackedFloat.normalize Format.binary64 k e .positive) ∧
      (UnpackedFloat.normalize Format.binary64 k e .positive).isFinite = true ∧
      level (UnpackedFloat.normalize Format.binary64 k e .positive) =
        roundedLevel (k * 2 ^ (e + 1074).toNat) := by
  rcases lt_trichotomy k 0 with hk | rfl | hk
  · have hcompare : compare k 0 = .lt := Int.compare_eq_lt.mpr hk
    obtain ⟨n, hn⟩ := Int.eq_ofNat_of_zero_le (Int.neg_nonneg_of_nonpos hk.le)
    have hunits : k * 2 ^ (e + 1074).toNat =
        Sign.negative.apply ((n * 2 ^ (e + 1074).toNat : Nat) : Int) := by
      have : k = -(n : Int) := by omega
      rw [this]
      push_cast
      exact Int.neg_mul _ _
    simp only [UnpackedFloat.normalize, hcompare, hn, Int.toNat_natCast]
    rw [hunits, roundedLevel_apply]
    exact round_spec .negative (by omega) he
  · rw [Int.zero_mul]
    exact ⟨trivial, rfl, rfl⟩
  · have hcompare : compare k 0 = .gt := Int.compare_eq_gt.mpr hk
    obtain ⟨n, rfl⟩ := Int.eq_ofNat_of_zero_le hk.le
    have hunits : ((n : Nat) : Int) * 2 ^ (e + 1074).toNat =
        Sign.positive.apply ((n * 2 ^ (e + 1074).toNat : Nat) : Int) := by
      push_cast
      rfl
    simp only [UnpackedFloat.normalize, hcompare, Int.toNat_natCast]
    rw [hunits, roundedLevel_apply]
    exact round_spec .positive (by omega) he

/-! ## Sums -/

variable {u v : UnpackedFloat}

/-- A finite number in units of the least one, with its sign. -/
def signedUnits (u : UnpackedFloat) : Int := (sign u).apply (units u)

/-- A number stands where its own units are rounded to. -/
theorem level_eq_roundedLevel (hu : IsRounded u) (hfinite : u.isFinite = true) :
    level u = roundedLevel (signedUnits u) := by
  cases u with
  | notANumber => cases hfinite
  | infinity s => cases hfinite
  | zero s => cases s <;> decide
  | finite s m e hm =>
    obtain ⟨hwidth, hleast, hfull⟩ := hu
    obtain ⟨j, hj⟩ : ∃ j : Nat, (e + 1074).toNat = j := ⟨_, rfl⟩
    have hexponent : roundExponent m e = e := by
      refine le_antisymm (roundExponent_of_lt hwidth hleast) ?_
      unfold roundExponent
      rcases hfull with hfull | rfl
      · have := (Nat.le_log2 hm.ne').mpr hfull
        omega
      · exact le_max_right _ _
    have hself : nearestQuotient m 0 = m := by simpa using nearestQuotient_self m 0
    have hplace : nearestPlace m e = (e + 1074).toNat * 2 ^ 52 + m := by
      rw [nearestPlace, hexponent, Int.sub_self, Int.toNat_zero, hself]
    have hleft : (-1074 : Int) = e - j := by omega
    rw [signedUnits, roundedLevel_apply]
    simp only [level, sign, place, units, hj]
    rw [hleft, nearestPlace_scaled hm.ne' hexponent.ge, hplace, hj]

/-- A mantissa brought to the exponent of a sum has the same number of units. -/
theorem apply_decreaseExponent (s : Sign) {d : Int} (hde : d ≤ e) (hd : -1074 ≤ d) :
    s.apply ((decreaseExponent m e d).1 : Nat) * 2 ^ (d + 1074).toNat =
      s.apply ((m * 2 ^ (e + 1074).toNat : Nat) : Int) := by
  have hpow : (e - d).toNat + (d + 1074).toNat = (e + 1074).toNat := by omega
  rw [decreaseExponent, Nat.shiftLeft_eq, ← apply_mul, ← hpow]
  push_cast
  rw [mul_assoc, ← pow_add]

/-- A sum of finite numbers is the rounded sum of their units. -/
theorem add_spec (hu : IsRounded u) (hv : IsRounded v) (hulimit : u.isFinite = true)
    (hvlimit : v.isFinite = true) :
    IsRounded (UnpackedFloat.add Format.binary64 u v) ∧
      (UnpackedFloat.add Format.binary64 u v).isFinite = true ∧
      level (UnpackedFloat.add Format.binary64 u v) =
        roundedLevel (signedUnits u + signedUnits v) := by
  have hzero (s : Sign) : signedUnits (.zero s) = 0 := apply_zero s
  cases u with
  | notANumber => cases hulimit
  | infinity s => cases hulimit
  | zero s =>
    rw [hzero, zero_add]
    cases v with
    | notANumber => cases hvlimit
    | infinity t => cases hvlimit
    | zero t => cases s <;> cases t <;> exact ⟨trivial, rfl, by decide⟩
    | finite t n e hn => exact ⟨hv, rfl, level_eq_roundedLevel hv rfl⟩
  | finite s m d hm =>
    cases v with
    | notANumber => cases hvlimit
    | infinity t => cases hvlimit
    | zero t =>
      rw [hzero, add_zero]
      exact ⟨hu, rfl, level_eq_roundedLevel hu rfl⟩
    | finite t n e hn =>
      have hleast : -1074 ≤ min d e := le_min hu.2.1 hv.2.1
      obtain ⟨hrounded, hfinite, hlevel⟩ :=
        normalize_spec (s.apply ((decreaseExponent m d (min d e)).1 : Nat) +
          t.apply ((decreaseExponent n e (min d e)).1 : Nat)) hleast
      refine ⟨hrounded, hfinite, hlevel.trans ?_⟩
      rw [add_mul, apply_decreaseExponent s (min_le_left d e) hleast,
        apply_decreaseExponent t (min_le_right d e) hleast]
      rfl

/-! ## Differences -/

/-- A difference is the sum with the opposite number. -/
theorem sub_eq_add_neg (u v : UnpackedFloat) :
    UnpackedFloat.sub Format.binary64 u v = UnpackedFloat.add Format.binary64 u v.neg := by
  cases u <;> cases v <;>
    simp only [UnpackedFloat.sub, UnpackedFloat.add, UnpackedFloat.neg, apply_neg,
      Int.sub_eq_add_neg]

theorem isRounded_neg (hu : IsRounded u) : IsRounded u.neg := by cases u <;> exact hu

theorem isFinite_neg : u.neg.isFinite = u.isFinite := by cases u <;> rfl

theorem signedUnits_neg : signedUnits u.neg = -signedUnits u := by
  cases u with
  | notANumber => rfl
  | infinity s => exact apply_neg s 0
  | zero s => exact apply_neg s 0
  | finite s m e hm => exact apply_neg s _

/-- A difference of finite numbers is the rounded difference of their units. -/
theorem sub_spec (hu : IsRounded u) (hv : IsRounded v) (hulimit : u.isFinite = true)
    (hvlimit : v.isFinite = true) :
    IsRounded (UnpackedFloat.sub Format.binary64 u v) ∧
      (UnpackedFloat.sub Format.binary64 u v).isFinite = true ∧
      level (UnpackedFloat.sub Format.binary64 u v) =
        roundedLevel (signedUnits u - signedUnits v) := by
  rw [sub_eq_add_neg, Int.sub_eq_add_neg, ← signedUnits_neg]
  exact add_spec hu (isRounded_neg hv) hulimit (isFinite_neg.trans hvlimit)

/-! ## What is stored of a sum -/

variable {x y : Float}

/-- A level within those of the infinities. -/
def limitedLevel (k : Int) : Int := max (-infinitePlace) (min k infinitePlace)

theorem limitedLevel_neg (k : Int) : limitedLevel (-k) = -limitedLevel k := by
  unfold limitedLevel
  omega

theorem limitedLevel_mono {j k : Int} (h : j ≤ k) : limitedLevel j ≤ limitedLevel k := by
  unfold limitedLevel
  omega

theorem level_pack (hu : IsRounded u) (hfinite : u.isFinite = true) :
    (⟨Float.Model.pack u⟩ : Float).isNaN = false ∧
      level (number ⟨Float.Model.pack u⟩) = limitedLevel (level u) := by
  obtain ⟨hsign, hplace⟩ := number_pack hu (isNaN_of_isFinite hfinite)
  constructor
  · rw [← Bool.not_eq_true, isNaN_iff, hplace, Nat.not_lt]
    exact min_le_right _ _
  · rw [level, level, hsign, hplace, limitedLevel]
    cases sign u <;> simp only [Sign.apply] <;> omega

/-- A sum of finite numbers is a number: the rounded sum of their units, infinity at most. -/
theorem number_add_spec (hx : (number x).isFinite = true) (hy : (number y).isFinite = true) :
    (x + y).isNaN = false ∧ level (number (x + y)) =
      limitedLevel (roundedLevel (signedUnits (number x) + signedUnits (number y))) := by
  obtain ⟨hrounded, hfinite, hlevel⟩ := add_spec (isRounded_number x) (isRounded_number y) hx hy
  obtain ⟨hnan, hlevel'⟩ := level_pack hrounded hfinite
  exact ⟨hnan, hlevel'.trans (congrArg limitedLevel hlevel)⟩

/-- A difference of finite numbers is a number: the rounded difference of their units, infinity at
    most. -/
theorem number_sub_spec (hx : (number x).isFinite = true) (hy : (number y).isFinite = true) :
    (x - y).isNaN = false ∧ level (number (x - y)) =
      limitedLevel (roundedLevel (signedUnits (number x) - signedUnits (number y))) := by
  obtain ⟨hrounded, hfinite, hlevel⟩ := sub_spec (isRounded_number x) (isRounded_number y) hx hy
  obtain ⟨hnan, hlevel'⟩ := level_pack hrounded hfinite
  exact ⟨hnan, hlevel'.trans (congrArg limitedLevel hlevel)⟩

/-- The two differences of two numbers are opposites. -/
theorem level_sub_swap (hx : (number x).isFinite = true) (hy : (number y).isFinite = true) :
    level (number (y - x)) = -level (number (x - y)) := by
  rw [(number_sub_spec hx hy).2, (number_sub_spec hy hx).2, ← limitedLevel_neg, ← roundedLevel_neg,
    Int.neg_sub]

theorem level_of_isFinite (hx : (number x).isFinite = true) :
    level (number x) = limitedLevel (roundedLevel (signedUnits (number x))) := by
  have hplace := isFinite_iff.mp hx
  rw [← level_eq_roundedLevel (isRounded_number x) hx, level, limitedLevel]
  cases sign (number x) <;> simp only [Sign.apply] <;> omega

/-- A number that is not negative has no negative number of units. -/
theorem signedUnits_nonneg (h : 0.0 ≤ x) : 0 ≤ signedUnits (number x) := by
  rcases Nat.eq_zero_or_pos (place (number x)) with hzero | hpos
  · obtain ⟨s, hs⟩ := exists_eq_zero hzero
    rw [hs]
    exact (apply_zero s).ge
  · rw [signedUnits, sign_of_nonneg h hpos]
    exact Int.natCast_nonneg _

/-- Adding what is not negative does not lower a number. -/
theorem le_add_of_nonneg (hx : (number x).isFinite = true) (hy : (number y).isFinite = true)
    (h : 0.0 ≤ y) : x ≤ x + y := by
  obtain ⟨hnan, hlevel⟩ := number_add_spec hx hy
  have hunits := signedUnits_nonneg h
  rw [le_iff (isNaN_of_isFinite hx) hnan, hlevel, level_of_isFinite hx]
  exact limitedLevel_mono (roundedLevel_mono (by omega))

/-- Taking away what is not negative does not raise a number. -/
theorem level_sub_le (hx : (number x).isFinite = true) (hy : (number y).isFinite = true)
    (h : 0.0 ≤ y) : level (number (x - y)) ≤ level (number x) := by
  have hunits := signedUnits_nonneg h
  rw [(number_sub_spec hx hy).2, level_of_isFinite hx]
  exact limitedLevel_mono (roundedLevel_mono (by omega))

/-- Numbers with a negative difference are in this order. -/
theorem level_le_of_sub_neg (hx : (number x).isFinite = true) (hy : (number y).isFinite = true)
    (h : level (number (x - y)) < 0) : level (number x) ≤ level (number y) := by
  rw [(number_sub_spec hx hy).2] at h
  have hunits : signedUnits (number x) ≤ signedUnits (number y) := by
    by_contra hlt
    have hnonneg := roundedLevel_nonneg
      (show 0 ≤ signedUnits (number x) - signedUnits (number y) by omega)
    unfold limitedLevel at h
    omega
  rw [level_of_isFinite hx, level_of_isFinite hy]
  exact limitedLevel_mono (roundedLevel_mono hunits)

/-- The difference of numbers that are not negative is finite. -/
theorem isFinite_sub (hx : (number x).isFinite = true) (hy : (number y).isFinite = true)
    (hx0 : 0.0 ≤ x) (hy0 : 0.0 ≤ y) : (number (x - y)).isFinite = true := by
  have hle := level_sub_le hx hy hy0
  have hle' := level_sub_le hy hx hx0
  have hxlimit := isFinite_iff.mp hx
  have hylimit := isFinite_iff.mp hy
  rw [level_sub_swap hx hy, level_of_nonneg hy0] at hle'
  rw [level_of_nonneg hx0] at hle
  rw [isFinite_iff]
  unfold level at hle hle'
  cases hsign : sign (number (x - y)) <;> rw [hsign] at hle hle' <;>
    simp only [Sign.apply] at hle hle' <;> omega

end LoadBench.Binary64
