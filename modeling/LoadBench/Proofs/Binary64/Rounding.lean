import LoadBench.Proofs.Binary64.Counts
import LoadBench.Proofs.Binary64.Order

/-!
# Rounding keeps the order

A product is rounded by shifting its mantissa to the right until it has its full width, or until its
exponent is the least there is. What is shifted out is kept as two bits, of which the mantissa is
rounded to the nearest, and a half to the even neighbour. None of this ever changes the order of two
magnitudes, whether or not they are rounded at the same exponent.

Results:
* `nearestPlace_mono`: the larger of two magnitudes is not rounded to the lower place.
* `roundWithAccuracy_spec`, `number_pack`: what a magnitude is rounded to, and what is stored of it.
* `number_mul_spec`: a product has the product of the signs, and the place of the product of the
  magnitudes, infinity at most.
* `mul_le_mul_of_positive`: multiplying by a number with a positive sign keeps the order.
* `level_mul_opposite`: the products with opposite numbers are opposites.
* `ofCount_spec`, `ofCount_mono`: such a number is the number of a count, and the larger of two
  counts does not have the lower number.
-/

namespace LoadBench.Binary64

open Float.Model Float.Model.UnpackedFloat

/-! ## What is shifted out of a mantissa -/

/-- A mantissa and the two bits for what was shifted out of it, in quarters of its last digit. -/
def quarters (em : ExtendedMantissa) : Nat :=
  4 * em.mantissa + 2 * em.roundBit.toNat + em.stickyBit.toNat

variable {a b : ExtendedMantissa}

theorem toNat_isOdd (m : Nat) : (m % 2 != 0).toNat = m % 2 := by
  rcases Nat.mod_two_eq_zero_or_one m with h | h <;> simp [h]

theorem shiftRightOne_mono (h : quarters a ≤ quarters b) :
    quarters a.shiftRightOne ≤ quarters b.shiftRightOne := by
  obtain ⟨m, r, s⟩ := a
  obtain ⟨n, q, t⟩ := b
  unfold quarters ExtendedMantissa.shiftRightOne at *
  simp only [toNat_isOdd] at *
  cases r <;> cases s <;> cases q <;> cases t <;> simp only [Bool.toNat_true, Bool.toNat_false,
    Bool.or_true, Bool.or_false] at * <;> omega

theorem shiftRight_succ (k : Nat) : a >>> (k + 1) = (a >>> k).shiftRightOne := rfl

theorem shiftRight_mono (h : quarters a ≤ quarters b) (k : Nat) :
    quarters (a >>> k) ≤ quarters (b >>> k) := by
  induction k with
  | zero => exact h
  | succ k ih =>
    rw [shiftRight_succ, shiftRight_succ]
    exact shiftRightOne_mono ih

theorem shiftRight_add (j k : Nat) : a >>> (j + k) = (a >>> j) >>> k := by
  induction k with
  | zero => rfl
  | succ k ih => rw [← Nat.add_assoc, shiftRight_succ, shiftRight_succ, ih]

theorem roundedMantissa_mono (h : quarters a ≤ quarters b) :
    a.roundedMantissa ≤ b.roundedMantissa := by
  obtain ⟨m, r, s⟩ := a
  obtain ⟨n, q, t⟩ := b
  unfold quarters at h
  unfold ExtendedMantissa.roundedMantissa
  cases r <;> cases s <;> cases q <;> cases t <;>
    simp only [Bool.toNat_true, Bool.toNat_false, ExtendedMantissa.accuracy,
      Accuracy.roundToNearestEven] at h ⊢ <;> omega

/-! ## Quotients by powers of two -/

/-- The whole number nearest to a quotient by a power of two; a half goes to the even neighbour. -/
def nearestQuotient (m k : Nat) : Nat :=
  ((ExtendedMantissa.ofMantissaAndAccuracy m .exact) >>> k).roundedMantissa

variable {m n : Nat} {e : Int}

theorem nearestQuotient_mono (h : m ≤ n) (k : Nat) : nearestQuotient m k ≤ nearestQuotient n k := by
  apply roundedMantissa_mono
  apply shiftRight_mono
  simpa [quarters, ExtendedMantissa.ofMantissaAndAccuracy] using h

theorem nearestQuotient_scaled (m j k : Nat) :
    nearestQuotient (m * 2 ^ j) (j + k) = nearestQuotient m k := by
  unfold nearestQuotient
  rw [shiftRight_add, shiftRight_scaled]

theorem nearestQuotient_self (m k : Nat) : nearestQuotient (m * 2 ^ k) k = m :=
  nearestQuotient_scaled m k 0

/-! ## The place that a magnitude is rounded to -/

/-- The exponent at which a magnitude is rounded. -/
def roundExponent (m : Nat) (e : Int) : Int := max (m.log2 + e - 52) (-1074)

theorem targetExponent_eq (m : Nat) (e : Int) :
    Format.binary64.targetExponent (totalExponent m e) = roundExponent m e := by
  simp only [Format.targetExponent, totalExponent, Format.mantissaBits, Format.minExponent,
    roundExponent]
  push_cast
  omega

/-- The place of the number that a magnitude is rounded to, were there no limit to the exponents. -/
def nearestPlace (m : Nat) (e : Int) : Nat :=
  (roundExponent m e + 1074).toNat * 2 ^ 52 + nearestQuotient m (roundExponent m e - e).toNat

theorem nearestQuotient_le (m : Nat) (e : Int) :
    nearestQuotient m (roundExponent m e - e).toNat ≤ 2 ^ 53 := by
  obtain ⟨k, hk⟩ : ∃ k, (roundExponent m e - e).toNat = k := ⟨_, rfl⟩
  have hwidth : m.log2 + 1 ≤ 53 + k := by
    unfold roundExponent at hk
    omega
  have hle : m ≤ 2 ^ 53 * 2 ^ k := by
    rw [← pow_add]
    exact (Nat.lt_log2_self).le.trans (Nat.pow_le_pow_right (by norm_num) hwidth)
  rw [hk]
  exact (nearestQuotient_mono hle k).trans_eq (nearestQuotient_self _ k)

theorem le_nearestQuotient (hm : m ≠ 0) (he : e ≤ roundExponent m e)
    (hleast : roundExponent m e ≠ -1074) :
    2 ^ 52 ≤ nearestQuotient m (roundExponent m e - e).toNat := by
  obtain ⟨k, hk⟩ : ∃ k, (roundExponent m e - e).toNat = k := ⟨_, rfl⟩
  have hwidth : m.log2 = 52 + k := by
    unfold roundExponent at hk he hleast
    omega
  have hle : 2 ^ 52 * 2 ^ k ≤ m := by
    rw [← pow_add, ← hwidth]
    exact Nat.log2_self_le hm
  rw [hk]
  exact (nearestQuotient_self _ k).symm.trans_le (nearestQuotient_mono hle k)

/-- The larger of two magnitudes is not rounded to the lower place. -/
theorem nearestPlace_mono (hmn : m ≤ n) (he : e ≤ roundExponent m e) :
    nearestPlace m e ≤ nearestPlace n e := by
  have hlog : m.log2 ≤ n.log2 := by
    rw [Nat.log2_eq_log_two, Nat.log2_eq_log_two]
    exact Nat.log_mono_right hmn
  have hexponent : roundExponent m e ≤ roundExponent n e := by
    unfold roundExponent
    omega
  have hleast : -1074 ≤ roundExponent m e := le_max_right _ _
  unfold nearestPlace
  rcases hexponent.lt_or_eq with hlt | heq
  · -- the smaller one stays below the magnitudes that are rounded at the higher exponent
    have hn : n ≠ 0 := by
      rintro rfl
      obtain rfl : m = 0 := by omega
      exact absurd hlt (lt_irrefl _)
    have hlow := nearestQuotient_le m e
    have hhigh := le_nearestQuotient hn (he.trans hexponent) (by omega)
    omega
  · rw [← heq]
    have := nearestQuotient_mono hmn (roundExponent m e - e).toNat
    omega

/-- A magnitude is rounded to one place, however far its mantissa was shifted to the left. -/
theorem nearestPlace_scaled (hm : m ≠ 0) (he : e ≤ roundExponent m e) (j : Nat) :
    nearestPlace (m * 2 ^ j) (e - j) = nearestPlace m e := by
  have hexponent : roundExponent (m * 2 ^ j) (e - j) = roundExponent m e := by
    unfold roundExponent
    rw [log2_scaled hm]
    omega
  have hshift : (roundExponent m e - (e - j)).toNat = j + (roundExponent m e - e).toNat := by omega
  unfold nearestPlace
  rw [hexponent, hshift, nearestQuotient_scaled]

/-! ## What a magnitude is rounded to -/

theorem roundExponent_of_lt {r : Nat} {t : Int} (hr : r < 2 ^ 53) (ht : -1074 ≤ t) :
    roundExponent r t ≤ t := by
  have hwidth : r.log2 ≤ 52 := by
    rcases eq_or_ne r 0 with rfl | hne
    · decide
    · have := (Nat.log2_lt hne).mpr hr
      omega
  unfold roundExponent
  omega

/-- A mantissa that is narrow enough is not shifted. -/
theorem shiftToTargetExponent_of_lt {r : Nat} {t : Int} (hr : r < 2 ^ 53) (ht : -1074 ≤ t) :
    shiftToTargetExponent Format.binary64 r t .exact = (.ofMantissaAndAccuracy r .exact, t) := by
  have hle := roundExponent_of_lt hr ht
  have hshift : (roundExponent r t - t).toNat = 0 := by omega
  rw [shiftToTargetExponent, targetExponent_eq, shiftToExponent]
  simp only [hshift, Nat.cast_zero, add_zero]
  rfl

/-- The first shift leaves the quotient, at the exponent at which the magnitude is rounded. -/
theorem shiftToTargetExponent_eq (accuracy : Accuracy) (he : e ≤ roundExponent m e) :
    shiftToTargetExponent Format.binary64 m e accuracy =
      ((ExtendedMantissa.ofMantissaAndAccuracy m accuracy) >>> (roundExponent m e - e).toNat,
        roundExponent m e) := by
  have hexponent : e + ((roundExponent m e - e).toNat : Int) = roundExponent m e := by omega
  rw [shiftToTargetExponent, targetExponent_eq, shiftToExponent]
  simp only [hexponent]

/-- What a rounded mantissa stands for: one that has grown by a digit is shifted once more. -/
def settled (s : Sign) (r : Nat) (t : Int) : UnpackedFloat :=
  let shifted := shiftToTargetExponent Format.binary64 r t .exact
  if h : shifted.1.mantissa = 0 then .zero s
  else .finite s shifted.1.mantissa shifted.2 (Nat.pos_of_ne_zero h)

theorem roundWithAccuracy_eq (s : Sign) (accuracy : Accuracy) (he : e ≤ roundExponent m e) :
    roundWithAccuracy Format.binary64 s m e accuracy =
      settled s ((ExtendedMantissa.ofMantissaAndAccuracy m accuracy) >>>
        (roundExponent m e - e).toNat).roundedMantissa (roundExponent m e) := by
  simp only [roundWithAccuracy, shiftToTargetExponent_eq accuracy he]
  rfl

theorem settled_of_lt {s : Sign} {r : Nat} {t : Int} (hr : r < 2 ^ 53) (ht : -1074 ≤ t) :
    settled s r t = if h : r = 0 then .zero s else .finite s r t (Nat.pos_of_ne_zero h) := by
  have hmantissa : (ExtendedMantissa.ofMantissaAndAccuracy r .exact).mantissa = r := rfl
  simp only [settled, shiftToTargetExponent_of_lt hr ht, hmantissa]

/-- Nothing is lost when a mantissa that has grown by a digit is shifted once more. -/
theorem settled_grown {s : Sign} {t : Int} (ht : -1074 ≤ t) :
    settled s (2 ^ 53) t = .finite s (2 ^ 52) (t + 1) (by decide) := by
  have hshift := @shiftToTargetExponent_scaled (2 ^ 52) 1 (t + 1) (by decide) (by decide) (by omega)
  have hexponent : t + 1 - ((1 : Nat) : Int) = t := by omega
  have hdigit : 2 ^ 52 * 2 ^ 1 = 2 ^ 53 := rfl
  have hmantissa : (ExtendedMantissa.ofMantissaAndAccuracy (2 ^ 52) .exact).mantissa = 2 ^ 52 := rfl
  have hne : ¬ 2 ^ 52 = 0 := by decide
  rw [hexponent, hdigit] at hshift
  simp only [settled, hshift, hmantissa, dif_neg hne]

/-- A mantissa of full width, or at the least exponent, stands for itself, also if it has grown by a
    digit. -/
theorem settled_spec {s : Sign} {r : Nat} {t : Int} (hleast : -1074 ≤ t) (hhigh : r ≤ 2 ^ 53)
    (hlow : t ≠ -1074 → 2 ^ 52 ≤ r) :
    IsRounded (settled s r t) ∧ sign (settled s r t) = s ∧ (settled s r t).isFinite = true ∧
      place (settled s r t) = (t + 1074).toNat * 2 ^ 52 + r := by
  rcases hhigh.lt_or_eq with hlt | rfl
  · rw [settled_of_lt hlt hleast]
    have hfull : 2 ^ 52 ≤ r ∨ t = -1074 := by
      by_cases ht : t = -1074
      · exact .inr ht
      · exact .inl (hlow ht)
    split_ifs with hzero
    · refine ⟨trivial, rfl, rfl, ?_⟩
      simp only [place]
      omega
    · exact ⟨⟨hlt, hleast, hfull⟩, rfl, rfl, rfl⟩
  · rw [settled_grown hleast]
    refine ⟨⟨by decide, by omega, .inl le_rfl⟩, rfl, rfl, ?_⟩
    simp only [place]
    omega

/-- What a magnitude is rounded to is rounded, keeps its sign, is finite and has its place. -/
theorem roundWithAccuracy_spec (s : Sign) (hm : m ≠ 0) (he : e ≤ roundExponent m e) :
    IsRounded (roundWithAccuracy Format.binary64 s m e .exact) ∧
      sign (roundWithAccuracy Format.binary64 s m e .exact) = s ∧
      (roundWithAccuracy Format.binary64 s m e .exact).isFinite = true ∧
      place (roundWithAccuracy Format.binary64 s m e .exact) = nearestPlace m e := by
  rw [roundWithAccuracy_eq s .exact he]
  exact settled_spec (le_max_right _ _) (nearestQuotient_le m e) (le_nearestQuotient hm he)

/-! ## What is stored of a number -/

variable {u : UnpackedFloat}

theorem isNaN_of_isFinite (h : u.isFinite = true) : u.isNaN = false := by
  cases u <;> first | rfl | cases h

theorem toNat_signBitVec (s : Sign) : s.toBitVec.toNat * 2 ^ 63 = signBit s := by
  cases s <;> rfl

theorem toNat_append (s : Sign) (exponent : BitVec 11) (mantissa : BitVec 52) :
    (s.toBitVec ++ exponent ++ mantissa).toNat =
      signBit s + exponent.toNat * 2 ^ 52 + mantissa.toNat := by
  rw [BitVec.toNat_append, ← Nat.shiftLeft_add_eq_or_of_lt mantissa.isLt, BitVec.toNat_append,
    ← Nat.shiftLeft_add_eq_or_of_lt exponent.isLt, Nat.shiftLeft_eq, Nat.shiftLeft_eq,
    ← toNat_signBitVec, add_mul, mul_assoc, ← pow_add]

theorem toNat_packComponents (s : Sign) (exponent : BitVec Format.binary64.exponentBits)
    (mantissa : BitVec Format.binary64.mantissaBitsWithoutImplicit) :
    (packComponents Format.binary64 s exponent mantissa).toNat =
      signBit s + exponent.toNat * 2 ^ 52 + mantissa.toNat :=
  toNat_append s exponent mantissa

/-- The bits of a rounded number are its sign and its place, the place of infinity at most. -/
theorem toNat_pack (hu : IsRounded u) (hnan : u.isNaN = false) :
    (UnpackedFloat.pack Format.binary64 u).toNat =
      signBit (sign u) + min (place u) infinitePlace := by
  have hinfinite (s : Sign) :
      (packedInfinity Format.binary64 s).toNat = signBit s + infinitePlace :=
    toNat_packComponents s _ _
  cases u with
  | notANumber => cases hnan
  | infinity s =>
    simp only [UnpackedFloat.pack, hinfinite, sign, place, min_self]
  | zero s =>
    show (packComponents Format.binary64 s 0 0).toNat = _
    rw [toNat_packComponents]
    rfl
  | finite s m e hm =>
    obtain ⟨hwidth, hleast, hfull⟩ := hu
    have hbias : e + (Format.binary64.exponentBias : Int) +
        (Format.binary64.mantissaBitsWithoutImplicit : Int) = e + 1075 := by
      show e + 1023 + 52 = e + 1075
      omega
    have hlog : m.log2 + 1 = Format.binary64.mantissaBits ↔ 2 ^ 52 ≤ m := by
      have hlow := Nat.le_log2 hm.ne' (k := 52)
      have hhigh := Nat.log2_lt hm.ne' (k := 53)
      show m.log2 + 1 = 53 ↔ 2 ^ 52 ≤ m
      omega
    have hroom : 2 ^ Format.binary64.exponentBits ≤ (e + 1075).toNat + 1 ↔ 972 ≤ e := by
      show 2 ^ 11 ≤ (e + 1075).toNat + 1 ↔ 972 ≤ e
      omega
    unfold UnpackedFloat.pack
    simp only [hbias, hlog, hroom, sign, place, infinitePlace]
    split_ifs with hlarge hnormal
    · rw [hinfinite, infinitePlace]
      omega
    · rw [toNat_packComponents, BitVec.toNat_ofNat, BitVec.toNat_ofNat]
      show signBit s + (e + 1075).toNat % 2 ^ 11 * 2 ^ 52 + m % 2 ^ 52 = _
      omega
    · rw [toNat_packComponents, BitVec.toNat_ofNat, BitVec.toNat_ofNat]
      show signBit s + 0 % 2 ^ 11 * 2 ^ 52 + m % 2 ^ 52 = _
      omega

theorem number_pack (hu : IsRounded u) (hnan : u.isNaN = false) :
    sign (number ⟨Float.Model.pack u⟩) = sign u ∧
      place (number ⟨Float.Model.pack u⟩) = min (place u) infinitePlace := by
  have hbits : signBit (sign (number ⟨Float.Model.pack u⟩)) + place (number ⟨Float.Model.pack u⟩) =
      signBit (sign u) + min (place u) infinitePlace :=
    (toNat_toBits ⟨Float.Model.pack u⟩).symm.trans (toNat_pack hu hnan)
  have hlast := place_le_lastPlace ⟨Float.Model.pack u⟩
  have hfits : lastPlace < 2 ^ 63 := by decide
  have hinfinite : infinitePlace < 2 ^ 63 := by decide
  generalize number ⟨Float.Model.pack u⟩ = v at hbits hlast ⊢
  cases hv : sign v <;> cases hsign : sign u <;> rw [hv, hsign] at hbits <;>
    simp only [signBit] at hbits <;> simp <;> omega

/-! ## Products -/

/-- A finite magnitude in units of the least one. -/
def units : UnpackedFloat → Nat
  | .finite _ m e _ => m * 2 ^ (e + 1074).toNat
  | _ => 0

variable {v : UnpackedFloat}

theorem units_zero (s : Sign) : units (.zero s) = 0 := rfl

theorem units_mono (hu : IsRounded u) (hv : IsRounded v) (hulimit : u.isFinite = true)
    (hvlimit : v.isFinite = true) (h : place u ≤ place v) : units u ≤ units v := by
  cases u with
  | notANumber => cases hulimit
  | infinity s => cases hulimit
  | zero s => exact Nat.zero_le _
  | finite s m d hm =>
    cases v with
    | notANumber => cases hvlimit
    | infinity t => cases hvlimit
    | zero t =>
      simp only [place] at h
      omega
    | finite t n e hn =>
      obtain ⟨hmwidth, hmleast, hmfull⟩ := hu
      obtain ⟨hnwidth, hnleast, hnfull⟩ := hv
      simp only [place] at h
      simp only [units]
      rcases lt_trichotomy d e with hlt | rfl | hgt
      · -- the higher exponent makes up for a mantissa of one more digit
        obtain ⟨k, hk⟩ : ∃ k, (e + 1074).toNat = k + 1 + (d + 1074).toNat :=
          ⟨(e - d).toNat - 1, by omega⟩
        have hdouble : m ≤ n * 2 := by omega
        calc m * 2 ^ (d + 1074).toNat ≤ n * 2 * 2 ^ (d + 1074).toNat := by gcongr
          _ ≤ n * 2 * 2 ^ (d + 1074).toNat * 2 ^ k := Nat.le_mul_of_pos_right _ (by positivity)
          _ = n * 2 ^ (e + 1074).toNat := by rw [hk]; ring
      · have : m ≤ n := by omega
        gcongr
      · omega

theorem nearestPlace_zero : nearestPlace 0 (-2148) = 0 := by
  have hquotient := nearestQuotient_self 0 1074
  have hexponent : roundExponent 0 (-2148) = -1074 := by decide
  have hshift : (-1074 - (-2148) : Int).toNat = 1074 := by decide
  rw [Nat.zero_mul] at hquotient
  rw [nearestPlace, hexponent, hshift, hquotient]
  decide

/-- A product that exists and has an infinite factor is infinite. -/
theorem mul_of_not_isFinite (h : ¬ (u.isFinite = true ∧ v.isFinite = true))
    (hnan : (UnpackedFloat.mul Format.binary64 u v).isNaN = false) :
    UnpackedFloat.mul Format.binary64 u v = .infinity (sign u * sign v) := by
  rcases u with _ | _ | _ | _ <;> rcases v with _ | _ | _ | _ <;>
    simp [UnpackedFloat.mul, UnpackedFloat.isFinite, UnpackedFloat.isNaN, sign] at h hnan ⊢

/-- A product of rounded mantissas is wide enough to be rounded by shifting it to the right. -/
theorem le_roundExponent_mul {m n : Nat} {d e : Int} (hm : 0 < m) (hn : 0 < n)
    (hmfull : 2 ^ 52 ≤ m ∨ d = -1074) (hnfull : 2 ^ 52 ≤ n ∨ e = -1074) :
    d + e ≤ roundExponent (m * n) (d + e) := by
  have hwide (h : 2 ^ 52 ≤ m * n) : d + e ≤ roundExponent (m * n) (d + e) := by
    have hlog := (Nat.le_log2 (Nat.mul_pos hm hn).ne').mpr h
    unfold roundExponent
    omega
  rcases hmfull with hm' | rfl
  · exact hwide (hm'.trans (Nat.le_mul_of_pos_right m hn))
  · rcases hnfull with hn' | rfl
    · exact hwide (hn'.trans (Nat.le_mul_of_pos_left n hm))
    · have : -1074 ≤ roundExponent (m * n) (-1074 + -1074) := le_max_right _ _
      omega

/-- A product of finite numbers has the place of the product of their magnitudes. -/
theorem mul_spec (hu : IsRounded u) (hv : IsRounded v) (hulimit : u.isFinite = true)
    (hvlimit : v.isFinite = true) :
    IsRounded (UnpackedFloat.mul Format.binary64 u v) ∧
      sign (UnpackedFloat.mul Format.binary64 u v) = sign u * sign v ∧
      (UnpackedFloat.mul Format.binary64 u v).isFinite = true ∧
      place (UnpackedFloat.mul Format.binary64 u v) =
        nearestPlace (units u * units v) (-2148) := by
  cases u with
  | notANumber => cases hulimit
  | infinity s => cases hulimit
  | zero s =>
    cases v with
    | notANumber => cases hvlimit
    | infinity t => cases hvlimit
    | zero t =>
      rw [units_zero, Nat.zero_mul, nearestPlace_zero]
      exact ⟨trivial, rfl, rfl, rfl⟩
    | finite t n e hn =>
      rw [units_zero, Nat.zero_mul, nearestPlace_zero]
      exact ⟨trivial, rfl, rfl, rfl⟩
  | finite s m d hm =>
    cases v with
    | notANumber => cases hvlimit
    | infinity t => cases hvlimit
    | zero t =>
      rw [units_zero, Nat.mul_zero, nearestPlace_zero]
      exact ⟨trivial, rfl, rfl, rfl⟩
    | finite t n e hn =>
      have hmn : m * n ≠ 0 := (Nat.mul_pos hm hn).ne'
      have hexponent := le_roundExponent_mul hm hn hu.2.2 hv.2.2
      have hunits : m * 2 ^ (d + 1074).toNat * (n * 2 ^ (e + 1074).toNat) =
          m * n * 2 ^ (d + e + 2148).toNat := by
        have hpow : (d + e + 2148).toNat = (d + 1074).toNat + (e + 1074).toNat := by
          have := hu.2.1
          have := hv.2.1
          omega
        rw [hpow]
        ring
      have hscaled : (-2148 : Int) = d + e - ((d + e + 2148).toNat : Nat) := by
        have := hu.2.1
        have := hv.2.1
        omega
      obtain ⟨hrounded, hsign, hfinite, hplace⟩ := roundWithAccuracy_spec (s * t) hmn hexponent
      refine ⟨hrounded, hsign, hfinite, hplace.trans ?_⟩
      rw [units, units, hunits, hscaled, nearestPlace_scaled hmn hexponent]

/-- The only products of numbers that do not exist are those of zero and infinity. -/
theorem factors_of_isNaN_mul (hu : IsRounded u) (hv : IsRounded v) (hunan : u.isNaN = false)
    (hvnan : v.isNaN = false) (h : (UnpackedFloat.mul Format.binary64 u v).isNaN = true) :
    (∃ s, u = .zero s) ∨ ∃ s t, u = .infinity s ∧ v = .zero t := by
  cases u with
  | notANumber => cases hunan
  | zero s => exact .inl ⟨s, rfl⟩
  | infinity s =>
    cases v with
    | notANumber => cases hvnan
    | infinity t => cases h
    | zero t => exact .inr ⟨s, t, rfl, rfl⟩
    | finite t n e hn => cases h
  | finite s m d hm =>
    cases v with
    | notANumber => cases hvnan
    | infinity t => cases h
    | zero t => cases h
    | finite t n e hn =>
      have hproduct := isNaN_of_isFinite (mul_spec hu hv rfl rfl).2.2.1
      rw [hproduct] at h
      cases h

/-! ## Multiplying keeps the order -/

variable {c x y : Float}

theorem number_mul (x y : Float) : number (x * y) =
    number ⟨Float.Model.pack (UnpackedFloat.mul Format.binary64 (number x) (number y))⟩ := rfl

theorem number_mul_spec
    (hnan : (UnpackedFloat.mul Format.binary64 (number x) (number y)).isNaN = false) :
    sign (number (x * y)) = sign (number x) * sign (number y) ∧
      place (number (x * y)) =
        if (number x).isFinite = true ∧ (number y).isFinite = true then
          min (nearestPlace (units (number x) * units (number y)) (-2148)) infinitePlace
        else infinitePlace := by
  rw [number_mul]
  split_ifs with hfinite
  · obtain ⟨hrounded, hsign, hlimit, hplace⟩ :=
      mul_spec (isRounded_number x) (isRounded_number y) hfinite.1 hfinite.2
    obtain ⟨hsign', hplace'⟩ := number_pack hrounded hnan
    exact ⟨hsign'.trans hsign, hplace'.trans (by rw [hplace])⟩
  · rw [mul_of_not_isFinite hfinite hnan]
    obtain ⟨hsign, hplace⟩ :=
      @number_pack (.infinity (sign (number x) * sign (number y))) trivial rfl
    exact ⟨hsign, hplace.trans (min_self _)⟩

/-- Rounding a product neither loses it nor makes up one that does not exist. -/
theorem isNaN_mul (x y : Float) :
    (x * y).isNaN = (UnpackedFloat.mul Format.binary64 (number x) (number y)).isNaN := by
  cases hnan : (UnpackedFloat.mul Format.binary64 (number x) (number y)).isNaN with
  | true =>
    have hnone : UnpackedFloat.mul Format.binary64 (number x) (number y) = .notANumber := by
      generalize UnpackedFloat.mul Format.binary64 (number x) (number y) = w at hnan
      cases w <;> first | rfl | cases hnan
    rw [← isNaN_number, number_mul, hnone]
    decide
  | false =>
    rw [← Bool.not_eq_true, isNaN_iff, (number_mul_spec hnan).2, Nat.not_lt]
    split_ifs
    · exact min_le_right _ _
    · exact le_rfl

theorem positive_mul (s : Sign) : .positive * s = s := by cases s <;> rfl

theorem sign_mul_comm (s t : Sign) : s * t = t * s := by cases s <;> cases t <;> rfl

theorem sign_mul_cancel {s t t' : Sign} (h : s * t = s * t') : t = t' := by
  cases s <;> cases t <;> cases t' <;> first | rfl | cases h

/-- The factors of a product may be swapped. -/
theorem float_mul_comm (x y : Float) : x * y = y * x := by
  have hswap : UnpackedFloat.mul Format.binary64 (number x) (number y) =
      UnpackedFloat.mul Format.binary64 (number y) (number x) := by
    cases number x <;> cases number y <;>
      simp only [UnpackedFloat.mul, sign_mul_comm, Nat.mul_comm, Int.add_comm]
  exact congrArg (fun u => (⟨Float.Model.pack u⟩ : Float)) hswap

/-- A product with a finite number other than zero exists. -/
theorem isNaN_mul_of_isFinite (hc : (number c).isFinite = true) (hpos : 0 < place (number c))
    (hx : x.isNaN = false) : (c * x).isNaN = false := by
  rw [isNaN_mul, ← Bool.not_eq_true]
  intro h
  rcases factors_of_isNaN_mul (isRounded_number c) (isRounded_number x) (isNaN_of_isFinite hc) hx h
    with ⟨s, hzero⟩ | ⟨s, t, hinfinite, -⟩
  · rw [hzero] at hpos
    exact lt_irrefl _ hpos
  · rw [hinfinite] at hc
    cases hc

/-- Multiplying by a number keeps the order of magnitudes. -/
theorem place_mul_mono (hx : (c * x).isNaN = false) (hy : (c * y).isNaN = false)
    (h : place (number x) ≤ place (number y)) :
    place (number (c * x)) ≤ place (number (c * y)) := by
  have hxlimit : place (number (c * x)) ≤ infinitePlace := by
    rw [← Nat.not_lt, ← isNaN_iff, hx]
    decide
  rw [isNaN_mul] at hx hy
  rw [(number_mul_spec hy).2]
  split_ifs with hfinite
  · obtain ⟨hc, hy'⟩ := hfinite
    have hx' := isFinite_iff.mpr (h.trans_lt (isFinite_iff.mp hy'))
    rw [(number_mul_spec hx).2, if_pos ⟨hc, hx'⟩]
    have hunits := units_mono (isRounded_number x) (isRounded_number y) hx' hy' h
    have hplace := @nearestPlace_mono _ _ (-2148) (Nat.mul_le_mul_left (units (number c)) hunits)
      ((by decide : (-2148 : Int) ≤ -1074).trans (le_max_right _ _))
    omega
  · exact hxlimit

theorem isFinite_of_mul_zero {s : Sign}
    (h : (UnpackedFloat.mul Format.binary64 u (.zero s)).isNaN = false) : u.isFinite = true := by
  cases u <;> first | rfl | cases h

theorem isFinite_of_zero_mul {s : Sign}
    (h : (UnpackedFloat.mul Format.binary64 (.zero s) u).isNaN = false) : u.isFinite = true := by
  cases u <;> first | rfl | cases h

/-- A factor that is zero leaves nothing of a product that exists. -/
theorem place_mul_of_zero (h : (x * y).isNaN = false)
    (hzero : place (number x) = 0 ∨ place (number y) = 0) : place (number (x * y)) = 0 := by
  rw [isNaN_mul] at h
  have hplace := (number_mul_spec h).2
  rcases hzero with hzero | hzero <;> obtain ⟨s, hs⟩ := exists_eq_zero hzero <;> rw [hs] at h hplace
  · rw [hplace, if_pos ⟨rfl, isFinite_of_zero_mul h⟩, units_zero, Nat.zero_mul, nearestPlace_zero,
      Nat.zero_min]
  · rw [hplace, if_pos ⟨isFinite_of_mul_zero h, rfl⟩, units_zero, Nat.mul_zero, nearestPlace_zero,
      Nat.zero_min]

/-- Opposite numbers have one place, and other than zero different signs. -/
theorem level_eq_neg_iff :
    level v = -level u ↔ place v = place u ∧ (place u = 0 ∨ sign v ≠ sign u) := by
  unfold level
  cases sign u <;> cases sign v <;> simp only [Sign.apply] <;> simp <;> omega

/-- The products with opposite numbers are opposites. -/
theorem level_mul_opposite (hx : (c * x).isNaN = false) (hy : (c * y).isNaN = false)
    (h : level (number y) = -level (number x)) :
    level (number (c * y)) = -level (number (c * x)) := by
  have hxsign := (number_mul_spec ((isNaN_mul c x).symm.trans hx)).1
  have hysign := (number_mul_spec ((isNaN_mul c y).symm.trans hy)).1
  obtain ⟨hplace, hopposite⟩ := level_eq_neg_iff.mp h
  refine level_eq_neg_iff.mpr
    ⟨le_antisymm (place_mul_mono hy hx hplace.le) (place_mul_mono hx hy hplace.ge), ?_⟩
  rcases hopposite with hzero | hsign
  · exact .inl (place_mul_of_zero hx (.inr hzero))
  · rw [hxsign, hysign]
    exact .inr fun hequal => hsign (sign_mul_cancel hequal)

/-- Multiplying by a number with a positive sign keeps the order. -/
theorem mul_le_mul_of_positive (hc : sign (number c) = .positive) (hx : (c * x).isNaN = false)
    (hy : (c * y).isNaN = false) (h : x ≤ y) : c * x ≤ c * y := by
  obtain ⟨hxnan, hynan⟩ := not_isNaN_of_le h
  have hlevel := (le_iff hxnan hynan).mp h
  rw [le_iff hx hy]
  have hxsign := (number_mul_spec ((isNaN_mul c x).symm.trans hx)).1
  have hysign := (number_mul_spec ((isNaN_mul c y).symm.trans hy)).1
  rw [hc, positive_mul] at hxsign hysign
  unfold level at hlevel ⊢
  rw [hxsign, hysign]
  cases hsx : sign (number x) <;> cases hsy : sign (number y) <;> rw [hsx, hsy] at hlevel <;>
    simp only [Sign.apply] at hlevel ⊢
  · have := @place_mul_mono c y x hy hx (by omega)
    omega
  · omega
  · have := place_mul_of_zero hx (.inr (by omega))
    have := place_mul_of_zero hy (.inr (by omega))
    omega
  · have := @place_mul_mono c x y hx hy (by omega)
    omega

/-! ## Counts of any size -/

/-- A count is rounded from a mantissa that is wider than that of any number. -/
theorem ofScientific_count {n : Nat} (hn : n ≠ 0) :
    UnpackedFloat.ofScientific Format.binary64 n 0 =
      roundWithAccuracy Format.binary64 .positive (n * 2 ^ 53) (-53) .exact := by
  have hlow : ¬ (0 : Int) > 2 ^ Format.binary64.exponentBits := by decide
  have hhigh : ¬ (0 : Int) < -((2 ^ Format.binary64.exponentBits : Int) + n.log2) := by
    show ¬ (0 : Int) < -((2 ^ 11 : Int) + n.log2)
    omega
  have hmantissa : n <<< Format.binary64.mantissaBits * 10 ^ (0 : Int).toNat = n * 2 ^ 53 := by
    rw [Nat.shiftLeft_eq]
    exact Nat.mul_one _
  have hexponent : -(Format.binary64.mantissaBits : Int) + 0 = -53 := by decide
  have hsign : Sign.positive * Sign.positive = .positive := rfl
  rw [UnpackedFloat.ofScientific, dif_neg hn, if_neg hlow, if_neg hhigh, if_pos le_rfl,
    UnpackedFloat.mul, hmantissa, hexponent, hsign]

theorem le_roundExponent_count {n : Nat} (hn : n ≠ 0) : -53 ≤ roundExponent (n * 2 ^ 53) (-53) := by
  have hwidth := log2_scaled hn 53
  unfold roundExponent
  omega

/-- A count that a mantissa does not hold is rounded to its place, infinity at most. -/
theorem place_ofCount {n : Nat} (hn : 2 ^ 53 ≤ n) :
    sign (number (ofCount n)) = .positive ∧
      place (number (ofCount n)) = min (nearestPlace (n * 2 ^ 53) (-53)) infinitePlace := by
  have hpos : n ≠ 0 := by omega
  have hlarge : ¬ (n < 2 ^ 53 ∧ 0 ≤ 22) := fun h => hn.not_gt h.1
  have hofCount : ofCount n =
      ⟨Float.Model.pack (UnpackedFloat.ofScientific Format.binary64 n 0)⟩ := by
    show Float.ofScientific n false 0 = _
    rw [Float.ofScientific, dif_neg hlarge]
    rfl
  have hmantissa : n * 2 ^ 53 ≠ 0 := by positivity
  obtain ⟨hrounded, hsign, hfinite, hplace⟩ :=
    roundWithAccuracy_spec .positive hmantissa (le_roundExponent_count hpos)
  rw [← ofScientific_count hpos] at hrounded hsign hfinite hplace
  obtain ⟨hsign', hplace'⟩ := number_pack hrounded (isNaN_of_isFinite hfinite)
  rw [hofCount, hsign', hplace', hsign, hplace]
  exact ⟨rfl, rfl⟩

/-- The number of a count has a positive sign, however large the count is. -/
theorem ofCount_spec (n : Nat) :
    sign (number (ofCount n)) = .positive ∧ (ofCount n).isNaN = false := by
  by_cases hlt : n < 2 ^ 53
  · rw [← isNaN_number, number, unpack_ofCount hlt]
    unfold unpackedCount
    split_ifs <;> exact ⟨rfl, rfl⟩
  · obtain ⟨hsign, hplace⟩ := place_ofCount (Nat.not_lt.mp hlt)
    rw [← Bool.not_eq_true, isNaN_iff, hplace, Nat.not_lt]
    exact ⟨hsign, min_le_right _ _⟩

/-- The larger of two counts that a mantissa does not hold has no lower place. -/
theorem place_ofCount_mono {m n : Nat} (hm : 2 ^ 53 ≤ m) (h : m ≤ n) :
    place (number (ofCount m)) ≤ place (number (ofCount n)) := by
  rw [(place_ofCount hm).2, (place_ofCount (hm.trans h)).2]
  have hpos : m ≠ 0 := by omega
  exact min_le_min_right _
    (nearestPlace_mono (Nat.mul_le_mul_right _ h) (le_roundExponent_count hpos))

/-- The number of the larger of two such counts is not the lower one. -/
theorem ofCount_mono {m n : Nat} (hm : 2 ^ 53 ≤ m) (h : m ≤ n) : ofCount m ≤ ofCount n := by
  obtain ⟨hmsign, hmnumber⟩ := ofCount_spec m
  obtain ⟨hnsign, hnnumber⟩ := ofCount_spec n
  rw [le_iff hmnumber hnnumber, level, level, hmsign, hnsign]
  exact Int.ofNat_le.mpr (place_ofCount_mono hm h)

end LoadBench.Binary64
