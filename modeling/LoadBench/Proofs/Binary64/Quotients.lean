import LoadBench.Proofs.Binary64.Rounding

/-!
# Quotients of binary64 numbers

A quotient of magnitudes is divided out as far as a mantissa reaches; of the remainder two bits are
kept, whether it is at least half of the divisor and whether anything is left beyond that. Dividing
further and shifting back gives the same two bits, so the rounded quotient does not depend on where
the division stops. It grows with the dividend and falls with the divisor.

Results:
* `quarters_ratio_mono`: the larger of two quotients does not have the lower whole part and bits.
* `shiftRight_ratio`: shifting takes back what was divided out further.
* `number_div_spec`: a quotient has the quotient of the signs, and the place of the quotient of the
  magnitudes, infinity at most.
* `place_div_mono`: a quotient grows with the dividend and falls with the divisor.
* `sign_div_of_positive`: a quotient of numbers with positive signs has a positive sign.
-/

namespace LoadBench.Binary64

open Float.Model Float.Model.UnpackedFloat

/-! ## The whole part of a quotient and two bits of its remainder -/

/-- A quotient as a mantissa, with the two bits for its remainder. -/
def ratio (n d : Nat) : ExtendedMantissa :=
  .ofMantissaAndAccuracy (n / d) (accuracyOfFraction (n % d) d)

variable {m n d n' d' : Nat}

theorem ratio_eq (n : Nat) (hd : 0 < d) : ratio n d =
    ⟨n / d, decide (d ≤ 2 * (n % d)), decide (n % d ≠ 0 ∧ 2 * (n % d) ≠ d)⟩ := by
  unfold ratio accuracyOfFraction
  split_ifs with hzero
  · simp [ExtendedMantissa.ofMantissaAndAccuracy, hzero, hd.ne']
  · rcases lt_trichotomy (2 * (n % d)) d with hlt | heq | hgt
    · rw [Nat.compare_eq_lt.mpr hlt]
      simp [ExtendedMantissa.ofMantissaAndAccuracy, hzero, hlt, hlt.ne]
    · rw [Nat.compare_eq_eq.mpr heq]
      simp [ExtendedMantissa.ofMantissaAndAccuracy, heq]
    · rw [Nat.compare_eq_gt.mpr hgt]
      simp [ExtendedMantissa.ofMantissaAndAccuracy, hzero, hgt.le, hgt.ne']

/-- A quotient that comes out even has no remainder. -/
theorem ratio_mul_self (m : Nat) (hd : 0 < d) :
    ratio (m * d) d = .ofMantissaAndAccuracy m .exact := by
  simp [ratio, accuracyOfFraction, Nat.mul_div_cancel m hd]

/-- A factor of both numbers does not change their quotient. -/
theorem ratio_mul_right {c : Nat} (n : Nat) (hd : 0 < d) (hc : 0 < c) :
    ratio (n * c) (d * c) = ratio n d := by
  have hzero : n % d * c = 0 ↔ n % d = 0 := by simp [hc.ne']
  have hhalf : d * c ≤ 2 * (n % d * c) ↔ d ≤ 2 * (n % d) := by
    rw [← mul_assoc, Nat.mul_le_mul_right_iff hc]
  have heven : 2 * (n % d * c) = d * c ↔ 2 * (n % d) = d := by
    rw [← mul_assoc, Nat.mul_left_inj hc.ne']
  simp only [ratio_eq _ hd, ratio_eq _ (Nat.mul_pos hd hc), Nat.mul_div_mul_right n d hc,
    Nat.mul_mod_mul_right, ne_eq, hzero, hhalf, heven]

/-! ## The order of quotients -/

/-- The two bits of a remainder, in quarters of the divisor. -/
def remainderQuarters (r d : Nat) : Nat :=
  if r = 0 then 0 else if 2 * r < d then 1 else if 2 * r = d then 2 else 3

theorem quarters_ratio (n : Nat) (hd : 0 < d) :
    quarters (ratio n d) = 4 * (n / d) + remainderQuarters (n % d) d := by
  rw [ratio_eq n hd, quarters, remainderQuarters]
  split_ifs with hzero hlt heq
  · simp [hzero, hd.ne']
  · simp [hzero, hlt, hlt.ne]
  · simp [heq]
  · have hgt : d < 2 * (n % d) := by omega
    simp [hzero, hgt.le, heq]

theorem remainderQuarters_mono {r r' : Nat} (hd : 0 < d) (hd' : 0 < d') (h : r * d' ≤ r' * d) :
    remainderQuarters r d ≤ remainderQuarters r' d' := by
  have hsome : r ≠ 0 → r' ≠ 0 := by
    rintro hr rfl
    have := Nat.mul_pos (Nat.pos_of_ne_zero hr) hd'
    omega
  have hhalf : d ≤ 2 * r → d' ≤ 2 * r' := by
    intro hle
    by_contra hlt
    have : 2 * r' * d < d' * d := Nat.mul_lt_mul_of_pos_right (by omega) hd
    have : d * d' ≤ 2 * r * d' := Nat.mul_le_mul_right _ hle
    nlinarith
  have habove : d < 2 * r → d' < 2 * r' := by
    intro hlt
    by_contra hle
    have : 2 * r' * d ≤ d' * d := Nat.mul_le_mul_right _ (by omega)
    have : d * d' < 2 * r * d' := Nat.mul_lt_mul_of_pos_right hlt hd'
    nlinarith
  unfold remainderQuarters
  split_ifs <;> omega

/-- The larger of two quotients does not have the lower whole part and bits. -/
theorem quarters_ratio_mono (hd : 0 < d) (hd' : 0 < d') (h : n * d' ≤ n' * d) :
    quarters (ratio n d) ≤ quarters (ratio n' d') := by
  have hn := Nat.div_add_mod n d
  have hn' := Nat.div_add_mod n' d'
  have hr := Nat.mod_lt n hd
  have hr' := Nat.mod_lt n' hd'
  have hbits : remainderQuarters (n % d) d ≤ 3 := by
    unfold remainderQuarters
    split_ifs <;> decide
  have hrest := @remainderQuarters_mono d d' (n % d) (n' % d') hd hd'
  rw [quarters_ratio n hd, quarters_ratio n' hd']
  generalize n / d = q at hn ⊢
  generalize n % d = r at hn hr hbits hrest ⊢
  generalize n' / d' = q' at hn' ⊢
  generalize n' % d' = r' at hn' hr' hrest ⊢
  subst hn hn'
  have hwhole : q ≤ q' := by
    by_contra hlt
    have : (q' + 1) * (d * d') ≤ q * (d * d') := Nat.mul_le_mul_right _ (by omega)
    have : (d' * q' + r') * d < (d' * q' + d') * d := Nat.mul_lt_mul_of_pos_right (by omega) hd
    nlinarith
  rcases hwhole.lt_or_eq with hlt | rfl
  · omega
  · have := hrest (by nlinarith)
    omega

/-! ## Dividing further -/

/-- Dividing out one more bit and shifting it back gives the same bits. -/
theorem shiftRightOne_ratio (n : Nat) (hd : 0 < d) :
    (ratio (n * 2) d).shiftRightOne = ratio n d := by
  have hn := Nat.div_add_mod n d
  have hr := Nat.mod_lt n hd
  rw [ratio_eq _ hd, ratio_eq _ hd, ExtendedMantissa.shiftRightOne]
  simp only
  generalize n / d = q at hn ⊢
  generalize n % d = r at hn hr ⊢
  subst hn
  rcases Nat.lt_or_ge (2 * r) d with hlt | hge
  · obtain ⟨hquotient, hrest⟩ : (d * q + r) * 2 / d = 2 * q ∧ (d * q + r) * 2 % d = 2 * r :=
      (Nat.div_mod_unique hd).mpr ⟨by ring, hlt⟩
    have hhalf : 2 * q / 2 = q := by omega
    have hround : (2 * q % 2 != 0) = decide (d ≤ 2 * r) := by simp [hlt]
    have hsticky : (decide (d ≤ 2 * (2 * r)) || decide (2 * r ≠ 0 ∧ 2 * (2 * r) ≠ d)) =
        decide (r ≠ 0 ∧ 2 * r ≠ d) := by
      rw [← Bool.decide_or, decide_eq_decide]
      omega
    rw [hquotient, hrest, hhalf, hround, hsticky]
  · obtain ⟨rest, hdouble⟩ := Nat.exists_eq_add_of_le hge
    obtain ⟨hquotient, hrest⟩ : (d * q + r) * 2 / d = 2 * q + 1 ∧ (d * q + r) * 2 % d = rest := by
      refine (Nat.div_mod_unique hd).mpr ⟨?_, by omega⟩
      calc rest + d * (2 * q + 1) = d * q * 2 + (d + rest) := by ring
        _ = (d * q + r) * 2 := by rw [← hdouble]; ring
    have hhalf : (2 * q + 1) / 2 = q := by omega
    have hround : ((2 * q + 1) % 2 != 0) = decide (d ≤ 2 * r) := by simp [hge]
    have hsticky : (decide (d ≤ 2 * rest) || decide (rest ≠ 0 ∧ 2 * rest ≠ d)) =
        decide (r ≠ 0 ∧ 2 * r ≠ d) := by
      rw [← Bool.decide_or, decide_eq_decide]
      omega
    rw [hquotient, hrest, hhalf, hround, hsticky]

/-- Shifting takes back what was divided out further. -/
theorem shiftRight_ratio (n k : Nat) (hd : 0 < d) : ratio (n * 2 ^ k) d >>> k = ratio n d := by
  show Nat.repeat ExtendedMantissa.shiftRightOne k _ = _
  induction k generalizing n with
  | zero => simp [Nat.repeat]
  | succ k ih =>
    have hsplit : n * 2 ^ (k + 1) = n * 2 * 2 ^ k := by ring
    rw [Nat.repeat, hsplit, ih, shiftRightOne_ratio n hd]

/-! ## The place that a quotient is rounded to -/

variable {k : Nat} {e : Int}

theorem rounded_ratio_mono (hd : 0 < d) (hd' : 0 < d') (h : n * d' ≤ n' * d) (k : Nat) :
    (ratio n d >>> k).roundedMantissa ≤ (ratio n' d' >>> k).roundedMantissa :=
  roundedMantissa_mono (shiftRight_mono (quarters_ratio_mono hd hd' h) k)

theorem rounded_ratio_mul_self (m k : Nat) (hd : 0 < d) :
    (ratio (m * 2 ^ k * d) d >>> k).roundedMantissa = m := by
  rw [ratio_mul_self _ hd]
  exact nearestQuotient_self m k

/-- The place of the number that the quotient `n / d`, times a power of two, is rounded to, were
    there no limit to the exponents. -/
def ratioPlace (n d : Nat) (e : Int) : Nat :=
  (roundExponent (n / d) e + 1074).toNat * 2 ^ 52 +
    (ratio n d >>> (roundExponent (n / d) e - e).toNat).roundedMantissa

theorem rounded_ratio_le (n : Nat) (hd : 0 < d) (e : Int) :
    (ratio n d >>> (roundExponent (n / d) e - e).toNat).roundedMantissa ≤ 2 ^ 53 := by
  obtain ⟨k, hk⟩ : ∃ k, (roundExponent (n / d) e - e).toNat = k := ⟨_, rfl⟩
  have hwidth : (n / d).log2 + 1 ≤ 53 + k := by
    unfold roundExponent at hk
    omega
  have hlt : n / d < 2 ^ 53 * 2 ^ k := by
    rw [← pow_add]
    exact Nat.lt_log2_self.trans_le (Nat.pow_le_pow_right (by norm_num) hwidth)
  have hle : n ≤ 2 ^ 53 * 2 ^ k * d := ((Nat.div_lt_iff_lt_mul hd).mp hlt).le
  rw [hk]
  exact (rounded_ratio_mono hd hd (Nat.mul_le_mul_right d hle) k).trans_eq
    (rounded_ratio_mul_self _ k hd)

theorem le_rounded_ratio (hd : 0 < d) (he : e ≤ roundExponent (n / d) e)
    (hleast : roundExponent (n / d) e ≠ -1074) :
    2 ^ 52 ≤ (ratio n d >>> (roundExponent (n / d) e - e).toNat).roundedMantissa := by
  obtain ⟨k, hk⟩ : ∃ k, (roundExponent (n / d) e - e).toNat = k := ⟨_, rfl⟩
  have hwidth : (n / d).log2 = 52 + k := by
    unfold roundExponent at hk he hleast
    omega
  have hle : 2 ^ 52 * 2 ^ k ≤ n / d := by
    rw [← pow_add, ← hwidth]
    refine Nat.log2_self_le fun hzero => ?_
    rw [hzero, Nat.log2_zero] at hwidth
    omega
  have hle' : 2 ^ 52 * 2 ^ k * d ≤ n := (Nat.le_div_iff_mul_le hd).mp hle
  rw [hk]
  exact (rounded_ratio_mul_self _ k hd).symm.trans_le
    (rounded_ratio_mono hd hd (Nat.mul_le_mul_right d hle') k)

/-- The larger of two quotients is not rounded to the lower place. -/
theorem ratioPlace_mono (hd : 0 < d) (hd' : 0 < d') (h : n * d' ≤ n' * d)
    (he : e ≤ roundExponent (n / d) e) : ratioPlace n d e ≤ ratioPlace n' d' e := by
  have hwhole : n / d ≤ n' / d' := by
    rw [Nat.le_div_iff_mul_le hd']
    refine Nat.le_of_mul_le_mul_right ?_ hd
    calc n / d * d' * d = n / d * d * d' := by ring
      _ ≤ n * d' := Nat.mul_le_mul_right _ (Nat.div_mul_le_self n d)
      _ ≤ n' * d := h
  have hlog : (n / d).log2 ≤ (n' / d').log2 := by
    rw [Nat.log2_eq_log_two, Nat.log2_eq_log_two]
    exact Nat.log_mono_right hwhole
  have hexponent : roundExponent (n / d) e ≤ roundExponent (n' / d') e := by
    unfold roundExponent
    omega
  have hleast : -1074 ≤ roundExponent (n / d) e := le_max_right _ _
  unfold ratioPlace
  rcases hexponent.lt_or_eq with hlt | heq
  · -- the smaller one stays below the quotients that are rounded at the higher exponent
    have hlow := rounded_ratio_le n hd e
    have hhigh := le_rounded_ratio hd' (he.trans hexponent) (by omega)
    omega
  · rw [← heq]
    have := rounded_ratio_mono hd hd' h (roundExponent (n / d) e - e).toNat
    omega

theorem log2_div_scaled (j : Nat) (hd : 0 < d) (hne : n / d ≠ 0) :
    (n * 2 ^ j / d).log2 = (n / d).log2 + j := by
  have hlow : 2 ^ (n / d).log2 * d ≤ n := (Nat.le_div_iff_mul_le hd).mp (Nat.log2_self_le hne)
  have hhigh : n < 2 ^ ((n / d).log2 + 1) * d := (Nat.div_lt_iff_lt_mul hd).mp Nat.lt_log2_self
  have hlow' : 2 ^ ((n / d).log2 + j) ≤ n * 2 ^ j / d := by
    rw [Nat.le_div_iff_mul_le hd]
    calc 2 ^ ((n / d).log2 + j) * d = 2 ^ (n / d).log2 * d * 2 ^ j := by ring
      _ ≤ n * 2 ^ j := Nat.mul_le_mul_right _ hlow
  have hhigh' : n * 2 ^ j / d < 2 ^ ((n / d).log2 + j + 1) := by
    rw [Nat.div_lt_iff_lt_mul hd]
    calc n * 2 ^ j < 2 ^ ((n / d).log2 + 1) * d * 2 ^ j :=
          Nat.mul_lt_mul_of_pos_right hhigh (by positivity)
      _ = 2 ^ ((n / d).log2 + j + 1) * d := by ring
  have hne' : n * 2 ^ j / d ≠ 0 := ((Nat.two_pow_pos _).trans_le hlow').ne'
  exact (Nat.log2_eq_iff hne').mpr ⟨hlow', hhigh'⟩

/-- The division may stop where the quotient has its full width, or at the least exponent. -/
def StopsWell (n d : Nat) (e : Int) : Prop :=
  e ≤ roundExponent (n / d) e ∧ (n / d ≠ 0 ∨ e ≤ -1074)

/-- A quotient is rounded to one place, however far it was divided out. -/
theorem ratioPlace_scaled (j : Nat) (hd : 0 < d) (h : StopsWell n d e) :
    ratioPlace (n * 2 ^ j) d (e - j) = ratioPlace n d e := by
  obtain ⟨he, hstop⟩ := h
  have hexponent : roundExponent (n * 2 ^ j / d) (e - j) = roundExponent (n / d) e := by
    by_cases hne : n / d = 0
    · have hlt : n * 2 ^ j / d < 2 ^ (j + 1) := by
        rw [Nat.div_lt_iff_lt_mul hd]
        have hnd : n < d := by
          rcases Nat.div_eq_zero_iff.mp hne with hzero | hlt
          · omega
          · exact hlt
        calc n * 2 ^ j ≤ d * 2 ^ j := Nat.mul_le_mul_right _ hnd.le
          _ < d * 2 ^ (j + 1) := Nat.mul_lt_mul_of_pos_left
            (Nat.pow_lt_pow_right (by norm_num) (Nat.lt_succ_self j)) hd
          _ = 2 ^ (j + 1) * d := Nat.mul_comm _ _
      have hlog : (n * 2 ^ j / d).log2 ≤ j := by
        by_cases hzero : n * 2 ^ j / d = 0
        · rw [hzero, Nat.log2_zero]
          exact Nat.zero_le j
        · exact Nat.lt_succ_iff.mp ((Nat.log2_lt hzero).mpr hlt)
      have hleast := hstop.resolve_left (not_not_intro hne)
      unfold roundExponent
      rw [hne, Nat.log2_zero]
      omega
    · unfold roundExponent
      rw [log2_div_scaled j hd hne]
      omega
  have hshift : (roundExponent (n / d) e - (e - j)).toNat =
      j + (roundExponent (n / d) e - e).toNat := by omega
  unfold ratioPlace
  rw [hexponent, hshift, shiftRight_add, shiftRight_ratio n j hd]

theorem ratioPlace_mul_right {c : Nat} (n : Nat) (hd : 0 < d) (hc : 0 < c) (e : Int) :
    ratioPlace (n * c) (d * c) e = ratioPlace n d e := by
  unfold ratioPlace
  rw [ratio_mul_right n hd hc, Nat.mul_div_mul_right n d hc]

theorem ratioPlace_zero (hd : 0 < d) : ratioPlace 0 d (-2148) = 0 := by
  have hexponent : roundExponent (0 / d) (-2148) = -1074 := by
    rw [Nat.zero_div]
    decide
  have hrounded := rounded_ratio_mul_self 0 1074 hd
  have hshift : (-1074 - (-2148) : Int).toNat = 1074 := by decide
  rw [Nat.zero_mul, Nat.zero_mul] at hrounded
  rw [ratioPlace, hexponent, hshift, hrounded]
  decide

/-- What a quotient is rounded to is rounded, keeps its sign, is finite and has its place. -/
theorem roundWithAccuracy_ratio (s : Sign) (hd : 0 < d) (he : e ≤ roundExponent (n / d) e) :
    let rounded := roundWithAccuracy Format.binary64 s (n / d) e (accuracyOfFraction (n % d) d)
    IsRounded rounded ∧ sign rounded = s ∧ rounded.isFinite = true ∧
      place rounded = ratioPlace n d e := by
  rw [roundWithAccuracy_eq s _ he]
  exact settled_spec (le_max_right _ _) (rounded_ratio_le n hd e) (le_rounded_ratio hd he)

/-! ## Quotients -/

variable {u v : UnpackedFloat}

/-- The division of two mantissas stops at the exponent of the quotient or before it. -/
theorem divCore_spec {d e : Int} (hm : 0 < m) (hn : 0 < n) (hd : -1074 ≤ d) (he : e ≤ 972) :
    ∃ stop : Int, divCore Format.binary64 m d n e =
        (m * 2 ^ (d - e - stop).toNat / n, stop,
          accuracyOfFraction (m * 2 ^ (d - e - stop).toNat % n) n) ∧
      -2148 ≤ stop ∧ stop ≤ d - e ∧ StopsWell (m * 2 ^ (d - e - stop).toNat) n stop := by
  have htarget : Format.binary64.targetExponent (totalExponent m d - totalExponent n e) =
      max ((m.log2 : Int) + d - (n.log2 + e) - 53) (-1074) := by
    simp only [Format.targetExponent, totalExponent, Format.mantissaBits, Format.minExponent]
    push_cast
    omega
  obtain ⟨stop, hstop⟩ : ∃ stop,
      min (d - e) (max ((m.log2 : Int) + d - (n.log2 + e) - 53) (-1074)) = stop := ⟨_, rfl⟩
  refine ⟨stop, ?_, by omega, by omega, ?_⟩
  · simp only [divCore, htarget, hstop, Nat.shiftLeft_eq]
  · obtain ⟨shift, hshift⟩ : ∃ shift : Nat, (d - e - stop).toNat = shift := ⟨_, rfl⟩
    rw [hshift]
    by_cases hlow : stop ≤ -1074
    · exact ⟨hlow.trans (le_max_right _ _), .inr hlow⟩
    · -- above the least exponent the quotient has its full width
      have hwidth : n.log2 + 53 ≤ (m * 2 ^ shift).log2 := by
        rw [log2_scaled hm.ne']
        omega
      have hwide : 2 ^ 52 ≤ m * 2 ^ shift / n := by
        rw [Nat.le_div_iff_mul_le hn]
        have hmne : m * 2 ^ shift ≠ 0 := (Nat.mul_pos hm (Nat.two_pow_pos _)).ne'
        calc 2 ^ 52 * n ≤ 2 ^ 52 * 2 ^ (n.log2 + 1) :=
              Nat.mul_le_mul_left _ Nat.lt_log2_self.le
          _ = 2 ^ (n.log2 + 53) := by ring
          _ ≤ m * 2 ^ shift := (Nat.le_log2 hmne).mp hwidth
      have hne : m * 2 ^ shift / n ≠ 0 := by omega
      have hlog := (Nat.le_log2 hne).mpr hwide
      refine ⟨?_, .inl hne⟩
      unfold roundExponent
      omega

/-- A quotient of finite numbers, the second of them not zero, has the place of the quotient of
    their magnitudes. -/
theorem div_spec (hu : IsRounded u) (hv : IsRounded v) (hulimit : u.isFinite = true)
    (hvlimit : place v < infinitePlace) (hvpos : 0 < place v) :
    IsRounded (UnpackedFloat.div Format.binary64 u v) ∧
      sign (UnpackedFloat.div Format.binary64 u v) = sign u / sign v ∧
      (UnpackedFloat.div Format.binary64 u v).isFinite = true ∧
      place (UnpackedFloat.div Format.binary64 u v) =
        ratioPlace (units u * 2 ^ 2148) (units v) (-2148) := by
  cases v with
  | notANumber => exact absurd hvlimit (by decide)
  | infinity t => exact absurd hvlimit (lt_irrefl _)
  | zero t => exact absurd hvpos (lt_irrefl _)
  | finite t n e hn =>
    have hunits : 0 < n * 2 ^ (e + 1074).toNat := Nat.mul_pos hn (Nat.two_pow_pos _)
    cases u with
    | notANumber => cases hulimit
    | infinity s => cases hulimit
    | zero s =>
      rw [units_zero, Nat.zero_mul, units, ratioPlace_zero hunits]
      exact ⟨trivial, rfl, rfl, rfl⟩
    | finite s m d hm =>
      have hd := hu.2.1
      have he := hv.2.1
      have hroom : e ≤ 972 := by
        simp only [place, infinitePlace] at hvlimit
        omega
      obtain ⟨stop, hcore, hlow, hhigh, hwell⟩ := divCore_spec hm hn hd hroom
      obtain ⟨j, hj⟩ : ∃ j : Nat, (j : Int) = stop + 2148 := ⟨(stop + 2148).toNat, by omega⟩
      -- both magnitudes in units of the least number
      have hscale : units (.finite s m d hm) * 2 ^ 2148 =
          m * 2 ^ (d - e - stop).toNat * 2 ^ j * 2 ^ (e + 1074).toNat := by
        have hpow : (d + 1074).toNat + 2148 = (d - e - stop).toNat + j + (e + 1074).toNat := by
          omega
        rw [units, mul_assoc, ← pow_add, hpow]
        ring
      have hexponent : (-2148 : Int) = stop - j := by omega
      obtain ⟨hrounded, hsign, hfinite, hplace⟩ := roundWithAccuracy_ratio (s / t) hn hwell.1
      rw [UnpackedFloat.div, hcore]
      refine ⟨hrounded, hsign, hfinite, hplace.trans ?_⟩
      rw [hscale, units, ratioPlace_mul_right _ hn (Nat.two_pow_pos _), hexponent,
        ratioPlace_scaled j hn hwell]

variable {x y x' y' : Float}

theorem number_div (x y : Float) : number (x / y) =
    number ⟨Float.Model.pack (UnpackedFloat.div Format.binary64 (number x) (number y))⟩ := rfl

theorem number_div_spec (hx : (number x).isFinite = true) (hy : (number y).isFinite = true)
    (hpos : 0 < place (number y)) :
    sign (number (x / y)) = sign (number x) / sign (number y) ∧
      place (number (x / y)) = min
        (ratioPlace (units (number x) * 2 ^ 2148) (units (number y)) (-2148)) infinitePlace := by
  obtain ⟨hrounded, hsign, hfinite, hplace⟩ :=
    div_spec (isRounded_number x) (isRounded_number y) hx (isFinite_iff.mp hy) hpos
  obtain ⟨hsign', hplace'⟩ := number_pack hrounded (isNaN_of_isFinite hfinite)
  rw [number_div]
  exact ⟨hsign'.trans hsign, hplace'.trans (by rw [hplace])⟩

theorem units_pos (hfinite : u.isFinite = true) (h : 0 < place u) : 0 < units u := by
  cases u with
  | notANumber => cases hfinite
  | infinity s => cases hfinite
  | zero s => exact absurd h (lt_irrefl _)
  | finite s m e hm => exact Nat.mul_pos hm (Nat.two_pow_pos _)

/-- Dividing by what is not negative keeps the sign. -/
theorem sign_div (hx : (number x).isFinite = true) (hy : (number y).isFinite = true)
    (hnonneg : 0.0 ≤ y) (hpos : 0 < place (number y)) :
    sign (number (x / y)) = sign (number x) := by
  rw [(number_div_spec hx hy hpos).1, sign_of_nonneg hnonneg hpos]
  cases sign (number x) <;> rfl

theorem place_div_of_zero (hy : (number y).isFinite = true) (hpos : 0 < place (number y))
    (hzero : place (number x) = 0) : place (number (x / y)) = 0 := by
  obtain ⟨s, hs⟩ := exists_eq_zero hzero
  have hx : (number x).isFinite = true := by
    rw [hs]
    rfl
  rw [(number_div_spec hx hy hpos).2, hs, units_zero, Nat.zero_mul,
    ratioPlace_zero (units_pos hy hpos), Nat.zero_min]

/-- A quotient grows with the dividend and falls with the divisor. -/
theorem place_div_mono (hx' : (number x').isFinite = true) (hy : (number y).isFinite = true)
    (hpos : 0 < place (number y')) (hnum : place (number x) ≤ place (number x'))
    (hden : place (number y') ≤ place (number y)) :
    place (number (x / y)) ≤ place (number (x' / y')) := by
  have hx := isFinite_iff.mpr (hnum.trans_lt (isFinite_iff.mp hx'))
  have hy' := isFinite_iff.mpr (hden.trans_lt (isFinite_iff.mp hy))
  have hposy := hpos.trans_le hden
  have hunits := units_mono (isRounded_number x) (isRounded_number x') hx hx' hnum
  have hunits' := units_mono (isRounded_number y') (isRounded_number y) hy' hy hden
  rw [(number_div_spec hx hy hposy).2, (number_div_spec hx' hy' hpos).2]
  refine min_le_min_right _ (ratioPlace_mono (units_pos hy hposy) (units_pos hy' hpos) ?_ ?_)
  · exact Nat.mul_le_mul (Nat.mul_le_mul_right _ hunits) hunits'
  · exact (by decide : (-2148 : Int) ≤ -1074).trans (le_max_right _ _)

/-! ## Positive signs -/

/-- What has a positive sign keeps it when it is stored. -/
theorem sign_pack_of_positive (hu : IsRounded u) (h : sign u = .positive) :
    sign (number ⟨Float.Model.pack u⟩) = .positive := by
  cases hnan : u.isNaN with
  | false => exact (number_pack hu hnan).1.trans h
  | true =>
    obtain rfl : u = .notANumber := by cases u <;> first | rfl | cases hnan
    rfl

theorem sign_abs (x : Float) : sign (number x.abs) = .positive := by
  have hrounded := isRounded_number x
  show sign (number ⟨Float.Model.pack (number x).abs⟩) = .positive
  cases hx : number x <;> rw [hx] at hrounded <;> exact sign_pack_of_positive hrounded rfl

/-- A quotient of numbers with positive signs has a positive sign, also where one of them is
    infinite or the divisor is zero. -/
theorem sign_div_of_positive (hx : sign (number x) = .positive) (hy : sign (number y) = .positive) :
    sign (number (x / y)) = .positive := by
  by_cases hboth : (number x).isFinite = true ∧ (number y).isFinite = true ∧ 0 < place (number y)
  · obtain ⟨hxlimit, hylimit, hpos⟩ := hboth
    rw [(number_div_spec hxlimit hylimit hpos).1, hx, hy]
    rfl
  · rw [number_div]
    cases hu : number x <;> cases hv : number y <;> rw [hu] at hx hboth <;>
      rw [hv] at hy hboth <;> cases hx <;> cases hy <;>
      first
      | exact sign_pack_of_positive trivial rfl
      | exact absurd ⟨rfl, rfl, by simp only [place]; omega⟩ hboth

end LoadBench.Binary64
