import LoadBench.Measure.Statistics
import LoadBench.Proofs.Binary64.Rounding

/-!
# Ranks of shares

The rank of a share of `n` samples is the integer part of the rounded product of `n` and the share.
Rounding keeps the order of products and so does taking the integer part, and a product that does
not exist has rank zero: the larger share never has the lower rank. Past the last sample the rank is
held at the last one, so a rank never leaves the samples.

Results:
* `rank_mono`: the larger of two shares does not have the lower rank.
* `exists_atShare?`, `atShare?_mono`: there is a sample at every share, and in ascending samples the
  larger share has no smaller sample.
-/

namespace LoadBench.Statistics

open Binary64 Float.Model Float.Model.UnpackedFloat

/-! ## Integer parts -/

variable {x y p q : Float}

/-- The integer part of a number as a counter; zero for what is negative or not a number. -/
def index (x : Float) : Nat :=
  match dyad? x with
  | some d => Counter.saturate d.floor
  | none => if x.isNaN || isNegative x then 0 else Counter.largest

theorem rank_eq_index (n : Nat) (p : Float) : rank n p = index (ofCount n * p) := rfl

theorem index_of_isNaN (h : x.isNaN = true) : index x = 0 := by
  have hnone : dyad? x = none := by
    rw [← isNaN_number] at h
    rw [dyad?_eq]
    cases hx : number x <;> rw [hx] at h <;> first | rfl | cases h
  rw [index, hnone, h]
  rfl

theorem saturate_neg (n : Nat) : Counter.saturate (-(n : Int)) = 0 := by
  have : (-(n : Int)).toNat = 0 := by omega
  rw [Counter.saturate, this, Nat.zero_min]

theorem index_of_negative (h : sign (number x) = .negative) : index x = 0 := by
  have hnegative := (isNegative_iff x).mpr h
  have hdyad := dyad?_eq x
  cases hx : number x with
  | notANumber => rw [hx] at h; cases h
  | infinity s =>
    rw [hx] at hdyad
    rw [index, hdyad, hnegative, Bool.or_true]
    rfl
  | zero s =>
    rw [hx] at h hdyad
    obtain rfl : s = .negative := h
    rw [index, hdyad]
    rfl
  | finite s m e hm =>
    rw [hx] at h hdyad
    obtain rfl : s = .negative := h
    rw [index, hdyad]
    exact saturate_neg _

/-- The integer part of a magnitude, counted in units of the least magnitude. -/
theorem whole_eq {m : Nat} {e : Int} (negative : Bool) (he : -1074 ≤ e) :
    (Dyad.mk negative m e).whole = m * 2 ^ (e + 1074).toNat / 2 ^ 1074 := by
  unfold Dyad.whole
  dsimp only
  split_ifs with hpos
  · have hexponent : (e + 1074).toNat = e.toNat + 1074 := by omega
    rw [hexponent, pow_add, ← mul_assoc, Nat.mul_div_cancel _ (by positivity), Nat.shiftLeft_eq]
  · obtain ⟨j, k, hj, hk, hsum⟩ : ∃ j k, (e + 1074).toNat = j ∧ (-e).toNat = k ∧ 1074 = k + j :=
      ⟨_, _, rfl, rfl, by omega⟩
    rw [hj, hk, hsum, pow_add, Nat.mul_div_mul_right _ _ (by positivity), Nat.shiftRight_eq_div_pow]

theorem index_of_positive (h : sign (number x) = .positive) (hnan : x.isNaN = false) :
    index x = if (number x).isFinite = true then
      min (units (number x) / 2 ^ 1074) Counter.largest else Counter.largest := by
  have hnegative : isNegative x = false := by
    rw [← Bool.not_eq_true, isNegative_iff, h]
    nofun
  have hdyad := dyad?_eq x
  have hrounded := isRounded_number x
  cases hx : number x with
  | notANumber => rw [← isNaN_number, hx] at hnan; cases hnan
  | infinity s =>
    rw [hx] at hdyad
    rw [index, hdyad, hnan, hnegative]
    rfl
  | zero s =>
    rw [hx] at h hdyad
    obtain rfl : s = .positive := h
    rw [index, hdyad, units_zero, Nat.zero_div, Nat.zero_min]
    rfl
  | finite s m e hm =>
    rw [hx] at h hdyad hrounded
    obtain rfl : s = .positive := h
    rw [index, hdyad]
    show min (Dyad.mk false m e).whole Counter.largest = _
    rw [whole_eq false hrounded.2.1]
    rfl

theorem index_of_zero (h : place (number x) = 0) : index x = 0 := by
  obtain ⟨s, hs⟩ := exists_eq_zero h
  rw [index, dyad?_eq, hs]
  cases s <;> rfl

/-- The larger of two numbers does not have the lower integer part. -/
theorem index_mono (h : x ≤ y) : index x ≤ index y := by
  obtain ⟨hxnan, hynan⟩ := not_isNaN_of_le h
  have hlevel := (le_iff hxnan hynan).mp h
  unfold level at hlevel
  cases hx : sign (number x) with
  | negative =>
    rw [index_of_negative hx]
    exact Nat.zero_le _
  | positive =>
    cases hy : sign (number y) with
    | negative =>
      -- only the zeros are on both sides of zero
      rw [hx, hy] at hlevel
      simp only [Sign.apply] at hlevel
      rw [index_of_zero (by omega)]
      exact Nat.zero_le _
    | positive =>
      rw [hx, hy] at hlevel
      simp only [Sign.apply] at hlevel
      have hplace : place (number x) ≤ place (number y) := by omega
      rw [index_of_positive hx hxnan, index_of_positive hy hynan]
      by_cases hyfinite : (number y).isFinite = true
      · have hxfinite := isFinite_iff.mpr (hplace.trans_lt (isFinite_iff.mp hyfinite))
        have hunits := units_mono (isRounded_number x) (isRounded_number y) hxfinite hyfinite hplace
        rw [if_pos hxfinite, if_pos hyfinite]
        exact min_le_min_right _ (Nat.div_le_div_right hunits)
      · rw [if_neg hyfinite]
        split_ifs
        · exact min_le_right _ _
        · exact le_rfl

/-! ## Ranks -/

/-- Where the product with the larger share does not exist, that with the smaller one leaves
    nothing: either the count is zero, or it is infinite and the larger share is zero. -/
theorem index_mul_of_isNaN {c : Float} (hc : sign (number c) = .positive)
    (hcnumber : c.isNaN = false) (h : p ≤ q) (hq : (c * q).isNaN = true) : index (c * p) = 0 := by
  obtain ⟨hpnumber, hqnumber⟩ := not_isNaN_of_le h
  cases hp : (c * p).isNaN with
  | true => exact index_of_isNaN hp
  | false =>
    rw [isNaN_mul] at hq
    rcases factors_of_isNaN_mul (isRounded_number c) (isRounded_number q) hcnumber hqnumber hq with
      ⟨s, hzero⟩ | ⟨s, t, hinfinite, hzero⟩
    · exact index_of_zero (place_mul_of_zero hp (.inl (by rw [hzero, place])))
    · have hproduct := (isNaN_mul c p).symm.trans hp
      have hlow : level (number p) ≤ 0 := by
        have hlevel := (le_iff hpnumber hqnumber).mp h
        rw [hzero] at hlevel
        cases t <;> exact hlevel
      apply index_of_negative
      rw [(number_mul_spec hproduct).1, hc, positive_mul]
      cases hs : sign (number p) with
      | negative => rfl
      | positive =>
        rw [level, hs] at hlow
        simp only [Sign.apply] at hlow
        obtain ⟨t, ht⟩ : ∃ t, number p = .zero t := exists_eq_zero (by omega)
        rw [hinfinite, ht] at hproduct
        cases hproduct

/-- The larger of two shares does not have the lower rank. -/
theorem rank_mono (n : Nat) (h : p ≤ q) : rank n p ≤ rank n q := by
  obtain ⟨hpositive, hnumber⟩ := ofCount_spec n
  rw [rank_eq_index, rank_eq_index]
  by_cases hp : (ofCount n * p).isNaN = true
  · rw [index_of_isNaN hp]
    exact Nat.zero_le _
  · by_cases hq : (ofCount n * q).isNaN = true
    · rw [index_mul_of_isNaN hpositive hnumber h hq]
      exact Nat.zero_le _
    · exact index_mono (mul_le_mul_of_positive hpositive (Bool.eq_false_iff.mpr hp)
        (Bool.eq_false_iff.mpr hq) h)

/-! ## Samples at shares -/

section

variable {α : Type _} {xs : List α}

/-- The rank stays among the samples, whatever the share is. -/
theorem rank_lt (hne : xs ≠ []) (p : Float) :
    min (rank xs.length p) (xs.length - 1) < xs.length := by
  have := List.length_pos_iff.mpr hne
  omega

/-- There is a sample at every share of some samples. -/
theorem exists_atShare? (hne : xs ≠ []) (p : Float) : ∃ x ∈ xs, atShare? xs p = some x :=
  ⟨_, List.getElem_mem (rank_lt hne p), List.getElem?_eq_getElem (rank_lt hne p)⟩

/-- Where the samples are in the order of some relation, so are those at two shares. -/
theorem atShare?_mono {R : α → α → Prop} (hrefl : ∀ x ∈ xs, R x x) (hascending : xs.Pairwise R)
    (h : p ≤ q) {x y : α} (hx : atShare? xs p = some x) (hy : atShare? xs q = some y) : R x y := by
  have hrank := rank_mono xs.length h
  obtain ⟨hi, rfl⟩ := List.getElem?_eq_some_iff.mp hx
  obtain ⟨hj, rfl⟩ := List.getElem?_eq_some_iff.mp hy
  have hle : min (rank xs.length p) (xs.length - 1) ≤ min (rank xs.length q) (xs.length - 1) := by
    omega
  rcases hle.lt_or_eq with hlt | heq
  · exact List.pairwise_iff_getElem.mp hascending _ _ hi hj hlt
  · simp only [heq]
    exact hrefl _ (List.getElem_mem hj)

end

end LoadBench.Statistics
