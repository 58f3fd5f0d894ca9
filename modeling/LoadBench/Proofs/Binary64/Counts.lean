import Mathlib
import LoadBench.Binary64

/-!
# Counts as binary64 numbers

A count below `2 ^ 53` is a binary64 number, and so is the difference of two such counts: nothing is
rounded. The mantissa of a positive number has its full width of 53 bits, so a count is shifted to
that width and its exponent makes up for the shift.

Results:
* `roundWithAccuracy_scaled`: rounding a mantissa of full width that is shifted further to the left
  gives that mantissa back.
* `round_scaled`: a count that is shifted to the left, with an exponent that makes up for it, is
  rounded to the number of the count.
* `ofCount_sub`: the difference of the numbers of two counts is the number of their difference.
-/

namespace LoadBench.Binary64

open Float.Model Float.Model.UnpackedFloat

/-! ## Mantissas of full width -/

theorem shiftRightOne_double (m : Nat) :
    (ExtendedMantissa.ofMantissaAndAccuracy (m * 2) .exact).shiftRightOne =
      .ofMantissaAndAccuracy m .exact := by
  simp [ExtendedMantissa.ofMantissaAndAccuracy, ExtendedMantissa.shiftRightOne]

/-- Shifting to the right takes back what was shifted to the left; no bit is lost on the way. -/
theorem shiftRight_scaled (m k : Nat) :
    (ExtendedMantissa.ofMantissaAndAccuracy (m * 2 ^ k) .exact) >>> k =
      ExtendedMantissa.ofMantissaAndAccuracy m .exact := by
  show Nat.repeat ExtendedMantissa.shiftRightOne k _ = _
  induction k generalizing m with
  | zero => simp [Nat.repeat]
  | succ k ih =>
    have hsplit : m * 2 ^ (k + 1) = m * 2 * 2 ^ k := by ring
    rw [Nat.repeat, hsplit, ih, shiftRightOne_double]

theorem log2_scaled {m : Nat} (hm : m ≠ 0) (k : Nat) : (m * 2 ^ k).log2 = m.log2 + k := by
  have hlow := Nat.log2_self_le hm
  have hhigh := Nat.lt_log2_self (n := m)
  have hne : m * 2 ^ k ≠ 0 := by positivity
  rw [Nat.log2_eq_iff hne]
  constructor
  · calc 2 ^ (m.log2 + k) = 2 ^ m.log2 * 2 ^ k := pow_add ..
      _ ≤ m * 2 ^ k := Nat.mul_le_mul_right _ hlow
  · calc m * 2 ^ k < 2 ^ (m.log2 + 1) * 2 ^ k := Nat.mul_lt_mul_of_pos_right hhigh (by positivity)
      _ = 2 ^ (m.log2 + k + 1) := by ring

/-- The exponent that a number of a mantissa of full width is brought to. -/
theorem targetExponent_scaled {m k : Nat} {e : Int} (hm : m ≠ 0) (hwidth : m.log2 = 52)
    (he : -1074 ≤ e) :
    Format.binary64.targetExponent (totalExponent (m * 2 ^ k) (e - k)) = e := by
  rw [Format.targetExponent, totalExponent, log2_scaled hm, hwidth]
  simp only [Format.mantissaBits, Format.minExponent]
  push_cast
  omega

theorem shiftToTargetExponent_scaled {m k : Nat} {e : Int} (hm : m ≠ 0) (hwidth : m.log2 = 52)
    (he : -1074 ≤ e) :
    shiftToTargetExponent Format.binary64 (m * 2 ^ k) (e - k) .exact =
      (.ofMantissaAndAccuracy m .exact, e) := by
  have hshift : (e - (e - (k : Int))).toNat = k := by omega
  rw [shiftToTargetExponent, targetExponent_scaled hm hwidth he, shiftToExponent]
  simp only [hshift, shiftRight_scaled]
  congr 1
  omega

/-- A mantissa of full width stands for itself, however far it was shifted to the left. -/
theorem roundWithAccuracy_scaled {m k : Nat} {e : Int} (s : Sign) (hm : 0 < m)
    (hwidth : m.log2 = 52) (he : -1074 ≤ e) :
    roundWithAccuracy Format.binary64 s (m * 2 ^ k) (e - k) .exact = .finite s m e hm := by
  have hround : (ExtendedMantissa.ofMantissaAndAccuracy m .exact).roundedMantissa = m := rfl
  have hagain := shiftToTargetExponent_scaled (k := 0) hm.ne' hwidth he
  simp only [pow_zero, mul_one, Nat.cast_zero, sub_zero] at hagain
  have hmantissa : (ExtendedMantissa.ofMantissaAndAccuracy m .exact).mantissa = m := rfl
  simp only [roundWithAccuracy, shiftToTargetExponent_scaled hm.ne' hwidth he, hround, hagain,
    hmantissa, dif_neg hm.ne']

/-! ## The number of a count -/

/-- The mantissa of a count, shifted to its full width. -/
def countMantissa (n : Nat) : Nat := n * 2 ^ (52 - n.log2)

theorem countMantissa_pos {n : Nat} (hn : 0 < n) : 0 < countMantissa n := by
  unfold countMantissa
  positivity

theorem log2_le {n : Nat} (hn : 0 < n) (hlt : n < 2 ^ 53) : n.log2 ≤ 52 := by
  have := (Nat.log2_lt hn.ne').mpr hlt
  omega

theorem log2_countMantissa {n : Nat} (hn : 0 < n) (hlt : n < 2 ^ 53) :
    (countMantissa n).log2 = 52 := by
  have hle := log2_le hn hlt
  rw [countMantissa, log2_scaled hn.ne']
  omega

/-- The number of a positive count. -/
def countNumber (n : Nat) (hn : 0 < n) : UnpackedFloat :=
  .finite .positive (countMantissa n) (n.log2 - 52) (countMantissa_pos hn)

/-- A count that is shifted to the left, with an exponent that makes up for it, is rounded to the
    number of the count. -/
theorem round_scaled {n : Nat} (hn : 0 < n) (hlt : n < 2 ^ 53) (k : Nat) :
    UnpackedFloat.round Format.binary64 .positive (n * 2 ^ k) (-k) = countNumber n hn := by
  have hle := log2_le hn hlt
  have htarget : Format.binary64.targetExponent (totalExponent (n * 2 ^ k) (-k)) =
      (n.log2 : Int) - 52 := by
    rw [Format.targetExponent, totalExponent, log2_scaled hn.ne']
    simp only [Format.mantissaBits, Format.minExponent]
    push_cast
    omega
  -- the shift that is still missing to the full width, and the one that goes beyond it
  obtain ⟨missing, beyond, hmissing, hbeyond⟩ : ∃ missing beyond : Nat,
      (-(k : Int) - ((n.log2 : Int) - 52)).toNat = missing ∧ k + missing = 52 - n.log2 + beyond :=
    ⟨_, k + (-(k : Int) - ((n.log2 : Int) - 52)).toNat - (52 - n.log2), rfl, by omega⟩
  have hmantissa : (n * 2 ^ k) <<< missing = countMantissa n * 2 ^ beyond := by
    rw [Nat.shiftLeft_eq, countMantissa, mul_assoc, mul_assoc, ← pow_add, ← pow_add, hbeyond]
  have hexponent : -(k : Int) - missing = (n.log2 : Int) - 52 - beyond := by omega
  simp only [UnpackedFloat.round, htarget, decreaseExponent, hmissing, hmantissa, hexponent]
  exact roundWithAccuracy_scaled .positive (countMantissa_pos hn) (log2_countMantissa hn hlt)
    (by omega)

/-! ## Packing -/

/-- A number with a mantissa of full width, whose exponent is that of a normal number, is packed
    without loss. -/
theorem unpack_packFull {s : Sign} {m : Nat} {e : Int} (hm : 0 < m) (hwidth : m.log2 = 52)
    (hlow : -1074 ≤ e) (hhigh : e ≤ 971) :
    (Float.Model.pack (.finite s m e hm)).unpack = .finite s m e hm := by
  obtain ⟨biased, hbiased⟩ : ∃ biased : Nat, (biased : Int) = e + 1075 :=
    ⟨(e + 1075).toNat, by omega⟩
  have hto : (e + (Format.binary64.exponentBias : Int) +
      (Format.binary64.mantissaBitsWithoutImplicit : Int)).toNat = biased := by
    show (e + 1023 + 52).toNat = biased
    omega
  have hroom : ¬ 2 ^ Format.binary64.exponentBits ≤ biased + 1 := by
    show ¬ 2 ^ 11 ≤ biased + 1
    omega
  have hfull : m.log2 + 1 = Format.binary64.mantissaBits := by
    rw [hwidth]
    rfl
  have hexponent : (BitVec.ofNat Format.binary64.exponentBits biased).toNat = biased :=
    Nat.mod_eq_of_lt (show biased < 2 ^ 11 by omega)
  have hzero : BitVec.ofNat Format.binary64.exponentBits biased ≠ 0#_ := by
    intro h
    have := congrArg BitVec.toNat h
    rw [hexponent, BitVec.toNat_zero] at this
    omega
  have hones : BitVec.ofNat Format.binary64.exponentBits biased ≠ -1#_ := by
    intro h
    have := congrArg BitVec.toNat h
    rw [hexponent, BitVec.neg_one_eq_allOnes, BitVec.toNat_allOnes] at this
    have : biased = 2 ^ 11 - 1 := this
    omega
  have hbits : 2 ^ 52 ≤ m ∧ m < 2 ^ 53 := (Nat.log2_eq_iff hm.ne').mp hwidth
  -- the leading bit of the mantissa is not stored: it is put back in front of the others
  have hmantissa :
      (1#1 ++ BitVec.ofNat Format.binary64.mantissaBitsWithoutImplicit m).toNat = m := by
    have hone : (1#1).toNat = 1 := rfl
    rw [BitVec.toNat_append, ← Nat.shiftLeft_add_eq_or_of_lt (BitVec.isLt _), Nat.shiftLeft_eq,
      hone, BitVec.toNat_ofNat]
    show 1 * 2 ^ 52 + m % 2 ^ 52 = m
    omega
  simp only [Float.Model.unpack, Float.Model.pack, UnpackedFloat.pack, hto, hroom, if_false, hfull,
    if_true, UnpackedFloat.unpack, unpackExponent_packComponents, unpackMantissa_packComponents,
    unpackSign_packComponents, Sign.ofBitVec_toBitVec, hones, hzero, hexponent]
  congr 1
  show (biased : Int) - (1023 + 52) = e
  omega

theorem unpack_pack_countNumber {n : Nat} (hn : 0 < n) (hlt : n < 2 ^ 53) :
    (Float.Model.pack (countNumber n hn)).unpack = countNumber n hn := by
  have hle := log2_le hn hlt
  exact unpack_packFull (countMantissa_pos hn) (log2_countMantissa hn hlt) (by omega) (by omega)

/-! ## The difference of two counts -/

/-- What the number of a count is unpacked to. -/
def unpackedCount (n : Nat) : UnpackedFloat :=
  if hn : 0 < n then countNumber n hn else .zero .positive

theorem mul_one_countNumber {n : Nat} (hn : 0 < n) (hlt : n < 2 ^ 53) :
    UnpackedFloat.mul Format.binary64 (countNumber n hn)
      (Float.ofBits 4607182418800017408).toModel.unpack = countNumber n hn := by
  have hle := log2_le hn hlt
  have hone : (Float.ofBits 4607182418800017408).toModel.unpack =
      .finite .positive (2 ^ 52) (-52) (by decide) := rfl
  have hexponent : (n.log2 : Int) - 52 + -52 = (n.log2 : Int) - 52 - (52 : Nat) := by omega
  rw [hone, countNumber]
  simp only [UnpackedFloat.mul, hexponent]
  exact roundWithAccuracy_scaled _ (countMantissa_pos hn) (log2_countMantissa hn hlt) (by omega)

theorem normalize_scaled {n : Nat} (hn : 0 < n) (hlt : n < 2 ^ 53) (k : Nat) :
    UnpackedFloat.normalize Format.binary64 (n * 2 ^ k : Nat) (-k) .positive =
      countNumber n hn := by
  have hpos : compare ((n * 2 ^ k : Nat) : Int) 0 = .gt := by
    rw [Int.compare_eq_gt]
    positivity
  simp only [UnpackedFloat.normalize, hpos, Int.toNat_natCast]
  exact round_scaled hn hlt k

theorem normalize_count {n : Nat} (hn : 0 < n) (hlt : n < 2 ^ 53) :
    UnpackedFloat.normalize Format.binary64 n 0 .positive = countNumber n hn := by
  simpa using normalize_scaled hn hlt 0

theorem unpack_ofUInt64 {n : Nat} (hlt : n < 2 ^ 53) :
    (Float.Model.ofUInt64 n.toUInt64).unpack = unpackedCount n := by
  have hto : n.toUInt64.toNat = n := by
    simp
    omega
  simp only [Float.Model.ofUInt64, UnpackedFloat.ofUInt64, hto, unpackedCount]
  split_ifs with hn
  · rw [UnpackedFloat.ofNat, UnpackedFloat.ofInt, normalize_count hn hlt]
    exact unpack_pack_countNumber hn hlt
  · have : n = 0 := by omega
    subst this
    rfl

theorem ofCount_eq_pack {n : Nat} (hlt : n < 2 ^ 53) :
    ofCount n = ⟨Float.Model.pack (unpackedCount n)⟩ := by
  have hsmall : n < 2 ^ 53 ∧ 0 ≤ 22 := ⟨hlt, by decide⟩
  have hproduct : ofCount n = n.toUInt64.toFloat * Float.ofBits 4607182418800017408 := by
    show Float.ofScientific n false 0 = _
    rw [Float.ofScientific, dif_pos hsmall]
    rfl
  rw [hproduct]
  show (⟨Float.Model.pack (UnpackedFloat.mul Format.binary64
    (Float.Model.ofUInt64 n.toUInt64).unpack _)⟩ : Float) = _
  rw [unpack_ofUInt64 hlt, unpackedCount]
  split_ifs with hn
  · rw [mul_one_countNumber hn hlt]
  · rfl

theorem unpack_ofCount {n : Nat} (hlt : n < 2 ^ 53) :
    (ofCount n).toModel.unpack = unpackedCount n := by
  rw [ofCount_eq_pack hlt]
  show (Float.Model.pack (unpackedCount n)).unpack = unpackedCount n
  unfold unpackedCount
  split_ifs with hn
  · exact unpack_pack_countNumber hn hlt
  · rfl

theorem decrease_countNumber {n k : Nat} (hn : 0 < n) (hlt : n < 2 ^ 53)
    (hk : 52 - n.log2 ≤ k) :
    decreaseExponent (countMantissa n) ((n.log2 : Int) - 52) (-k) = (n * 2 ^ k, -(k : Int)) := by
  have hle := log2_le hn hlt
  have hshift : ((n.log2 : Int) - 52 - -k).toNat = k - (52 - n.log2) := by omega
  have hpow : 52 - n.log2 + (k - (52 - n.log2)) = k := by omega
  rw [decreaseExponent, hshift, Nat.shiftLeft_eq, countMantissa, mul_assoc, ← pow_add, hpow]
  congr 1
  omega

theorem sub_unpackedCount {m n : Nat} (hmn : m ≤ n) (hlt : n < 2 ^ 53) :
    UnpackedFloat.sub Format.binary64 (unpackedCount n) (unpackedCount m) =
      unpackedCount (n - m) := by
  rcases Nat.eq_zero_or_pos m with rfl | hm
  · unfold unpackedCount
    split_ifs <;> first | rfl | omega
  · have hn : 0 < n := by omega
    have hmlt : m < 2 ^ 53 := by omega
    -- both mantissas are brought to the smaller of the two exponents
    obtain ⟨k, hk⟩ : ∃ k : Nat, min ((n.log2 : Int) - 52) ((m.log2 : Int) - 52) = -(k : Int) := by
      have := log2_le hn hlt
      exact ⟨(-(min ((n.log2 : Int) - 52) ((m.log2 : Int) - 52))).toNat, by omega⟩
    have hdiff : ((n * 2 ^ k : Nat) : Int) - ((m * 2 ^ k : Nat) : Int) =
        ((n - m) * 2 ^ k : Nat) := by
      push_cast [Nat.cast_sub hmn]
      ring
    simp only [unpackedCount, dif_pos hn, dif_pos hm, countNumber, UnpackedFloat.sub, hk,
      decrease_countNumber hn hlt (k := k) (by omega),
      decrease_countNumber hm hmlt (k := k) (by omega), Sign.apply, hdiff]
    split_ifs with hpos
    · exact normalize_scaled hpos (by omega) k
    · have : n - m = 0 := by omega
      rw [this, Nat.zero_mul]
      rfl

/-- Counts below `2 ^ 53` are subtracted exactly. -/
theorem ofCount_sub {m n : Nat} (hmn : m ≤ n) (hlt : n < 2 ^ 53) :
    ofCount n - ofCount m = ofCount (n - m) := by
  show (⟨Float.Model.pack (UnpackedFloat.sub Format.binary64
    (ofCount n).toModel.unpack (ofCount m).toModel.unpack)⟩ : Float) = _
  have hm : m < 2 ^ 53 := by omega
  have hdiff : n - m < 2 ^ 53 := by omega
  rw [unpack_ofCount hlt, unpack_ofCount hm, sub_unpackedCount hmn hlt, ofCount_eq_pack hdiff]

end LoadBench.Binary64
