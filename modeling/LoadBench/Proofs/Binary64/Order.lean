import Mathlib
import LoadBench.Binary64

/-!
# The order of binary64 numbers

The bits of a number are its sign and, below the sign, the place of its magnitude among all
magnitudes: the exponent stands in front of the mantissa, so the higher place is that of the larger
magnitude. The total order goes by sign and place, and so does the comparison of numbers, for which
the two zeros are one and what is not a number is no larger and no smaller than anything.

Results:
* `toNat_toBits`: the bits of a number are its sign and its place.
* `orderKey_injective`: numbers at one position of the total order have the same bits.
* `le_iff`, `lt_iff`: numbers compare by sign and place.
* `le_of_orderKey_le`: the total order agrees with the comparison of numbers.
-/

namespace LoadBench.Binary64

open Float.Model Float.Model.UnpackedFloat

/-! ## Signs, places and levels -/

/-- The place of infinity, above that of every finite magnitude. -/
def infinitePlace : Nat := 2047 * 2 ^ 52

/-- The place of what is not a number, above that of infinity. -/
def lastPlace : Nat := 4095 * 2 ^ 51

/-- The place of a magnitude among all magnitudes. -/
def place : UnpackedFloat → Nat
  | .zero _ => 0
  | .finite _ m e _ => (e + 1074).toNat * 2 ^ 52 + m
  | .infinity _ => infinitePlace
  | .notANumber => lastPlace

/-- Only the zeros are at the lowest place. -/
theorem exists_eq_zero {u : UnpackedFloat} (h : place u = 0) : ∃ s, u = .zero s := by
  have hinfinite : infinitePlace ≠ 0 := by decide
  have hlast : lastPlace ≠ 0 := by decide
  cases u with
  | notANumber => exact absurd h hlast
  | infinity s => exact absurd h hinfinite
  | zero s => exact ⟨s, rfl⟩
  | finite s m e hm =>
    simp only [place] at h
    omega

/-- The sign of a number. -/
def sign : UnpackedFloat → Sign
  | .zero s => s
  | .finite s _ _ _ => s
  | .infinity s => s
  | .notANumber => .positive

/-- The sign of a number as it is put into its highest bit. -/
def signBit : Sign → Nat
  | .positive => 0
  | .negative => 2 ^ 63

/-- The position of a number among the numbers, in which the two zeros have one. -/
def level (u : UnpackedFloat) : Int := (sign u).apply (place u)

/-- A finite number is rounded if its mantissa is as wide as its exponent allows. -/
def IsRounded : UnpackedFloat → Prop
  | .finite _ m e _ => m < 2 ^ 53 ∧ -1074 ≤ e ∧ (2 ^ 52 ≤ m ∨ e = -1074)
  | _ => True

/-! ## Bits -/

theorem toNat_unpackMantissa (b : BitVec 64) :
    (@unpackMantissa Format.binary64 b).toNat = b.toNat % 2 ^ 52 := by
  rw [unpackMantissa, BitVec.toNat_cast, BitVec.extractLsb_toNat]
  rfl

theorem toNat_unpackExponent (b : BitVec 64) :
    (@unpackExponent Format.binary64 b).toNat = b.toNat / 2 ^ 52 % 2 ^ 11 := by
  rw [unpackExponent, BitVec.toNat_cast, BitVec.extractLsb_toNat, Nat.shiftRight_eq_div_pow]
  rfl

theorem toNat_unpackSign (b : BitVec 64) :
    (@unpackSign Format.binary64 b).toNat = b.toNat / 2 ^ 63 % 2 := by
  rw [unpackSign, BitVec.toNat_cast, BitVec.extractLsb_toNat, Nat.shiftRight_eq_div_pow]
  rfl

theorem signBit_ofBitVec (b : BitVec 64) :
    signBit (Sign.ofBitVec (@unpackSign Format.binary64 b)) = b.toNat / 2 ^ 63 * 2 ^ 63 := by
  have hlt := b.isLt
  have hbit := toNat_unpackSign b
  unfold Sign.ofBitVec
  split_ifs with hzero
  · rw [hzero] at hbit
    have : b.toNat / 2 ^ 63 % 2 = 0 := hbit.symm
    simp only [signBit]
    omega
  · have : b.toNat / 2 ^ 63 % 2 ≠ 0 := by
      intro h
      exact hzero (BitVec.eq_of_toNat_eq (hbit.trans h))
    simp only [signBit]
    omega

/-- The leading bit of a mantissa of full width is not stored. -/
theorem toNat_one_append (b : BitVec 52) : (1#1 ++ b).toNat = 2 ^ 52 + b.toNat := by
  rw [BitVec.toNat_append, ← Nat.shiftLeft_add_eq_or_of_lt b.isLt]
  rfl

/-- What the bits of a number are unpacked to is rounded, its place is below that of infinity if it
    is finite, and the bits are its sign and its place. -/
theorem unpack_spec (f : Float.Model) :
    IsRounded f.unpack ∧ (f.unpack.isFinite = true → place f.unpack < infinitePlace) ∧
      f.toBits.toNat = signBit (sign f.unpack) + place f.unpack := by
  have hnan := f.valid.eq_packedNaN
  show IsRounded (UnpackedFloat.unpack Format.binary64 f.toBits.toBitVec) ∧
    ((UnpackedFloat.unpack Format.binary64 f.toBits.toBitVec).isFinite = true →
      place (UnpackedFloat.unpack Format.binary64 f.toBits.toBitVec) < infinitePlace) ∧
    f.toBits.toBitVec.toNat =
      signBit (sign (UnpackedFloat.unpack Format.binary64 f.toBits.toBitVec)) +
        place (UnpackedFloat.unpack Format.binary64 f.toBits.toBitVec)
  generalize f.toBits.toBitVec = b at hnan ⊢
  have hlt : b.toNat < 2 ^ 64 := b.isLt
  have hmantissa := toNat_unpackMantissa b
  have hexponent := toNat_unpackExponent b
  have hsign := signBit_ofBitVec b
  have hbias : (Format.binary64.exponentBias : Int) +
    (Format.binary64.mantissaBitsWithoutImplicit : Int) = 1075 := rfl
  unfold UnpackedFloat.unpack
  simp only [hbias]
  split_ifs with hfull hinfinite hleast hnone
  · have hexponent' : b.toNat / 2 ^ 52 % 2 ^ 11 = 2047 := by rw [← hexponent, hfull]; rfl
    have hmantissa' : b.toNat % 2 ^ 52 = 0 := by rw [← hmantissa, hinfinite]; rfl
    refine ⟨trivial, fun h => absurd h (by simp [UnpackedFloat.isFinite]), ?_⟩
    simp only [sign, place, infinitePlace, hsign]
    omega
  · have hbits : b.toNat = lastPlace := by
      rw [hnan hfull hinfinite]
      decide
    refine ⟨trivial, fun h => absurd h (by simp [UnpackedFloat.isFinite]), ?_⟩
    simp only [sign, place, signBit, hbits, Nat.zero_add]
  · have hexponent' : b.toNat / 2 ^ 52 % 2 ^ 11 = 0 := by rw [← hexponent, hleast]; rfl
    have hmantissa' : b.toNat % 2 ^ 52 = 0 := by rw [← hmantissa, hnone]; rfl
    refine ⟨trivial, fun _ => (by decide : 0 < infinitePlace), ?_⟩
    simp only [sign, place, hsign]
    omega
  · have hexponent' : (@unpackExponent Format.binary64 b).toNat = 0 := by rw [hleast]; rfl
    simp only [IsRounded, sign, place, infinitePlace, hsign, hmantissa, hexponent']
    rw [hexponent] at hexponent'
    refine ⟨by omega, fun _ => by omega, by omega⟩
  · have hfull' : b.toNat / 2 ^ 52 % 2 ^ 11 ≠ 2047 := by
      rw [← hexponent]
      exact fun h => hfull (BitVec.eq_of_toNat_eq h)
    have hleast' : b.toNat / 2 ^ 52 % 2 ^ 11 ≠ 0 := by
      rw [← hexponent]
      exact fun h => hleast (BitVec.eq_of_toNat_eq h)
    simp only [IsRounded, sign, place, infinitePlace, hsign, toNat_one_append, hmantissa, hexponent]
    refine ⟨by omega, fun _ => by omega, by omega⟩

/-! ## The comparison of numbers -/

variable {u v : UnpackedFloat} {x y : Float}

theorem compare_exponents_mantissas {m n : Nat} {d e : Int} (hm : m < 2 ^ 53) (hn : n < 2 ^ 53)
    (hd : -1074 ≤ d) (he : -1074 ≤ e) (hmd : 2 ^ 52 ≤ m ∨ d = -1074)
    (hne : 2 ^ 52 ≤ n ∨ e = -1074) :
    (compare d e).then (compare m n) =
      compare (((d + 1074).toNat * 2 ^ 52 + m : Nat) : Int)
        ((e + 1074).toNat * 2 ^ 52 + n : Nat) := by
  rcases lt_trichotomy d e with hlt | rfl | hgt
  · rw [Int.compare_eq_lt.mpr hlt, Ordering.lt_then, eq_comm, Int.compare_eq_lt]
    omega
  · rw [Int.compare_eq_eq.mpr rfl, Ordering.eq_then]
    rcases lt_trichotomy m n with hlt | rfl | hgt
    · rw [Nat.compare_eq_lt.mpr hlt, eq_comm, Int.compare_eq_lt]
      omega
    · rw [Nat.compare_eq_eq.mpr rfl, Int.compare_eq_eq.mpr rfl]
    · rw [Nat.compare_eq_gt.mpr hgt, eq_comm, Int.compare_eq_gt]
      omega
  · rw [Int.compare_eq_gt.mpr hgt, Ordering.gt_then, eq_comm, Int.compare_eq_gt]
    omega

theorem some_lt {a b : Int} (h : a < b) : some Ordering.lt = some (compare a b) := by
  rw [Int.compare_eq_lt.mpr h]

theorem some_gt {a b : Int} (h : b < a) : some Ordering.gt = some (compare a b) := by
  rw [Int.compare_eq_gt.mpr h]

/-- Numbers compare by sign and place. -/
theorem compare_eq (hu : IsRounded u) (hv : IsRounded v)
    (hulimit : u.isFinite = true → place u < infinitePlace)
    (hvlimit : v.isFinite = true → place v < infinitePlace)
    (hun : u.isNaN = false) (hvn : v.isNaN = false) :
    u.compare v = some (compare (level u) (level v)) := by
  have hzero : 0 < infinitePlace := by decide
  cases u with
  | notANumber => cases hun
  | infinity s =>
    cases v with
    | notANumber => cases hvn
    | infinity t => cases s <;> cases t <;> decide
    | zero t => cases s <;> cases t <;> decide
    | finite t n e hn =>
      have hlimit : place (.finite t n e hn) < infinitePlace := hvlimit rfl
      simp only [place] at hlimit
      cases s <;> cases t <;> simp only [UnpackedFloat.compare, level, sign, place, Sign.apply]
      · exact some_lt (by omega)
      · exact some_lt (by omega)
      · exact some_gt (by omega)
      · exact some_gt (by omega)
  | zero s =>
    cases v with
    | notANumber => cases hvn
    | infinity t => cases s <;> cases t <;> decide
    | zero t => cases s <;> cases t <;> decide
    | finite t n e hn =>
      cases s <;> cases t <;> simp only [UnpackedFloat.compare, level, sign, place, Sign.apply]
      · exact some_gt (by omega)
      · exact some_lt (by omega)
      · exact some_gt (by omega)
      · exact some_lt (by omega)
  | finite s m d hm =>
    cases v with
    | notANumber => cases hvn
    | infinity t =>
      have hlimit : place (.finite s m d hm) < infinitePlace := hulimit rfl
      simp only [place] at hlimit
      cases s <;> cases t <;> simp only [UnpackedFloat.compare, level, sign, place, Sign.apply]
      · exact some_gt (by omega)
      · exact some_lt (by omega)
      · exact some_gt (by omega)
      · exact some_lt (by omega)
    | zero t =>
      cases s <;> cases t <;> simp only [UnpackedFloat.compare, level, sign, place, Sign.apply]
      · exact some_lt (by omega)
      · exact some_lt (by omega)
      · exact some_gt (by omega)
      · exact some_gt (by omega)
    | finite t n e hn =>
      have hfields := compare_exponents_mantissas hu.1 hv.1 hu.2.1 hv.2.1 hu.2.2 hv.2.2
      cases s <;> cases t <;> simp only [UnpackedFloat.compare, level, sign, place, Sign.apply]
      · rw [hfields, Int.compare_swap, Int.compare_eq_ite_lt, Int.compare_eq_ite_lt]
        simp only [Int.neg_lt_neg_iff]
      · exact some_lt (by omega)
      · exact some_gt (by omega)
      · rw [hfields]

/-! ## Positions in the total order -/

/-- What a number stands for. -/
abbrev number (x : Float) : UnpackedFloat := x.toModel.unpack

theorem dyad?_eq (x : Float) : dyad? x =
    match number x with
    | .finite s m e _ => some ⟨s == .negative, m, e⟩
    | .zero s => some ⟨s == .negative, 0, 0⟩
    | .infinity _ => none
    | .notANumber => none := rfl

theorem toNat_toBits (x : Float) :
    x.toBits.toNat = signBit (sign (number x)) + place (number x) := (unpack_spec x.toModel).2.2

theorem isRounded_number (x : Float) : IsRounded (number x) := (unpack_spec x.toModel).1

theorem place_lt_of_isFinite (h : (number x).isFinite = true) : place (number x) < infinitePlace :=
  (unpack_spec x.toModel).2.1 h

theorem isFinite_iff : (number x).isFinite = true ↔ place (number x) < infinitePlace := by
  have hlast : infinitePlace < lastPlace := by decide
  refine ⟨place_lt_of_isFinite, fun h => ?_⟩
  cases hx : number x with
  | notANumber => rw [hx] at h; exact absurd h hlast.le.not_gt
  | infinity s => rw [hx] at h; exact absurd h (lt_irrefl _)
  | zero s => rfl
  | finite s m e hm => rfl

theorem isNaN_number (x : Float) : (number x).isNaN = x.isNaN := rfl

/-- Only what is not a number has a place above that of infinity. -/
theorem isNaN_iff : x.isNaN = true ↔ infinitePlace < place (number x) := by
  have hlast : infinitePlace < lastPlace := by decide
  have hlimit := place_lt_of_isFinite (x := x)
  rw [← isNaN_number]
  cases hx : number x with
  | notANumber => simpa [UnpackedFloat.isNaN, place] using hlast
  | infinity s => simp [UnpackedFloat.isNaN, place]
  | zero s => simp [UnpackedFloat.isNaN, place]
  | finite s m e hm =>
    have hlt := hlimit (by rw [hx]; rfl)
    rw [hx] at hlt
    simpa [UnpackedFloat.isNaN] using hlt.le

theorem place_le_lastPlace (x : Float) : place (number x) ≤ lastPlace := by
  have hlimit := place_lt_of_isFinite (x := x)
  have hlast : infinitePlace < lastPlace := by decide
  cases hx : number x with
  | notANumber => exact le_rfl
  | infinity s => exact hlast.le
  | zero s => exact Nat.zero_le _
  | finite s m e hm =>
    have hlt := hlimit (by rw [hx]; rfl)
    rw [hx] at hlt
    omega

theorem patternKey_eq (w : UInt64) : patternKey w =
    if w.toNat < 2 ^ 63 then (w.toNat : Int) else -1 - ((w.toNat - 2 ^ 63 : Nat) : Int) := rfl

/-- The numbers below zero stand in front of the others, each sign by its places. -/
theorem orderKey_eq (x : Float) : orderKey x =
    match sign (number x) with
    | .positive => (place (number x) : Int)
    | .negative => -1 - place (number x) := by
  have hlast := place_le_lastPlace x
  have hfits : lastPlace < 2 ^ 63 := by decide
  rw [orderKey, patternKey_eq, toNat_toBits]
  cases sign (number x) with
  | positive =>
    have hlow : place (number x) < 2 ^ 63 := by omega
    simp only [signBit, Nat.zero_add, hlow, if_true]
  | negative =>
    have hhigh : ¬ 2 ^ 63 + place (number x) < 2 ^ 63 := by omega
    simp only [signBit, hhigh, if_false]
    omega

theorem isNegative_iff (x : Float) : isNegative x = true ↔ sign (number x) = .negative := by
  have hlast := place_le_lastPlace x
  have hfits : lastPlace < 2 ^ 63 := by decide
  unfold isNegative
  rw [toNat_toBits, decide_eq_true_iff]
  show 2 ^ 63 ≤ signBit (sign (number x)) + place (number x) ↔ _
  cases sign (number x) with
  | positive => simp only [signBit, reduceCtorEq, iff_false]; omega
  | negative => simp only [signBit, iff_true]; omega

/-- Patterns at one position are the same. -/
theorem patternKey_injective : Function.Injective patternKey := by
  intro v w h
  have hv := v.toNat_lt
  have hw := w.toNat_lt
  rw [patternKey_eq, patternKey_eq] at h
  apply UInt64.toNat_inj.mp
  split_ifs at h <;> omega

theorem toBits_injective : Function.Injective Float.toBits := by
  rintro ⟨⟨v, hv⟩⟩ ⟨⟨w, hw⟩⟩ h
  obtain rfl : v = w := h
  rfl

/-- Numbers at one position have the same bits. -/
theorem orderKey_injective : Function.Injective orderKey :=
  patternKey_injective.comp toBits_injective

/-! ## Comparing numbers -/

theorem compare_number (hx : x.isNaN = false) (hy : y.isNaN = false) :
    (number x).compare (number y) = some (compare (level (number x)) (level (number y))) :=
  compare_eq (isRounded_number x) (isRounded_number y) place_lt_of_isFinite place_lt_of_isFinite
    hx hy

theorem le_iff (hx : x.isNaN = false) (hy : y.isNaN = false) :
    x ≤ y ↔ level (number x) ≤ level (number y) := by
  show decide ((number x).le (number y) = true) = true ↔ _
  rw [decide_eq_true_iff, UnpackedFloat.le, compare_number hx hy, Option.any_some,
    Int.isLE_compare]

theorem lt_iff (hx : x.isNaN = false) (hy : y.isNaN = false) :
    x < y ↔ level (number x) < level (number y) := by
  show decide ((number x).lt (number y) = true) = true ↔ _
  rw [decide_eq_true_iff, UnpackedFloat.lt, compare_number hx hy, beq_iff_eq, Option.some_inj,
    Int.compare_eq_lt]

/-- What is not a number compares with nothing. -/
theorem not_isNaN_of_le (h : x ≤ y) : x.isNaN = false ∧ y.isNaN = false := by
  have hle : decide ((number x).le (number y) = true) = true := h
  rw [decide_eq_true_iff] at hle
  rw [← isNaN_number, ← isNaN_number]
  cases hx : number x with
  | notANumber => rw [hx] at hle; cases hle
  | infinity s =>
    cases hy : number y with
    | notANumber => rw [hx, hy] at hle; cases s <;> cases hle
    | _ => exact ⟨rfl, rfl⟩
  | zero s =>
    cases hy : number y with
    | notANumber => rw [hx, hy] at hle; cases hle
    | _ => exact ⟨rfl, rfl⟩
  | finite s m e hm =>
    cases hy : number y with
    | notANumber => rw [hx, hy] at hle; cases s <;> cases hle
    | _ => exact ⟨rfl, rfl⟩

theorem float_le_refl (hx : x.isNaN = false) : x ≤ x := (le_iff hx hx).mpr le_rfl

theorem float_le_trans {z : Float} (hxy : x ≤ y) (hyz : y ≤ z) : x ≤ z := by
  obtain ⟨hx, hy⟩ := not_isNaN_of_le hxy
  obtain ⟨-, hz⟩ := not_isNaN_of_le hyz
  exact (le_iff hx hz).mpr (((le_iff hx hy).mp hxy).trans ((le_iff hy hz).mp hyz))

theorem float_le_of_lt (h : x < y) : x ≤ y := by
  have hlt : decide ((number x).lt (number y) = true) = true := h
  show decide ((number x).le (number y) = true) = true
  rw [decide_eq_true_iff, UnpackedFloat.lt, beq_iff_eq] at hlt
  rw [decide_eq_true_iff, UnpackedFloat.le, hlt]
  rfl

theorem float_le_of_not_lt (hx : x.isNaN = false) (hy : y.isNaN = false) (h : ¬ y < x) : x ≤ y := by
  rw [lt_iff hy hx] at h
  rw [le_iff hx hy]
  omega

/-- The level of a number that is not negative is its place: negative zero has that of zero. -/
theorem level_of_nonneg (h : 0.0 ≤ x) : level (number x) = place (number x) := by
  obtain ⟨hzero, hx⟩ := not_isNaN_of_le h
  have hlevel : 0 ≤ level (number x) := (le_iff hzero hx).mp h
  unfold level at hlevel ⊢
  cases hsign : sign (number x) with
  | positive => rfl
  | negative =>
    rw [hsign] at hlevel
    simp only [Sign.apply] at hlevel ⊢
    omega

/-- Only the zeros are equal to zero. -/
theorem place_pos (h : (x == 0.0) = false) : 0 < place (number x) := by
  have hequal : (number x).beq (number 0.0) = false := h
  rw [Nat.pos_iff_ne_zero]
  intro hzero
  obtain ⟨s, hs⟩ := exists_eq_zero hzero
  rw [hs] at hequal
  cases s <;> cases hequal

theorem sign_of_nonneg (h : 0.0 ≤ x) (hpos : 0 < place (number x)) :
    sign (number x) = .positive := by
  have hlevel := level_of_nonneg h
  unfold level at hlevel
  cases hsign : sign (number x) with
  | positive => rfl
  | negative =>
    rw [hsign] at hlevel
    simp only [Sign.apply] at hlevel
    omega

/-! ## The total order and the comparison of numbers -/

/-- The total order agrees with the comparison of numbers, but tells the zeros apart. -/
theorem level_le_of_orderKey_le (h : orderKey x ≤ orderKey y) :
    level (number x) ≤ level (number y) := by
  rw [orderKey_eq, orderKey_eq] at h
  unfold level
  cases hx : sign (number x) <;> cases hy : sign (number y) <;> rw [hx, hy] at h <;>
    simp only [Sign.apply] at h ⊢ <;> omega

theorem le_of_orderKey_le (hx : x.isNaN = false) (hy : y.isNaN = false)
    (h : orderKey x ≤ orderKey y) : x ≤ y :=
  (le_iff hx hy).mpr (level_le_of_orderKey_le h)

end LoadBench.Binary64
