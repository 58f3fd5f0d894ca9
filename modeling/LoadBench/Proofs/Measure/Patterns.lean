import LoadBench.Measure.Statistics
import LoadBench.Proofs.Binary64.Order

/-!
# Figures of patterns of bits

Many patterns of bits stand for what is not a number, and the total order tells them apart: those
with a sign come before all numbers, the others after them. Which of them an operation comes to is
left to the machine. The figures of some patterns stand for the figures of the numbers that the
patterns stand for, as long as no pattern with a sign stands for what is not a number, since as a
number that has no sign.

Results:
* `Carries.map_ofAscending`: a map that carries over the operations carries over the distribution.
* `toBits_ofBits`: a pattern is that of its number, unless it stands for what is not a number.
* `orderKey_ofBits_le`: numbers are in the order of their patterns.
* `isMachine_words`: an arithmetic of patterns whose operations are those of numbers.
-/

namespace LoadBench

/-! ## Operations that are carried over -/

/-- A map carries the operations of an arithmetic over to those of another. -/
structure Arithmetic.Carries {α β : Type} (f : α → β) (a : Arithmetic α) (b : Arithmetic β) :
    Prop where
  ofCount : ∀ n, f (a.ofCount n) = b.ofCount n
  zero : f a.zero = b.zero
  negZero : f a.negZero = b.negZero
  add : ∀ x y, f (a.add x y) = b.add (f x) (f y)
  sub : ∀ x y, f (a.sub x y) = b.sub (f x) (f y)
  mul : ∀ x y, f (a.mul x y) = b.mul (f x) (f y)
  div : ∀ x y, f (a.div x y) = b.div (f x) (f y)
  sqrt : ∀ x, f (a.sqrt x) = b.sqrt (f x)
  lesser : ∀ x y, f (a.lesser x y) = b.lesser (f x) (f y)
  greater : ∀ x y, f (a.greater x y) = b.greater (f x) (f y)

/-- The same figures in another form. -/
def Distribution.map {α β : Type} (f : α → β) (d : Distribution α) : Distribution β where
  p50 := f d.p50
  p90 := f d.p90
  p95 := f d.p95
  p99 := f d.p99
  mean := f d.mean
  deviation := f d.deviation
  least := f d.least
  greatest := f d.greatest

namespace Arithmetic.Carries

variable {α β : Type} {f : α → β} {a : Arithmetic α} {b : Arithmetic β}

/-- What is gone through one sample after the other is carried over. -/
theorem foldl {op : α → α → α} {op' : β → β → β} (hop : ∀ x y, f (op x y) = op' (f x) (f y))
    (x : α) (xs : List α) : f (xs.foldl op x) = (xs.map f).foldl op' (f x) := by
  rw [List.foldl_map]
  exact (List.foldl_hom f fun x y => (hop x y).symm).symm

theorem sum (h : Carries f a b) (xs : List α) : f (a.sum xs) = b.sum (xs.map f) := by
  rw [Arithmetic.sum, Arithmetic.sum, ← h.negZero]
  exact foldl h.add _ xs

theorem average (h : Carries f a b) (xs : List α) : f (a.average xs) = b.average (xs.map f) := by
  rw [Arithmetic.average, Arithmetic.average, List.isEmpty_map, List.length_map]
  split_ifs
  · exact h.zero
  · rw [h.div, h.sum, h.ofCount]

theorem deviation (h : Carries f a b) (xs : List α) :
    f (a.deviation xs) = b.deviation (xs.map f) := by
  have hsquare (x mean : α) : f (a.square (a.sub x mean)) = b.square (b.sub (f x) (f mean)) := by
    rw [square, square, h.mul, h.sub]
  rw [Arithmetic.deviation, Arithmetic.deviation, List.isEmpty_map, List.length_map]
  split_ifs
  · exact h.zero
  · simp only [h.sqrt, h.div, h.sum, h.ofCount, List.map_map, Function.comp_def, hsquare, h.average]

theorem least (h : Carries f a b) (xs : List α) : f (a.least xs) = b.least (xs.map f) := by
  cases xs with
  | nil => exact h.zero
  | cons x xs => exact foldl h.lesser x xs

theorem greatest (h : Carries f a b) (xs : List α) :
    f (a.greatest xs) = b.greatest (xs.map f) := by
  cases xs with
  | nil => exact h.zero
  | cons x xs => exact foldl h.greater x xs

theorem percentile (h : Carries f a b) (xs : List α) (p : Float) :
    f (a.percentile xs p) = b.percentile (xs.map f) p := by
  rw [Arithmetic.percentile, Arithmetic.percentile, Statistics.atShare?, Statistics.atShare?,
    List.length_map, List.getElem?_map, ← h.zero, Option.getD_map]

theorem map_ofAscending (h : Carries f a b) (xs : List α) :
    (Distribution.ofAscending a xs).map f = .ofAscending b (xs.map f) := by
  simp only [Distribution.map, Distribution.ofAscending, h.percentile, h.average, h.deviation,
    h.least, h.greatest]

end Arithmetic.Carries

/-! ## Patterns and the numbers that they stand for -/

namespace Binary64

open Float.Model Float.Model.UnpackedFloat

variable {v w : UInt64}

/-- Whether a pattern stands for what is not a number is seen below its sign. -/
theorem unpack_eq_notANumber_iff :
    UnpackedFloat.unpack Format.binary64 w.toBitVec = .notANumber ↔
      infinitePlace < w.toNat % 2 ^ 63 := by
  have hlt := w.toNat_lt
  have hmantissa := toNat_unpackMantissa w.toBitVec
  have hexponent := toNat_unpackExponent w.toBitVec
  rw [UInt64.toNat_toBitVec] at hmantissa hexponent
  unfold UnpackedFloat.unpack infinitePlace
  dsimp only
  split_ifs with hfull hinfinite hleast hnone
  · rw [hinfinite] at hmantissa
    have : w.toNat % 2 ^ 52 = 0 := hmantissa.symm
    simp only [false_iff]
    omega
  · have hnone : w.toNat % 2 ^ 52 ≠ 0 := by
      rw [← hmantissa]
      exact fun h => hinfinite (BitVec.eq_of_toNat_eq h)
    rw [hfull] at hexponent
    have : w.toNat / 2 ^ 52 % 2 ^ 11 = 2047 := hexponent.symm
    simp only [true_iff]
    omega
  all_goals
    have : w.toNat / 2 ^ 52 % 2 ^ 11 ≠ 2047 := by
      rw [← hexponent]
      exact fun h => hfull (BitVec.eq_of_toNat_eq h)
    simp only [false_iff]
    omega

/-- A pattern is that of its number, unless it stands for what is not a number. -/
theorem toBits_ofBits (h : w.toNat % 2 ^ 63 ≤ infinitePlace) : (Float.ofBits w).toBits = w := by
  have hvalid : Format.binary64.Valid w.toBitVec := by
    refine ⟨fun hexponent hmantissa => ?_⟩
    have hnan : UnpackedFloat.unpack Format.binary64 w.toBitVec = .notANumber := by
      unfold UnpackedFloat.unpack
      rw [if_pos hexponent, if_neg hmantissa]
    have := unpack_eq_notANumber_iff.mp hnan
    omega
  have hsame : Float.ofBits w = .ofModel ⟨w, hvalid⟩ := Float.ofBits_toBits (.ofModel ⟨w, hvalid⟩)
  rw [hsame]
  rfl

theorem isNaN_ofBits_iff : (Float.ofBits w).isNaN = true ↔ infinitePlace < w.toNat % 2 ^ 63 := by
  constructor
  · intro hnan
    by_contra hle
    have hbits := toBits_ofBits (Nat.le_of_not_lt hle)
    have hnumber : number (Float.ofBits w) = UnpackedFloat.unpack Format.binary64 w.toBitVec :=
      congrArg (fun v : UInt64 => UnpackedFloat.unpack Format.binary64 v.toBitVec) hbits
    rw [← isNaN_number, hnumber] at hnan
    apply hle
    rw [← unpack_eq_notANumber_iff]
    cases hunpacked : UnpackedFloat.unpack Format.binary64 w.toBitVec <;>
      rw [hunpacked] at hnan <;> first | rfl | cases hnan
  · intro hlt
    have hnan := unpack_eq_notANumber_iff.mpr hlt
    show (Float.ofModel (Float.Model.pack _)).isNaN = true
    rw [hnan]
    decide

/-- What is not a number stands behind all numbers. -/
theorem orderKey_le_of_isNaN {x : Float} (y : Float) (h : x.isNaN = true) :
    orderKey y ≤ orderKey x := by
  have hlast := place_le_lastPlace y
  have hx : number x = .notANumber := by
    rw [← isNaN_number] at h
    cases hx : number x <;> rw [hx] at h <;> first | rfl | cases h
  rw [orderKey_eq, orderKey_eq x, hx]
  show _ ≤ (lastPlace : Int)
  cases sign (number y) <;> simp only <;> omega

/-- Numbers are in the order of their patterns, as long as what is not a number has no sign. -/
theorem orderKey_ofBits_le (hv : (Float.ofBits v).isNaN = true → v.toNat < 2 ^ 63)
    (h : patternKey v ≤ patternKey w) : orderKey (Float.ofBits v) ≤ orderKey (Float.ofBits w) := by
  by_cases hwnan : (Float.ofBits w).isNaN = true
  · exact orderKey_le_of_isNaN _ hwnan
  · have hw : w.toNat % 2 ^ 63 ≤ infinitePlace := by
      rwa [isNaN_ofBits_iff, Nat.not_lt] at hwnan
    by_cases hvnan : (Float.ofBits v).isNaN = true
    · -- then it would stand behind a number
      have hpositive := hv hvnan
      rw [isNaN_ofBits_iff] at hvnan
      rw [patternKey_eq, patternKey_eq] at h
      split_ifs at h <;> omega
    · rw [isNaN_ofBits_iff, Nat.not_lt] at hvnan
      rwa [orderKey, orderKey, toBits_ofBits hvnan, toBits_ofBits hw]

end Binary64

/-! ## The arithmetic of a machine -/

open Binary64

/-- An arithmetic of patterns as a machine has it: its operations are those of the numbers that the
    patterns stand for, and the patterns are in their total order. Which pattern stands for what is
    not a number is left open. -/
structure IsMachine (m : Arithmetic UInt64) : Prop
    extends Arithmetic.Carries Float.ofBits m Statistics.numbers where
  key : m.key = patternKey

/-- The arithmetic of patterns that has one pattern for all results that are not numbers. -/
def Arithmetic.words : Arithmetic UInt64 where
  ofCount n := (Binary64.ofCount n).toBits
  zero := 0
  negZero := 0x8000000000000000
  add v w := (Float.ofBits v + Float.ofBits w).toBits
  sub v w := (Float.ofBits v - Float.ofBits w).toBits
  mul v w := (Float.ofBits v * Float.ofBits w).toBits
  div v w := (Float.ofBits v / Float.ofBits w).toBits
  sqrt w := (Float.ofBits w).sqrt.toBits
  lesser v w :=
    if (Float.ofBits v).isNaN then w else if Float.ofBits w < Float.ofBits v then w else v
  greater v w :=
    if (Float.ofBits v).isNaN then w else if Float.ofBits v < Float.ofBits w then w else v
  key := patternKey

theorem isMachine_words : IsMachine .words where
  ofCount _ := Float.ofBits_toBits _
  zero := by decide
  negZero := rfl
  add _ _ := Float.ofBits_toBits _
  sub _ _ := Float.ofBits_toBits _
  mul _ _ := Float.ofBits_toBits _
  div _ _ := Float.ofBits_toBits _
  sqrt _ := Float.ofBits_toBits _
  lesser v w := by
    simp only [Arithmetic.words, Statistics.numbers, Binary64.lesser]
    split_ifs <;> rfl
  greater v w := by
    simp only [Arithmetic.words, Statistics.numbers, Binary64.greater]
    split_ifs <;> rfl
  key := rfl

end LoadBench
