import LoadBench.Data.Source

/-!
# Statistics of samples

Figures drawn from a list of samples. Sums run from left to right and start from `-0`, so that
adding a sample to nothing gives that sample; every figure of no samples is zero. The samples are
binary64 numbers; since many patterns of bits stand for what is not a number, and the order tells
them apart, the figures are drawn in the same way from numbers and from patterns.

* `Arithmetic`: what samples are calculated with and arranged by.
* `Arithmetic.sum`, `Arithmetic.average`, `Arithmetic.deviation`, `Arithmetic.least`,
  `Arithmetic.greatest`: figures in the order given; `sum` and so on are those of numbers.
* `guardedRatio`: a ratio that is always finite.
* `arrange`, `sorted`: the ascending arrangement of samples.
* `rank`, `atShare?`, `Arithmetic.percentile`: its elements by rank.
* `Distribution.ofAscending`, `Distribution.ofSamples`: eight figures of the ascending arrangement;
  `Latency.ofSamples` are those of numbers.
-/

namespace LoadBench

/-! ## What samples are calculated with -/

/-- What samples are calculated with and arranged by. -/
structure Arithmetic (α : Type) where
  ofCount : Nat → α
  zero : α
  negZero : α
  add : α → α → α
  sub : α → α → α
  mul : α → α → α
  div : α → α → α
  sqrt : α → α
  /-- The smaller of two samples, passing over what is not a number. -/
  lesser : α → α → α
  /-- The larger of two samples, passing over what is not a number. -/
  greater : α → α → α
  /-- The position of a sample in the total order. -/
  key : α → Int

namespace Arithmetic

variable {α : Type} (a : Arithmetic α)

/-- The sum from left to right; the sum of nothing is `-0`. -/
def sum (xs : List α) : α := xs.foldl a.add a.negZero

/-- The arithmetic mean. -/
def average (xs : List α) : α :=
  if xs.isEmpty then a.zero else a.div (a.sum xs) (a.ofCount xs.length)

/-- The least sample, passing over what is not a number. -/
def least : List α → α
  | [] => a.zero
  | x :: xs => xs.foldl a.lesser x

/-- The greatest sample, passing over what is not a number. -/
def greatest : List α → α
  | [] => a.zero
  | x :: xs => xs.foldl a.greater x

/-- The square of a sample. -/
def square (x : α) : α := a.mul x x

/-- The standard deviation of the samples as a whole population. -/
def deviation (xs : List α) : α :=
  if xs.isEmpty then a.zero
  else
    let mean := a.average xs
    a.sqrt (a.div (a.sum (xs.map fun x => a.square (a.sub x mean))) (a.ofCount xs.length))

end Arithmetic

namespace Statistics

open Binary64 (ofCount)

/-- The operations on binary64 numbers, of which one is the value that is not a number. -/
def numbers : Arithmetic Float where
  ofCount := ofCount
  zero := 0.0
  negZero := Binary64.negZero
  add x y := x + y
  sub x y := x - y
  mul x y := x * y
  div x y := x / y
  sqrt x := x.sqrt
  lesser := Binary64.lesser
  greater := Binary64.greater
  key := Binary64.orderKey

/-- The sum of some numbers. -/
def sum (xs : List Float) : Float := numbers.sum xs

/-- The arithmetic mean of some numbers. -/
def average (xs : List Float) : Float := numbers.average xs

/-- The least of some numbers. -/
def least (xs : List Float) : Float := numbers.least xs

/-- The greatest of some numbers. -/
def greatest (xs : List Float) : Float := numbers.greatest xs

/-- The standard deviation of some numbers. -/
def deviation (xs : List Float) : Float := numbers.deviation xs

/-- The ratio of two numbers, or zero where it does not exist or is not finite. -/
def guardedRatio (num den : Float) : Float :=
  if den == 0.0 then 0.0
  else
    let ratio := num / den
    if ratio.isFinite then ratio else 0.0

/-- The ratio of two counts. -/
def countRatio (part whole : Nat) : Float := guardedRatio (ofCount part) (ofCount whole)

/-! ## Samples in ascending order -/

/-- Some samples in ascending order of their keys. -/
def arrange (key : α → Int) (xs : List α) : List α := xs.mergeSort fun x y => key x ≤ key y

/-- The numbers in ascending total order. -/
def sorted (xs : List Float) : List Float := arrange Binary64.orderKey xs

/-- The rank that a share of `n` samples comes to: the integer part, from zero up. -/
def rank (n : Nat) (p : Float) : Nat :=
  let x := ofCount n * p
  match Binary64.dyad? x with
  | some d => Counter.saturate d.floor
  | none => if x.isNaN || Binary64.isNegative x then 0 else Counter.largest

/-- The sample at the rank of a share of the samples, the last one at most. -/
def atShare? (ascending : List α) (p : Float) : Option α :=
  ascending[min (rank ascending.length p) (ascending.length - 1)]?

end Statistics

/-- The sample at the rank of a share of the samples, or zero if there are none. -/
def Arithmetic.percentile (a : Arithmetic α) (ascending : List α) (p : Float) : α :=
  (Statistics.atShare? ascending p).getD a.zero

/-- The number at the rank of a share of some numbers. -/
def Statistics.percentile (ascending : List Float) (p : Float) : Float :=
  numbers.percentile ascending p

/-! ## Distributions -/

/-- Eight figures of some samples. -/
structure Distribution (α : Type) where
  p50 : α
  p90 : α
  p95 : α
  p99 : α
  mean : α
  deviation : α
  least : α
  greatest : α
deriving DecidableEq

namespace Distribution

/-- The distribution of samples in ascending order. -/
def ofAscending (a : Arithmetic α) (ascending : List α) : Distribution α where
  p50 := a.percentile ascending 0.50
  p90 := a.percentile ascending 0.90
  p95 := a.percentile ascending 0.95
  p99 := a.percentile ascending 0.99
  mean := a.average ascending
  deviation := a.deviation ascending
  least := a.least ascending
  greatest := a.greatest ascending

/-- The distribution of some samples, every figure drawn from their ascending arrangement. -/
def ofSamples (a : Arithmetic α) (samples : List α) : Distribution α :=
  ofAscending a (Statistics.arrange a.key samples)

end Distribution

/-- The distribution of latencies. -/
abbrev Latency := Distribution Float

namespace Latency

/-- The distribution of numbers in ascending order. -/
def ofAscending (ascending : List Float) : Latency :=
  Distribution.ofAscending Statistics.numbers ascending

/-- The distribution of some numbers. -/
def ofSamples (samples : List Float) : Latency := Distribution.ofSamples Statistics.numbers samples

/-- The written form. -/
def data (l : Latency) : Data :=
  .record [("p50", .real l.p50), ("p90", .real l.p90), ("p95", .real l.p95), ("p99", .real l.p99),
    ("mean", .real l.mean), ("std_dev", .real l.deviation), ("min", .real l.least),
    ("max", .real l.greatest)]

open Source in
/-- Reads a distribution. -/
def read? [Source δ] : δ → Option Latency :=
  record do
    let p50 ← required "p50" real
    let p90 ← required "p90" real
    let p95 ← required "p95" real
    let p99 ← required "p99" real
    let mean ← required "mean" real
    let deviation ← required "std_dev" real
    let least ← required "min" real
    let greatest ← required "max" real
    return { p50, p90, p95, p99, mean, deviation, least, greatest }

end Latency

end LoadBench
