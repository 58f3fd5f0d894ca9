/-!
# Counters

Counters are words of 64 bits. A number that is brought into their range stops at its ends. A
product that leaves the range breaks the operation down that needs it, and so does a list that is
too long to be held. For every list that can be held there is memory.

* `Counter.largest`, `Counter.saturate`: the range, and numbers brought into it.
* `Counter.total`: the sum of some counters, as a number of any size.
* `Breakdown`: what breaks an operation down.
* `Counter.product`, `Counter.listLimit`: products of counters, and how long lists can be.
-/

namespace LoadBench

/-- What breaks an operation down: it has to count or to hold more than is possible. -/
inductive Breakdown
  /-- A product is no counter. -/
  | product
  /-- A list is too long. -/
  | capacity
deriving DecidableEq, Repr

/-- The last words of an operation that breaks down. -/
def Breakdown.message : Breakdown → String
  | .product => "attempt to multiply with overflow"
  | .capacity => "capacity overflow"

namespace Counter

/-- The number of counters. -/
def size : Nat := Nat.pow 2 64

/-- The largest counter. -/
def largest : Nat := size - 1

/-- An integer as a counter: values outside the range stop at its ends. -/
def saturate (n : Int) : Nat := min n.toNat largest

/-- The sum of some counters. -/
def total (ns : List Nat) : Nat := ns.foldr (· + ·) 0

/-- The product of two counters, if it is a counter. -/
def product (m n : Nat) : Except Breakdown Nat :=
  if m * n < size then .ok (m * n) else .error .product

/-- A list of so many entries of some bytes each, or of more entries, cannot be held: that would
    take `2 ^ 63` bytes. -/
def listLimit (bytes : Nat) : Nat := (Nat.pow 2 63 + bytes - 1) / bytes

end Counter

end LoadBench
