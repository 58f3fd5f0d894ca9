import LoadBench.Measure.CallResult

/-!
# Batches of calls in flight

The calls of a batch are made side by side. Each of them is launched, ends at some time, and is
joined at a later one; nothing but these phases restricts the order of the moves, so a list of moves
is one of the ways in which a batch can go.

* `Batch.step?`: one move; the result of a call goes into the slot of its position.
* `Batch.results?`: the results in the order of the positions, unless a call crashed.
* `Batch.inOrder`: the moves of a batch whose calls end in the order of their positions.
-/

namespace LoadBench

/-- How a call ends. -/
inductive CallEnd
  /-- It comes back, with a success or a failure. -/
  | returned (result : CallResult)
  /-- It is torn down by a fault of the one who makes it. -/
  | crashed

/-- The phases of a call in a batch. -/
inductive CallPhase
  | waiting
  | flying
  | ended
  | joined
deriving DecidableEq, Repr

/-- The calls of a batch: their phases by position, the results collected so far, and whether a
    crash was among the calls joined. -/
structure Batch where
  phases : List CallPhase
  slots : List (Option CallResult)
  broken : Bool

/-- A move of a batch: the call at a position is launched, ends, or is joined. -/
inductive BatchMove
  | launch (position : Nat)
  | finish (position : Nat)
  | join (position : Nat)
deriving DecidableEq, Repr

namespace BatchMove

/-- The move takes an ended call out of the batch. -/
def isJoin : BatchMove → Bool
  | join _ => true
  | _ => false

end BatchMove

namespace Batch

/-- A batch of some calls, none of which is launched. -/
def start (size : Nat) : Batch where
  phases := List.replicate size .waiting
  slots := List.replicate size none
  broken := false

/-- Moves the call at a position from one phase to another, if it is in the first one. -/
def advance? (b : Batch) (position : Nat) (before after : CallPhase) : Option Batch :=
  if b.phases[position]? = some before then
    some { b with phases := b.phases.set position after }
  else none

/-- Takes note of how the call at a position ended. -/
def collect (b : Batch) (position : Nat) : CallEnd → Batch
  | .returned result => { b with slots := b.slots.set position (some result) }
  | .crashed => { b with broken := true }

/-- One move of a batch whose calls end as `ends` says; a move out of phase is refused. -/
def step? (ends : Nat → CallEnd) (b : Batch) : BatchMove → Option Batch
  | .launch i => b.advance? i .waiting .flying
  | .finish i => b.advance? i .flying .ended
  | .join i => (b.advance? i .ended .joined).map (·.collect i (ends i))

/-- Every call is joined. -/
def isDone (b : Batch) : Bool := b.phases.all (· == .joined)

/-- The results in the order of the positions; none if a call crashed. -/
def results? (b : Batch) : Option (List CallResult) :=
  if b.broken then none else some (b.slots.filterMap id)

/-- The moves of a batch whose calls are all launched first, and end and are joined one after the
    other. -/
def inOrder (size : Nat) : List BatchMove :=
  (List.range size).map .launch
    ++ (List.range size).flatMap fun i => [.finish i, .join i]

end Batch

end LoadBench
