import LoadBench.Plan.Mix
import LoadBench.Settings

/-!
# Stages of a mix

A staged run performs a mix for one number of users after the other: raised step by step up to the
target, or in waves that are shares of it.

* `rampSizes`, `waveSizes`: the numbers of users; a ramp that cannot be counted or held has none.
* `Mix.planRamp`, `Mix.ramp`, `Mix.waves`: the mixes of the stages, in the order in which they run.
-/

namespace LoadBench

/-- The number of users of the `k`-th of some stages: its share of the target, rounded up. The
    product of the target and `k` has to be a counter, although the share always is. -/
def rampSize (total stages k : Nat) : Except Breakdown Nat := do
  let n ← Counter.product total k
  return n / stages + if n % stages == 0 then 0 else 1

/-- The sizes of so many stages, or of more, cannot be held: a size takes 8 bytes. -/
def rampLimit : Nat := Counter.listLimit 8

/-- The numbers of users of a ramp; a ramp without stages has none. -/
def rampSizes (total stages : Nat) : Except Breakdown (List Nat) :=
  if stages < rampLimit then (List.range stages).mapM fun k => rampSize total stages (k + 1)
  else .error .capacity

/-- The number of users of a wave: its share of the target, rounded up; none where that is not
    positive or not finite. -/
def waveSize (total : Nat) (fraction : Float) : Nat :=
  match Binary64.dyad? (Binary64.ofCount total * fraction) with
  | some d => Counter.saturate d.ceil
  | none => 0

/-- The numbers of users of some waves. -/
def waveSizes (total : Nat) (phases : List BurstPhase) : List Nat :=
  phases.map fun p => waveSize total p.fraction

namespace Mix

/-- The reports on so many stages, or on more, cannot be held: a report takes 376 bytes. -/
def stageLimit : Nat := Counter.listLimit 376

/-- The mixes of a ramp of some stages, if the reports on them can be held. -/
def planRamp (m : Mix) (stages : Nat) : Except Breakdown (List Mix) := do
  let sizes ← rampSizes m.users stages
  if stages < stageLimit then
    return sizes.mapIdx fun k users =>
      m.scaled (m.name ++ s!" - stage {k + 1}/{stages} ({users} users)") users
  else throw .capacity

/-- The mixes that a ramp of some stages performs; one that breaks down performs none. -/
def ramp (m : Mix) (stages : Nat) : List Mix :=
  match m.planRamp stages with
  | .ok mixes => mixes
  | .error _ => []

/-- The mixes of some waves. -/
def waves (m : Mix) (phases : List BurstPhase) : List Mix :=
  phases.map fun p =>
    let users := waveSize m.users p.fraction
    m.scaled (m.name ++ " - " ++ p.name ++ s!" ({users} users)") users

end Mix

end LoadBench
