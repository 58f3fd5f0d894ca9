import LoadBench.Plan.Mix

/-!
# Custom tests

A custom test is a number of users and some actions of equal weight, under a traffic pattern.

* `CustomTest.mix`: the mix that it stands for.
-/

namespace LoadBench

/-- How the users of a test arrive. -/
inductive TrafficPattern
  | uniform
  | gradual
  | burst
deriving DecidableEq, Repr

namespace TrafficPattern

/-- The name in documents and reports. -/
def name : TrafficPattern → String
  | uniform => "uniform"
  | gradual => "gradual"
  | burst => "burst"

/-- The pattern of a name. -/
def named? (s : String) : Option TrafficPattern :=
  [uniform, gradual, burst].find? (·.name == s)

/-- The written form. -/
def data (p : TrafficPattern) : Data := .text p.name

/-- Reads a pattern. -/
def read? [Source δ] : δ → Option TrafficPattern := Source.choice named?

end TrafficPattern

/-- Some users who perform some actions in equal shares. -/
structure CustomTest where
  users : Nat
  actions : List UserAction
  pattern : TrafficPattern
deriving DecidableEq

namespace CustomTest

/-- The mix of a test: all its actions, with weights that add up to one. -/
def mix (t : CustomTest) : Mix where
  name := s!"Custom test: {t.users} users, " ++ t.pattern.name ++ " traffic"
  description := "Run with a custom configuration"
  users := t.users
  actions :=
    let weight := Statistics.guardedRatio 1.0 (Binary64.ofCount t.actions.length)
    t.actions.map fun a => ⟨a, weight⟩

/-- The written form. -/
def data (t : CustomTest) : Data :=
  .record [("users", .natural t.users), ("actions", .list (t.actions.map UserAction.data)),
    ("pattern", t.pattern.data)]

open Source in
/-- Reads a test; its users arrive all at once by default. -/
def read? [Source δ] : δ → Option CustomTest :=
  record do
    let users ← required "users" count
    let actions ← required "actions" (listOf UserAction.read?)
    let pattern ← defaulted "pattern" .uniform TrafficPattern.read?
    return { users, actions, pattern }

end CustomTest

end LoadBench
