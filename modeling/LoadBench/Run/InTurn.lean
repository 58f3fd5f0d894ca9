import LoadBench.Run.ScenarioRun
import LoadBench.Run.Scheduler

/-!
# Calls made in turn

What a plan comes to when its calls are made one at a time, in the order of the plan. This is said
without batches, users side by side or moves, and is what a run has to agree with however its calls
overlap. Times are measured, so they are given.

* `resultsInTurn`: the results of some calls, unless one crashes.
* `Scenario.iterationsInTurn`: the iterations of a scenario.
* `Mix.walksInTurn`: the walks of the users of a mix.
* `Mix.recordsInTurn`: what is on record of the users, some of whom may be lost on the way.
* `Mix.callsInTurn`: the calls themselves, by user, page and position.
-/

namespace LoadBench

/-- The result of a call that came back. -/
def CallEnd.result? : CallEnd → Option CallResult
  | .returned result => some result
  | .crashed => none

/-- The results of some calls that are made one at a time; none if one of them crashes. -/
def resultsInTurn (size : Nat) (ends : Nat → CallEnd) : Option (List CallResult) :=
  (List.range size).mapM fun i => (ends i).result?

/-- An iteration that takes a time and is over at an instant. -/
def Scenario.iterationInTurn (s : Scenario) (service : Nat → Nat → CallEnd) (index : Nat)
    (time : Float × Instant) : Iteration :=
  match resultsInTurn s.batchSize (service index) with
  | some results => .completed index results time.1 time.2
  | none => .lost index time.1 time.2

/-- The iterations of a scenario, one after the other. -/
def Scenario.iterationsInTurn (s : Scenario) (service : Nat → Nat → CallEnd)
    (times : Nat → Float × Instant) : List Iteration :=
  (List.range s.iterations).map fun index => s.iterationInTurn service index (times index)

/-- A visit of a page that takes a time. -/
def Page.visitInTurn (p : Page) (ends : Nat → CallEnd) (elapsedMs : Float) : PageVisit :=
  match resultsInTurn p.size ends with
  | some results => .completed p.name elapsedMs results
  | none => .lost p.name elapsedMs

/-- The walk of one user, page after page. -/
def UserAction.walkInTurn (a : UserAction) (index : Nat) (service : Nat → Nat → CallEnd)
    (times : Nat → Float) : UserWalk :=
  .ofVisits index a.name (a.pages.mapIdx fun k page => page.visitInTurn (service k) (times k))

/-- The walks of the users of a mix, user after user. -/
def Mix.walksInTurn (m : Mix) (service : Nat → Nat → Nat → CallEnd) (times : Nat → Nat → Float) :
    List UserWalk :=
  m.roster.mapIdx fun user action => action.walkInTurn user (service user) (times user)

/-- Every page of the walk can be held. -/
def UserAction.fits (a : UserAction) : Bool := a.pages.all (·.calls?.isSome)

/-- What is on record of one user: the walk, or that the user was lost on a page that cannot be
    held. -/
def UserAction.recordInTurn (a : UserAction) (index : Nat) (service : Nat → Nat → CallEnd)
    (times : Nat → Float) : UserWalk :=
  if a.fits then a.walkInTurn index service times else .lost index a.name

/-- What is on record of the users of a mix, user after user. -/
def Mix.recordsInTurn (m : Mix) (service : Nat → Nat → Nat → CallEnd) (times : Nat → Nat → Float) :
    List UserWalk :=
  m.roster.mapIdx fun user action => action.recordInTurn user (service user) (times user)

/-- What the entries of a list come to, one after the other, each under the place of its entry. -/
def placed {α β : Type} (f : α → List β) (entries : List α) : List (Nat × β) :=
  (entries.mapIdx fun place entry => (f entry).map (place, ·)).flatten

/-- The pages of a walk in front of the first one that cannot be held. -/
def UserAction.pagesReached (a : UserAction) : List Page := a.pages.takeWhile (·.calls?.isSome)

/-- The calls of a walk, by page and position. -/
def UserAction.callsInTurn (a : UserAction) : List (Nat × Nat) :=
  placed (fun page => List.range page.size) a.pagesReached

/-- The calls of the users of a mix, by user, page and position. -/
def Mix.callsInTurn (m : Mix) : List (Nat × Nat × Nat) := placed UserAction.callsInTurn m.roster

end LoadBench
