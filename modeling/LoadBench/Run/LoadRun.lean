import LoadBench.Plan.Mix
import LoadBench.Run.Batch
import LoadBench.Summary.LoadReport

/-!
# Load runs

The users of a mix walk side by side, each over the pages of an action, and every page is a batch of
calls. A user who is at the end of the walk is joined by the run; when all are joined, the report is
drawn up. A run can be cancelled at any time; the users see that when they open a page and whenever
an ended call would be joined, the run whenever a user would be joined or a joined user has seen it,
and there is no report then.

* `UserTask`, `LoadRun.step?`: what a user is doing, and one move of a run.
* `LoadRun.fill`: users who were lost are put on record as failed.
* `LoadRun.play?`: some moves of a run one after the other.
* `LoadRun.inOrder`: the moves of a run whose users walk one after the other.
-/

namespace LoadBench

/-- Where a run, or the one who drives it, stands. -/
inductive RunState
  | idle
  | running
  | aggregating
  | complete
  | cancelled
deriving DecidableEq, Repr

namespace RunState

/-- The name in documents. -/
def name : RunState → String
  | idle => "idle"
  | running => "running"
  | aggregating => "aggregating"
  | complete => "complete"
  | cancelled => "cancelled"

/-- The name in messages. -/
def label : RunState → String
  | idle => "Idle"
  | running => "Running"
  | aggregating => "Aggregating"
  | complete => "Complete"
  | cancelled => "Cancelled"

/-- The state of a name. -/
def named? (s : String) : Option RunState :=
  [idle, running, aggregating, complete, cancelled].find? (·.name == s)

/-- The written form. -/
def data (s : RunState) : Data := .text s.name

/-- Reads a state. -/
def read? [Source δ] : δ → Option RunState := Source.choice named?

end RunState

/-- What can be seen of a run from outside, in the order in which it happens. -/
inductive LoadEvent
  /-- The run comes into a state. -/
  | entered (state : RunState)
  /-- A call is made. -/
  | called (user page position : Nat)
  /-- A call is over. -/
  | ended (user page position : Nat)
  /-- A user leaves a page; it is broken if one of its calls crashed. -/
  | left (user page : Nat) (isBroken : Bool)
  /-- A user was lost on the way. -/
  | lost (user : Nat)
  /-- A number of the users are joined. -/
  | progress (completed total : Nat) (scenario : String)
  /-- The run has its report. -/
  | completed (report : LoadReport)

/-- What a user is doing. -/
inductive UserTask
  /-- The user has left some pages and goes on to the next one. -/
  | between (visits : List PageVisit)
  /-- The user has left some pages and is on another. -/
  | visiting (visits : List PageVisit) (batch : Batch)
  /-- The user is at the end of the walk, or has seen that the run is cancelled. -/
  | ended (walk : Option UserWalk)
  /-- The user was lost on the way. -/
  | crashed
  /-- The run has taken note of the user. -/
  | joined

/-- A simulated user. -/
structure User where
  action : UserAction
  task : UserTask

/-- A move of one user. -/
inductive UserMove
  /-- Goes on to the next page, or ends the walk after the last one. -/
  | goOn
  /-- A move of the batch of the page. -/
  | call (move : BatchMove)
  /-- Leaves a page all of whose calls are joined. -/
  | leave (elapsedMs : Float)
  /-- Sees that the run is cancelled and gives the page up. -/
  | giveUp

/-- A move of a run; measured values come with the move at which they are taken. -/
inductive LoadMove
  | user (index : Nat) (move : UserMove)
  /-- Takes note of a user who has ended. -/
  | join (index : Nat)
  /-- Draws up the report. -/
  | conclude (totalTimeMs : Float)
  /-- Someone cancels the run. -/
  | cancel
  /-- The run sees that it is cancelled. -/
  | giveUp

/-- A run on its way. -/
structure LoadRun where
  users : List User
  /-- The walks taken note of, in the order in which that happened. -/
  walks : List UserWalk
  /-- The number of users taken note of. -/
  completed : Nat
  cancelled : Bool
  log : List LoadEvent
  result : Option (Except Fault LoadReport)

namespace User

/-- One move of a user; with it goes what can be seen of it. -/
def step? (service : Nat → Nat → CallEnd) (index : Nat) (cancelled : Bool) (u : User) :
    UserMove → Option (User × List LoadEvent)
  | .goOn =>
    match u.task with
    | .between visits =>
      match u.action.pages[visits.length]? with
      | none => some ({ u with task := .ended (some (.ofVisits index u.action.name visits)) }, [])
      | some page =>
        match page.calls? with
        | none => some ({ u with task := .crashed }, [])
        | some calls =>
          if cancelled then some ({ u with task := .ended none }, [])
          else some ({ u with task := .visiting visits (.start calls.length) }, [])
    | _ => none
  | .call m =>
    match u.task with
    | .visiting visits b =>
      if m.isJoin && cancelled then none
      else do
        let page := visits.length
        let b ← b.step? (service page) m
        let events := match m with
          | .launch i => [LoadEvent.called index page i]
          | .finish i => [.ended index page i]
          | .join _ => []
        return ({ u with task := .visiting visits b }, events)
    | _ => none
  | .leave elapsedMs =>
    match u.task with
    | .visiting visits b =>
      if cancelled || !b.isDone then none
      else do
        let page ← u.action.pages[visits.length]?
        let visit := match b.results? with
          | some results => PageVisit.completed page.name elapsedMs results
          | none => .lost page.name elapsedMs
        return ({ u with task := .between (visits ++ [visit]) },
          [.left index visits.length b.broken])
    | _ => none
  | .giveUp =>
    match u.task with
    | .visiting _ _ => if cancelled then some ({ u with task := .ended none }, []) else none
    | _ => none

/-- The run has taken note of the user. -/
def isJoined (u : User) : Bool :=
  match u.task with
  | .joined => true
  | _ => false

end User

namespace LoadRun

/-- A run of a mix whose roster is held, before its users start and with a token that may be
    cancelled already. -/
def start (m : Mix) (cancelled : Bool) : LoadRun where
  users := m.roster.map fun action => ⟨action, .between []⟩
  walks := []
  completed := 0
  cancelled := cancelled
  log := [.entered .running]
  result := none

/-- Ends the run as cancelled. -/
def stop (r : LoadRun) (m : Mix) : LoadRun :=
  { r with
    log := r.log ++ [.entered .cancelled]
    result := some (.error (.cancelled m.name)) }

/-- Puts every user of a roster on record as failed of whom there is no walk. -/
def fill (roster : List String) (walks : List UserWalk) : List UserWalk :=
  walks ++ (roster.mapIdx fun index action => UserWalk.lost index action).filter
    fun lost => !walks.any (·.userIndex == lost.userIndex)

/-- Takes note of the user at an index. The run looks for a cancellation before it takes note of
    someone, so that of a cancelled run only a user who has seen it can still be joined: the run had
    looked just before. -/
def join? (r : LoadRun) (m : Mix) (index : Nat) : Option LoadRun := do
  let u ← r.users[index]?
  let noted (walks : List UserWalk) (events : List LoadEvent) : LoadRun :=
    { r with
      users := r.users.set index { u with task := .joined }
      walks := walks
      completed := r.completed + 1
      log := r.log ++ events ++ [.progress (r.completed + 1) r.users.length m.name] }
  match u.task with
  | .ended (some walk) => if r.cancelled then none else some (noted (r.walks ++ [walk]) [])
  | .ended none => some (r.stop m)
  | .crashed => if r.cancelled then none else some (noted r.walks [.lost index])
  | _ => none

/-- One move of a run that has no result yet. -/
def advance? (m : Mix) (service : Nat → Nat → Nat → CallEnd) (r : LoadRun) :
    LoadMove → Option LoadRun
  | .user index move => do
    let u ← r.users[index]?
    let (u, events) ← u.step? (service index) index r.cancelled move
    return { r with users := r.users.set index u, log := r.log ++ events }
  | .join index => r.join? m index
  | .conclude totalTimeMs =>
    if r.cancelled || !r.users.all User.isJoined then none
    else
      let walks := fill (r.users.map (·.action.name)) r.walks
      let report := LoadReport.ofWalks m walks totalTimeMs
      some { r with
        result := some (.ok report)
        log := r.log ++ [.entered .aggregating, .entered .complete, .completed report] }
  | .giveUp => if r.cancelled then some (r.stop m) else none
  | .cancel => none

/-- One move of a run; a move that is not possible is refused. A run can be cancelled once, and
    also when it is over. -/
def step? (m : Mix) (service : Nat → Nat → Nat → CallEnd) (r : LoadRun) (move : LoadMove) :
    Option LoadRun :=
  match move with
  | .cancel => if r.cancelled then none else some { r with cancelled := true }
  | move => if r.result.isSome then none else advance? m service r move

/-- Some moves one after the other. -/
def play? (m : Mix) (service : Nat → Nat → Nat → CallEnd) (r : LoadRun)
    (moves : List LoadMove) : Option LoadRun :=
  moves.foldlM (step? m service) r

/-! ## The run in order -/

/-- The moves of a user on a page whose calls end in the order of their positions. -/
def pageInOrder (index size : Nat) : List LoadMove :=
  let moves : List UserMove := .goOn :: (Batch.inOrder size).map .call ++ [.leave 0.0]
  moves.map (.user index)

/-- The moves of a user on a page during a call of which the run is cancelled. -/
def pageCancelled (index size : Nat) : List LoadMove :=
  let moves : List UserMove := .goOn :: (List.range size).map fun i => .call (.launch i)
  moves.map (.user index) ++ [.cancel, .giveUp]

/-- The moves of a walk over some pages, and whether it ends the run: a page that cannot be held
    ends the walk, a call during which the run is cancelled ends the run. -/
def walkInOrder (stops : Call → Bool) (index : Nat) : List Page → List LoadMove × Bool
  | [] => ([.user index .goOn, .join index], false)
  | page :: rest =>
    match page.calls? with
    | none => ([.user index .goOn, .join index], false)
    | some calls =>
      if calls.any stops then (pageCancelled index calls.length, true)
      else
        let (moves, isOver) := walkInOrder stops index rest
        (pageInOrder index calls.length ++ moves, isOver)

/-- The moves of the walks of some users one after the other, up to one that ends the run. -/
def walksInOrder (stops : Call → Bool) (index : Nat) : List UserAction → List LoadMove
  | [] => [.conclude 0.0]
  | action :: rest =>
    let (moves, isOver) := walkInOrder stops index action.pages
    if isOver then moves else moves ++ walksInOrder stops (index + 1) rest

/-- The moves of a run whose users walk one after the other and whose times are all zero. The run
    is cancelled during the first call that `stops` names, if there is one. -/
def inOrder (stops : Call → Bool) (r : LoadRun) : List LoadMove :=
  if r.cancelled then [.giveUp] else walksInOrder stops 0 (r.users.map (·.action))

end LoadRun

end LoadBench
