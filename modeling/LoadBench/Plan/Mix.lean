import LoadBench.Plan.Scenario

/-!
# Mixes of users

A mix is a number of users who perform actions at the same time. An action is a walk over pages, a
page is a set of requests, and weights say how often each comes.

* `repeatCount`, `assignmentCount`: how often a weighted request or action comes.
* `Page.calls`, `UserAction.requestCount`: what a page and a walk ask of the service.
* `Mix.roster?`, `Mix.realizedUsers`: who performs which action.
* `Mix.scaled`, `Mix.validate`: the same mix for another number of users; what a mix must have.
-/

namespace LoadBench

/-- Something with a weight. -/
structure Weighted (α : Type) where
  item : α
  weight : Float
deriving DecidableEq

/-! ## How often -/

/-- The number of repetitions that a weight of one stands for on a page. -/
def pageBaseline : Float := 10.0

/-- How often a weighted request comes: weight times baseline to the nearest integer, a half going
    up, and at least once. -/
def repeatCount (weight baseline : Float) : Nat :=
  match Binary64.dyad? (weight * baseline) with
  | some d => max 1 (Counter.saturate d.round)
  | none => 1

/-- How many of some users perform a weighted action: weight times users to the nearest integer, a
    half going up; none if that is not a number or infinite. -/
def assignmentCount (weight : Float) (users : Nat) : Nat :=
  match Binary64.dyad? (weight * Binary64.ofCount users) with
  | some d => Counter.saturate d.round
  | none => 0

/-! ## Requests and pages -/

/-- A kind of request that pages are made of. -/
structure RequestKind where
  endpoint : Endpoint
  queryCount : Option Nat
  timeoutSecs : Option Float
  /-- The time that the request is expected to take, in milliseconds. -/
  expectedMs : Nat
  complexity : Complexity
deriving DecidableEq

namespace RequestKind

/-- The call that makes such a request. -/
def call (k : RequestKind) : Call where
  endpoint := k.endpoint
  timeoutSecs := k.timeoutSecs
  queryCount := k.queryCount
  operation := none
  complexity := some k.complexity

/-- The written form. -/
def data (k : RequestKind) : Data :=
  .record [("endpoint", k.endpoint.data), ("query_count", .optional .natural k.queryCount),
    ("timeout_secs", .optional .real k.timeoutSecs), ("expected_ms", .natural k.expectedMs),
    ("complexity", k.complexity.data)]

open Source in
/-- Reads a kind of request. -/
def read? [Source δ] : δ → Option RequestKind :=
  record do
    let endpoint ← required "endpoint" Endpoint.read?
    let queryCount ← optionalField "query_count" smallCount
    let timeoutSecs ← optionalField "timeout_secs" real
    let expectedMs ← defaulted "expected_ms" 0 count
    let complexity ← required "complexity" Complexity.read?
    return { endpoint, queryCount, timeoutSecs, expectedMs, complexity }

/-- The parts of a written kind of request. -/
def outline : Outline :=
  .ofFields [("endpoint", Endpoint.outline)]
    ["query_count", "timeout_secs", "expected_ms", "complexity"]

end RequestKind

namespace Weighted

/-- The written form, the item under a name of its own. -/
def data (name : String) (write : α → Data) (w : Weighted α) : Data :=
  .record [(name, write w.item), ("weight", .real w.weight)]

open Source in
/-- Reads something with a weight; the weight is one by default. -/
def read? [Source δ] (name : String) (read : δ → Option α) : δ → Option (Weighted α) :=
  record do
    let item ← required name read
    let weight ← defaulted "weight" 1.0 real
    return { item, weight }

/-- The parts of something written with a weight. -/
def outline (name : String) (item : Outline) : Outline :=
  .ofFields [(name, item)] ["weight"]

end Weighted

/-- A page: the requests that loading it makes. -/
structure Page where
  name : String
  description : String
  requests : List (Weighted RequestKind)
deriving DecidableEq

namespace Page

/-- The number of calls that loading the page makes. -/
def size (p : Page) : Nat :=
  Counter.total (p.requests.map fun w => repeatCount w.weight pageBaseline)

/-- The calls that loading the page makes: every request as often as its weight says. -/
def calls (p : Page) : List Call :=
  p.requests.flatMap fun w => List.replicate (repeatCount w.weight pageBaseline) w.item.call

/-- A page of so many calls, or of more, cannot be held: a call takes 128 bytes. -/
def sizeLimit : Nat := Counter.listLimit 128

/-- The calls of a page that can be held. -/
def calls? (p : Page) : Option (List Call) := if p.size < sizeLimit then some p.calls else none

/-- The written form. -/
def data (p : Page) : Data :=
  .record [("name", .text p.name), ("description", .text p.description),
    ("requests", .list (p.requests.map (Weighted.data "request" RequestKind.data)))]

open Source in
/-- Reads a page. -/
def read? [Source δ] : δ → Option Page :=
  record do
    let name ← required "name" text
    let description ← defaulted "description" "" text
    let requests ← required "requests" (listOf (Weighted.read? "request" RequestKind.read?))
    return { name, description, requests }

/-- The parts of a written page. -/
def outline : Outline :=
  .ofFields [("requests", .list (Weighted.outline "request" RequestKind.outline))]
    ["name", "description"]

end Page

/-! ## Actions and mixes -/

/-- An action of a user: a walk over pages. -/
structure UserAction where
  name : String
  description : String
  pages : List Page
deriving DecidableEq

namespace UserAction

/-- The number of calls that the walk makes, as a number of any size. -/
def requestCount (a : UserAction) : Nat := Counter.total (a.pages.map Page.size)

/-- The written form. -/
def data (a : UserAction) : Data :=
  .record [("name", .text a.name), ("description", .text a.description),
    ("pages", .list (a.pages.map Page.data))]

open Source in
/-- Reads an action. -/
def read? [Source δ] : δ → Option UserAction :=
  record do
    let name ← required "name" text
    let description ← defaulted "description" "" text
    let pages ← required "pages" (listOf Page.read?)
    return { name, description, pages }

/-- The parts of a written action. -/
def outline : Outline :=
  .ofFields [("pages", .list Page.outline)] ["name", "description"]

end UserAction

/-- A number of users who perform weighted actions at the same time. -/
structure Mix where
  name : String
  description : String
  users : Nat
  actions : List (Weighted UserAction)
deriving DecidableEq

namespace Mix

/-- The actions of the users, one entry a user, in the order of the actions. -/
def roster (m : Mix) : List UserAction :=
  m.actions.flatMap fun w => List.replicate (assignmentCount w.weight m.users) w.item

/-- The number of users that the weights call for, as a number of any size; rounding may make it
    differ from the number asked for. -/
def realizedUsers (m : Mix) : Nat :=
  Counter.total (m.actions.map fun w => assignmentCount w.weight m.users)

/-- A roster of so many users, or of more, cannot be held: an action takes 72 bytes. -/
def rosterLimit : Nat := Counter.listLimit 72

/-- The roster of a mix whose users can be held. -/
def roster? (m : Mix) : Option (List UserAction) :=
  if m.realizedUsers < rosterLimit then some m.roster else none

/-- The same mix under another name and for another number of users. -/
def scaled (m : Mix) (name : String) (users : Nat) : Mix := { m with name, users }

/-- A weight is finite and not negative. -/
def isUsableWeight (w : Float) : Bool := w.isFinite && !(w < 0.0)

/-- A mix has actions, weights that can be used, and no action without pages. -/
def validate (m : Mix) : Except Fault Unit :=
  if m.actions.isEmpty then .error (.plan (.noActions m.name))
  else if m.actions.any (!isUsableWeight ·.weight) then .error (.plan (.actionWeight m.name))
  else
    match m.actions.find? (·.item.pages.isEmpty) with
    | some w => .error (.plan (.noPages m.name w.item.name))
    | none => .ok ()

/-- The written form. -/
def data (m : Mix) : Data :=
  .record [("name", .text m.name), ("description", .text m.description),
    ("concurrent_users", .natural m.users),
    ("actions", .list (m.actions.map (Weighted.data "action" UserAction.data)))]

open Source in
/-- Reads a mix. -/
def read? [Source δ] : δ → Option Mix :=
  record do
    let name ← required "name" text
    let description ← defaulted "description" "" text
    let users ← required "concurrent_users" count
    let actions ← required "actions" (listOf (Weighted.read? "action" UserAction.read?))
    return { name, description, users, actions }

/-- The parts of a written mix. -/
def outline : Outline :=
  .ofFields [("actions", .list (Weighted.outline "action" UserAction.outline))]
    ["name", "description", "concurrent_users"]

end Mix

end LoadBench
