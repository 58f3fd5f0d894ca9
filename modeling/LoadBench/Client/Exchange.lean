import LoadBench.Client.Address
import LoadBench.Client.Status
import LoadBench.Json.Reader
import LoadBench.Measure.CallResult
import LoadBench.Settings

/-!
# Exchanges with a server

A call becomes a request, a server does something about it, and the outcome is judged: first whether
there was an answer in time, then its status, then its body. Redirects are followed up to a limit.

* `Answer`: what a server does about a request.
* `Settings.judge`: the outcome of an answer.
* `Settings.exchange`: the requests that a call makes, and its outcome.
-/

namespace LoadBench

/-- What a server does about a request. -/
inductive Answer
  /-- It answers; the body may break off. -/
  | reply (status : Status) (location : Option String) (body : ByteArray) (isComplete : Bool)
  /-- It ends the connection without an answer. -/
  | hangUp
  /-- It does nothing. -/
  | silence

/-- What came of a call, and the addresses it asked for on the way. -/
structure Exchange where
  requests : List Address
  outcome : Outcome

/-- No connection, or a broken one. -/
def Outcome.unreached : Outcome := .failure .transport "the service could not be reached"

/-- No answer in time. -/
def Outcome.late : Outcome := .failure .timeout "the service did not answer in time"

/-- An answer that is no JSON. -/
def Outcome.unreadable : Outcome := .failure .decode "the answer is not JSON"

/-- The outcome of a body that is to be JSON. -/
def Outcome.ofBody (body : ByteArray) : Outcome :=
  match (String.fromUTF8? body).bind Json.parse? with
  | some payload => .success payload
  | none => .unreadable

namespace Settings

/-- The outcome of an answer: a status that is refused counts before a body that breaks off, and
    that before one that is no JSON. -/
def judge (s : Settings) (status : Status) (body : ByteArray) (isComplete : Bool) : Outcome :=
  if s.statusPolicy == .requireSuccess && !status.isSuccess then
    .failure .status ("HTTP " ++ status.text)
  else if status.isEmpty then .ofBody .empty
  else if !isComplete then .unreached
  else .ofBody body

/-- The most redirects that are followed. -/
def redirectLimit : Nat := 10

/-- Where an answer says that the resource is to be found. -/
def redirect? (address : Address) (status : Status) (location : Option String) :
    Option Destination :=
  match status.isRedirect, location.map address.resolve with
  | true, some .malformed => none
  | true, d => d
  | false, _ => none

/-- The exchange about a destination with a server that does what a list says, request after
    request, and then hangs up. A server may be asked for some addresses only. -/
def exchangeAt (s : Settings) (serves : Address → Bool) (redirects : Nat)
    (destination : Destination) : List Answer → Exchange
  | [] =>
    match destination with
    | .resource a => ⟨if serves a then [a] else [], .unreached⟩
    | _ => ⟨[], .unreached⟩
  | answer :: rest =>
    match destination with
    | .resource a =>
      if !serves a then ⟨[], .unreached⟩
      else
        match answer with
        | .hangUp => ⟨[a], .unreached⟩
        | .silence => ⟨[a], .late⟩
        | .reply status location body isComplete =>
          match redirect? a status location with
          | none => ⟨[a], s.judge status body isComplete⟩
          | some d =>
            if redirects == 0 then ⟨[a], .unreached⟩
            else
              let e := s.exchangeAt serves (redirects - 1) d rest
              ⟨a :: e.requests, e.outcome⟩
    | _ => ⟨[], .unreached⟩

/-- Where a call goes: to its endpoint, with its parameters. -/
def destination (s : Settings) (c : Call) : Destination :=
  match Address.read (s.url c.endpoint.path) with
  | .resource a => .resource (a.withParameters c.parameters)
  | d => d

/-- The exchange of a call with a server that does what a list says. -/
def exchange (s : Settings) (serves : Address → Bool) (c : Call) (answers : List Answer) :
    Exchange :=
  s.exchangeAt serves redirectLimit (s.destination c) answers

end Settings

end LoadBench
