import LoadBench.Json.Quoted

/-!
# Addresses

The address of a resource on a server, in the one form in which requests name it: blanks around it
and line breaks in it are dropped, `.` and `..` are resolved, and a character that may not stand in
a path or a query is written by its bytes.

* `Address.read`: the address that a text spells.
* `Address.resolve`: the address that a text spells on a page.
* `Address.withParameters`, `Address.requestLine`: query parameters, and the head of a request.
-/

namespace LoadBench

/-- The address of a resource on a server. -/
structure Address where
  secure : Bool
  host : String
  socket : Nat
  path : String
  query : Option String
deriving DecidableEq, Repr

/-- What a text that should be an address spells. -/
inductive Destination
  | resource (address : Address)
  /-- An address that cannot be asked for by requests. -/
  | foreign
  | malformed
deriving DecidableEq, Repr

namespace Address

/-! ## Characters -/

/-- A byte as a percent sign and two digits of base sixteen in capitals. -/
def percentByte (b : UInt8) : List Char :=
  '%' :: [b.toNat / 16, b.toNat % 16].map fun n => (Json.Quoted.hexDigit n).toUpper

/-- A text with every character written by its bytes that may not stand there. -/
def percentEncoded (stands : Char → Bool) (cs : List Char) : List Char :=
  cs.flatMap fun c =>
    if stands c then [c] else (String.ofList [c]).toUTF8.toList.flatMap percentByte

/-- The character can be seen and is ASCII. -/
def isVisibleAscii (c : Char) : Bool := '!' ≤ c && c ≤ '~'

/-- The character may stand in a path. -/
def standsInPath (c : Char) : Bool :=
  isVisibleAscii c && !(['"', '#', '<', '>', '?', '\x7b', '\x7d', Char.ofNat 0x60].contains c)

/-- The character may stand in a query. -/
def standsInQuery (c : Char) : Bool :=
  isVisibleAscii c && !(['"', '#', '<', '>', '\''].contains c)

/-- The character may stand in the name of a host. -/
def standsInHost (c : Char) : Bool :=
  isVisibleAscii c
    && !(['#', '%', '/', ':', '<', '>', '?', '@', '[', '\\', ']', '^', '|'].contains c)

/-- The character parts a path. -/
def isSlash (c : Char) : Bool := c == '/' || c == '\\'

/-- A text without the blanks and controls around it, and without line breaks and tabs. -/
def cleaned (cs : List Char) : List Char :=
  let isBlank (c : Char) : Bool := c.toNat ≤ 0x20
  ((cs.dropWhile isBlank).reverse.dropWhile isBlank).reverse.filter
    fun c => !(['\t', '\n', '\r'].contains c)

/-- A text up to the first character with a property, and what follows that character. -/
def cutAt (p : Char → Bool) (cs : List Char) : List Char × Option (List Char) :=
  (cs.takeWhile (!p ·), match cs.dropWhile (!p ·) with
    | [] => none
    | _ :: rest => some rest)

/-! ## Paths -/

/-- The number of dots that a part of a path consists of, each written as such or by its byte. -/
def dots? : List Char → Option Nat
  | [] => some 0
  | '.' :: rest => (dots? rest).map (· + 1)
  | '%' :: '2' :: c :: rest => if c.toLower == 'e' then (dots? rest).map (· + 1) else none
  | _ => none

/-- Whether a part stands for the directory it is in, or for the one above. -/
inductive Step
  | stay
  | up
  | down

/-- What a part of a path means. -/
def step (part : List Char) : Step :=
  match dots? part with
  | some 1 => .stay
  | some 2 => .up
  | _ => .down

/-- The directories of a path, innermost first, after further parts; the last part names a
    resource, which is empty behind a step that names none. -/
def walk (above : List (List Char)) : List (List Char) → List (List Char)
  | [] => above
  | part :: rest =>
    let here := match step part with
      | .stay => above
      | .up => above.tail
      | .down => percentEncoded standsInPath part :: above
    match rest, step part with
    | [], .stay | [], .up => [] :: here
    | rest, _ => walk here rest

/-- The parts of a path behind its first slash. -/
def parts (cs : List Char) : List (List Char) :=
  cs.foldr (fun c done =>
    match isSlash c, done with
    | false, part :: rest => (c :: part) :: rest
    | _, done => [] :: done) [[]]

/-- A path from its parts, the innermost first. -/
def joined (inward : List (List Char)) : String :=
  String.ofList (inward.reverse.flatMap ('/' :: ·))

/-- The path that a text spells below some directories. -/
def pathBelow (above : List (List Char)) (cs : List Char) : String := joined (walk above (parts cs))

/-- The directories of a path, innermost first. -/
def directories (path : String) : List (List Char) := (parts (path.toList.drop 1)).reverse.tail

/-! ## Whole addresses -/

/-- The number of the socket where none is given. -/
def standardSocket (secure : Bool) : Nat := if secure then 443 else 80

/-- The number of a socket; an empty text stands for the standard one. -/
def socket? (secure : Bool) (cs : List Char) : Option Nat :=
  if cs.isEmpty then some (standardSocket secure)
  else if cs.all Char.isDigit then
    let n := cs.foldl (fun n c => 10 * n + (c.toNat - '0'.toNat)) 0
    if n < Nat.pow 2 16 then some n else none
  else none

/-- Path and query of a text without a fragment, the path to be read by a function. -/
def withTail (a : Address) (path : List Char → String) (cs : List Char) : Address :=
  let (front, query) := cutAt (· == '?') cs
  { a with
    path := path front
    query := query.map fun q => String.ofList (percentEncoded standsInQuery q) }

/-- The address with the path and the query that a text spells from the root. -/
def atRoot (a : Address) (cs : List Char) : Address :=
  a.withTail (fun path => pathBelow [] (path.drop 1)) cs

/-- The address behind the slashes that follow a scheme. -/
def behindSlashes (secure : Bool) (cs : List Char) : Destination :=
  let authority := cs.takeWhile fun c => !isSlash c && c != '?'
  let rest := cs.dropWhile fun c => !isSlash c && c != '?'
  let place := (authority.reverse.takeWhile (· != '@')).reverse
  let (host, number) := cutAt (· == ':') place
  if host.isEmpty || !host.all standsInHost then .malformed
  else
    match socket? secure (number.getD []) with
    | none => .malformed
    | some socket =>
      let root : Address := ⟨secure, String.ofList (host.map Char.toLower), socket, "/", none⟩
      .resource (root.atRoot rest)

/-- The scheme of a text, lowered, and what follows its colon. -/
def scheme? (cs : List Char) : Option (String × List Char) :=
  match cutAt (· == ':') cs with
  | (scheme, some rest) =>
    let isName := scheme.head?.any Char.isAlpha
      && scheme.all fun c => c.isAlphanum || ['+', '-', '.'].contains c
    if isName then some (String.ofList (scheme.map Char.toLower), rest) else none
  | _ => none

/-- A cleaned text without its fragment. -/
def body (text : String) : List Char := (cutAt (· == '#') (cleaned text.toList)).1

/-- The address that a text with a scheme spells. -/
def absolute (scheme : String) (rest : List Char) : Destination :=
  if scheme == "http" then behindSlashes false (rest.dropWhile isSlash)
  else if scheme == "https" then behindSlashes true (rest.dropWhile isSlash)
  else .foreign

/-- The address that a text spells. -/
def read (text : String) : Destination :=
  match scheme? (body text) with
  | some (scheme, rest) => absolute scheme rest
  | none => .malformed

/-- The address that a text spells on the page at an address: what the text leaves out is taken from
    there. -/
def resolve (a : Address) (text : String) : Destination :=
  match scheme? (body text) with
  | some (scheme, rest) => absolute scheme rest
  | none =>
    match body text with
    | [] => .resource a
    | c :: rest =>
      if c == '?' then .resource (a.withTail (fun _ => a.path) (c :: rest))
      else if !isSlash c then .resource (a.withTail (pathBelow (directories a.path)) (c :: rest))
      else if rest.head?.any isSlash then behindSlashes a.secure (rest.dropWhile isSlash)
      else .resource (a.atRoot (c :: rest))

/-! ## Requests -/

/-- The address with parameters behind those that it has. -/
def withParameters (a : Address) (parameters : List (String × String)) : Address :=
  if parameters.isEmpty then { a with query := a.query.filter (· != "") }
  else
    let written := "&".intercalate (parameters.map fun (k, v) => k ++ "=" ++ v)
    { a with query := some (match a.query with
        | none | some "" => written
        | some q => q ++ "&" ++ written) }

/-- The first line of a request for the resource. -/
def requestLine (a : Address) : String :=
  "GET " ++ a.path ++ (match a.query with
    | some q => "?" ++ q
    | none => "") ++ " HTTP/1.1"

end Address

end LoadBench
