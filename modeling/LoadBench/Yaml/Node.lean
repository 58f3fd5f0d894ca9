import LoadBench.Yaml.Lexer

/-!
# Nodes of a document

The tokens of a text make up at most one document, and a document is a tree. A node may be named by
an anchor, and an alias stands for the node of a name; the nodes are kept apart from the aliases, so
a tree is finite whatever its aliases stand for.

* `Node`: a tree with anchors and aliases by number.
* `Builder`, `node`: the tree that some tokens make up.
* `document?`: the document of a text.
-/

namespace LoadBench.Yaml

/-- What may stand in front of a node: the number of its anchor, and its tag. -/
structure Marks where
  anchor : Option Nat
  tag : Option Tag
deriving DecidableEq, Repr

namespace Marks

/-- Neither an anchor nor a tag. -/
def none : Marks := ⟨.none, .none⟩

end Marks

/-- A node of a document. -/
inductive Node
  | scalar (marks : Marks) (text : String) (style : Style)
  | list (marks : Marks) (items : List Node)
  | record (marks : Marks) (fields : List (Node × Node))
  | reference (anchor : Nat)
deriving Repr

namespace Node

/-- The scalar that stands where nothing is written. -/
def empty (marks : Marks) : Node := scalar marks "" .plain

mutual

/-- The length of a tree: scalars and aliases count once, lists and records at either end. -/
def length : Node → Nat
  | scalar .. => 1
  | list _ items => itemsLength items + 2
  | record _ fields => fieldsLength fields + 2
  | reference _ => 1

/-- The length of some items. -/
def itemsLength : List Node → Nat
  | [] => 0
  | n :: rest => length n + itemsLength rest

/-- The length of some fields. -/
def fieldsLength : List (Node × Node) → Nat
  | [] => 0
  | (k, v) :: rest => length k + length v + fieldsLength rest

end

mutual

/-- The nodes with anchors in a tree, in the order in which they begin. -/
def anchored : Node → List (Nat × Node)
  | scalar m text style => m.anchor.toList.map (·, scalar m text style)
  | list m items => m.anchor.toList.map (·, list m items) ++ anchoredItems items
  | record m fields => m.anchor.toList.map (·, record m fields) ++ anchoredFields fields
  | reference _ => []

/-- The nodes with anchors among some items. -/
def anchoredItems : List Node → List (Nat × Node)
  | [] => []
  | n :: rest => anchored n ++ anchoredItems rest

/-- The nodes with anchors among some fields. -/
def anchoredFields : List (Node × Node) → List (Nat × Node)
  | [] => []
  | (k, v) :: rest => anchored k ++ anchored v ++ anchoredFields rest

end

end Node

/-! ## Building -/

/-- What is left of the tokens, the numbers of the anchors so far, and the shorthands for tags. -/
structure Building where
  tokens : List Token
  anchors : List (String × Nat)
  shorthands : List (String × Tag)

/-- A step that takes tokens. -/
abbrev Builder := StateT Building Option

namespace Builder

/-- The next token. -/
def peek : Builder (Option Token) := return (← get).tokens.head?

/-- Passes over the next token. -/
def skip : Builder Unit := modify fun b => { b with tokens := b.tokens.tail }

/-- Passes over the next token if it is a certain one. -/
def accept (t : Token) : Builder Bool := do
  if (← peek) == some t then
    skip
    return true
  else return false

/-- Passes over a certain token. -/
def expect (t : Token) : Builder Unit := do
  if !(← accept t) then failure

/-- The next token is one of some. -/
def atAny (ts : List Token) : Builder Bool := return (← peek).any ts.contains

/-- The number of an anchor: a new name has the number of names before it. A name that is used
    again has that number too. -/
def declare (name : String) : Builder Nat := do
  let b ← get
  let number := b.anchors.length
  set { b with anchors := (name, number) :: b.anchors.filter (·.1 != name) }
  return number

/-- The tag that a handle and a suffix stand for. -/
def expand (handle : String) (suffix : Tag) : Builder Tag := do
  if handle.isEmpty then return suffix
  match (← get).shorthands.lookup handle with
  | some expansion => return expansion ++ suffix
  | none => failure

/-- The anchor and the tag in front of a node, in either order. -/
def marks : Builder Marks := do
  let anchor : Builder (Option Nat) := do
    match ← peek with
    | some (.anchor name) => do
      skip
      return some (← declare name)
    | _ => return none
  let tag : Builder (Option Tag) := do
    match ← peek with
    | some (.tag handle suffix) => do
      skip
      return some (← expand handle suffix)
    | _ => return none
  match ← anchor with
  | some a => return ⟨some a, ← tag⟩
  | none =>
    match ← tag with
    | some t => return ⟨← anchor, some t⟩
    | none => return .none

/-- The node that an alias stands for. -/
def aliased (name : String) : Builder Node := do
  match (← get).anchors.lookup name with
  | some number => return .reference number
  | none => failure

mutual

/-- A node. Blocks may stand where `block` says so, and the items of a list directly below a key
    where `hanging` says so. -/
def node (block hanging : Bool) : Nat → Builder Node
  | 0 => failure
  | fuel + 1 => do
    match ← peek with
    | some (.reference name) => do
      skip
      aliased name
    | _ =>
      let m ← marks
      match ← peek with
      | some .entry => if hanging then return .list m (← hangingItems fuel) else unwritten m
      | some (.scalar text style) => do
        skip
        return .scalar m text style
      | some .flowList => do
        skip
        return .list m (← flowItems true fuel)
      | some .flowRecord => do
        skip
        return .record m (← flowFields true fuel)
      | some .blockList =>
        if block then do
          skip
          return .list m (← blockItems fuel)
        else unwritten m
      | some .blockRecord =>
        if block then do
          skip
          return .record m (← blockFields fuel)
        else unwritten m
      | _ => unwritten m

/-- A node of which only the marks are written, if there are any. -/
def unwritten (m : Marks) : Builder Node :=
  if m == .none then failure else return .empty m

/-- A node, or an empty one in front of a token that ends it. -/
def nodeUnless (ends : List Token) (block hanging : Bool) : Nat → Builder Node
  | 0 => failure
  | fuel + 1 => do
    if (← peek).isNone || (← atAny ends) then return .empty .none
    else node block hanging fuel

/-- The items of a block up to its end. -/
def blockItems : Nat → Builder (List Node)
  | 0 => failure
  | fuel + 1 => do
    if ← accept .entry then
      let item ← nodeUnless [.entry, .blockEnd] true false fuel
      return item :: (← blockItems fuel)
    else
      expect .blockEnd
      return []

/-- The items of a list directly below a key. -/
def hangingItems : Nat → Builder (List Node)
  | 0 => failure
  | fuel + 1 => do
    if ← accept .entry then
      let item ← nodeUnless [.entry, .key, .value, .blockEnd] true false fuel
      return item :: (← hangingItems fuel)
    else return []

/-- The fields of a block up to its end; a key or a value may be missing. -/
def blockFields : Nat → Builder (List (Node × Node))
  | 0 => failure
  | fuel + 1 => do
    if ← accept .key then
      let k ← nodeUnless [.key, .value, .blockEnd] true true fuel
      let v ← if ← accept .value then nodeUnless [.key, .value, .blockEnd] true true fuel
        else pure (Node.empty .none)
      return (k, v) :: (← blockFields fuel)
    else if ← accept .blockEnd then return []
    else failure

/-- The items between brackets up to the closing one; a single field is a record of its own. Where
    the key of such a field is missing, what stands in its place is lost. -/
def flowItems (first : Bool) : Nat → Builder (List Node)
  | 0 => failure
  | fuel + 1 => do
    if ← accept .flowListEnd then return []
    if !first then expect .flowEntry
    if ← accept .key then
      let k ← if ← atAny [.value, .flowEntry, .flowListEnd] then do
          skip
          pure (Node.empty .none)
        else node false false fuel
      let v ← if ← accept .value then nodeUnless [.flowEntry, .flowListEnd] false false fuel
        else pure (Node.empty .none)
      return .record .none [(k, v)] :: (← flowItems false fuel)
    else if ← accept .flowListEnd then return []
    else
      let item ← node false false fuel
      return item :: (← flowItems false fuel)

/-- The fields between braces up to the closing one. -/
def flowFields (first : Bool) : Nat → Builder (List (Node × Node))
  | 0 => failure
  | fuel + 1 => do
    if ← accept .flowRecordEnd then return []
    if !first then expect .flowEntry
    if ← accept .key then
      let k ← nodeUnless [.value, .flowEntry, .flowRecordEnd] false false fuel
      let v ← if ← accept .value then nodeUnless [.flowEntry, .flowRecordEnd] false false fuel
        else pure (Node.empty .none)
      return (k, v) :: (← flowFields false fuel)
    else if ← accept .flowRecordEnd then return []
    else
      let k ← node false false fuel
      return (k, .empty .none) :: (← flowFields false fuel)

end

/-! ## Documents -/

/-- The shorthands that need not be declared. -/
def standardShorthands : List (String × Tag) :=
  [("!", bareTag), ("!!", "tag:yaml.org,2002:".toUTF8.toList)]

/-- The directives in front of a document; a version may be declared once, and so may every
    shorthand. -/
def directives (versioned : Bool) (declared : List (String × Tag)) :
    List Token → Option (List (String × Tag) × List Token)
  | .version major minor :: rest =>
    if versioned || major != 1 || !(minor == 1 || minor == 2) then none
    else directives true declared rest
  | .tagShorthand handle expansion :: rest =>
    if declared.any (·.1 == handle) then none
    else directives versioned ((handle, expansion) :: declared) rest
  | rest => some (declared, rest)

/-- The node of a document; a text without one has none. -/
def document : Builder (Option Node) := do
  let b ← get
  let fuel := 4 * b.tokens.length + 8
  let (declared, rest) ← directives false [] b.tokens
  set { b with tokens := rest, shorthands := declared ++ b.shorthands }
  if b.tokens.isEmpty then return none
  let isMarked ← accept .documentStart
  if !isMarked && rest.length != b.tokens.length then failure
  let n ← if isMarked then nodeUnless [.documentStart, .documentEnd] true false fuel
    else node true false fuel
  modify fun b => { b with tokens := b.tokens.dropWhile (· == .documentEnd) }
  if (← peek).isSome then failure
  return some n

end Builder

/-- The document of a text: its node, and the nodes with anchors. A text with several documents has
    none that counts. -/
def document? (text : String) : Option (Node × List (Nat × Node)) := do
  let ts ← tokens? text
  let (n, _) ← Builder.document.run ⟨ts, [], Builder.standardShorthands⟩
  let n := n.getD (.empty .none)
  return (n, n.anchored)

end LoadBench.Yaml
