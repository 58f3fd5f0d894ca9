import LoadBench.Data.Outline
import LoadBench.Data.Source
import LoadBench.Fault
import LoadBench.Yaml.Node
import LoadBench.Yaml.Word

/-!
# Values in documents

What the nodes of a document hold. A text may be any scalar; truth values and numbers are plain
words, or literal scalars under a tag. A node on which nothing is written is an empty list or a
record without fields.

* `Value`: a node together with what aliases stand for; it is a `Source`.
* `Value.follow?`: the aliases on the way to the parts of a value, counted against an allowance.
* `readText`: a value from the text of a document, in which aliases are not followed too often.
* `readBytes`: a value from the bytes of a file, which may be missing.
-/

namespace LoadBench.Yaml

/-- The tag of a type that documents know without a declaration. -/
def coreTag (name : String) : Tag := ("tag:yaml.org,2002:" ++ name).toUTF8.toList

/-- The name behind the mark of a tag of the document's own. -/
def ownName? (tag : Tag) : Option String :=
  match tag with
  | b :: name => if b == '!'.toNat.toUInt8 then String.fromUTF8? ⟨name.toArray⟩ else none
  | [] => none

/-- A node of a document, and the nodes that its aliases stand for. -/
structure Value where
  anchors : List (Nat × Node)
  node : Node

namespace Value

/-- The node itself, or the one that it is an alias of; of several nodes with one number the one
    that begins last. -/
def target (v : Value) : Node :=
  match v.node with
  | .reference n => (((v.anchors.filter (·.1 == n)).getLast?).map Prod.snd).getD v.node
  | n => n

/-- Another node of the same document. -/
def sibling (v : Value) (n : Node) : Value := { v with node := n }

/-- The text of a scalar. -/
def text? (v : Value) : Option String :=
  match v.target with
  | .scalar _ text _ => some text
  | _ => none

/-- A plain word, or a literal scalar under the tag of a type. -/
def word? (type : String) (v : Value) : Option String :=
  match v.target with
  | .scalar m text style =>
    if style == .plain || (style == .literal && m.tag == some (coreTag type)) then some text
    else none
  | _ => none

/-- Nothing is written here. -/
def isBlank (v : Value) : Bool :=
  match v.target with
  | .scalar _ text style => text.isEmpty && style == .plain
  | _ => false

/-- Where a value is optional, a plain word for nothing and an empty one are nothing; under the tag
    for nothing no other word may stand. -/
def present? (v : Value) : Option (Option Value) :=
  match v.target with
  | .scalar m text .plain =>
    match m.tag with
    | some tag =>
      if tag != coreTag "null" then some (some v)
      else if Word.isNull text then some none
      else none
    | none => if text.isEmpty || Word.isNull text then some none else some (some v)
  | _ => some (some v)

/-- The items of a list. -/
def items? (v : Value) : Option (List Value) :=
  match v.target with
  | .list _ items => some (items.map v.sibling)
  | _ => if v.isBlank then some [] else none

/-- The fields of a record, whose keys are scalars. -/
def fields? (v : Value) : Option (List (String × Value)) :=
  match v.target with
  | .record _ fields => fields.mapM fun (k, n) => do return (← (v.sibling k).text?, v.sibling n)
  | _ => if v.isBlank then some [] else none

/-- The name of an alternative: a tag of the document's own on nothing, or a text. -/
def choice? (v : Value) : Option String :=
  match v.target with
  | .scalar m text style =>
    match m.tag.bind ownName? with
    | some name =>
      if style == .plain && (text.isEmpty || Word.isNull text) then some name else none
    | none => some text
  | _ => none

instance : Source Value where
  text? := text?
  flag? v := do Word.flag? (← v.word? "bool")
  natural? v := do Word.natural? (← v.word? "int")
  real? v := do Word.real? (← v.word? "float")
  present? := present?
  items? := items?
  fields? := fields?
  unnamed? _ := none
  choice? := choice?

end Value

/-! ## Following aliases -/

namespace Value

/-- Takes the step to a node from an allowance, if the node is an alias. -/
def step? (v : Value) (allowance : Nat) : Option Nat :=
  match v.node, allowance with
  | .reference _, 0 => none
  | .reference _, n + 1 => some n
  | _, n => some n

mutual

/-- Takes the steps to the parts of a value from an allowance, one for every alias. -/
def follow? (v : Value) : Outline → Nat → Option Nat
  | .leaf, n => v.step? n
  | .list item, n => do ((v.items?).getD []).foldlM (fun n i => follow? i item n) (← v.step? n)
  | .record fields, n => do
    match v.target with
    | .record _ entries =>
      entries.foldlM (fun n (k, e) => do
        followField? (v.sibling e) (← (v.sibling k).text?) fields (← (v.sibling k).step? n))
        (← v.step? n)
    | _ => v.step? n

/-- Takes the steps to the parts of a field from an allowance; a field of an unknown name has
    none. -/
def followField? (v : Value) (name : String) : List (String × Outline) → Nat → Option Nat
  | [], n => some n
  | (known, part) :: rest, n =>
    if known == name then follow? v part n else followField? v name rest n

end

end Value

/-! ## Reading -/

/-- How many steps to aliases are allowed for every unit of a document's length. -/
def repetition : Nat := 100

/-- A value from the text of a document. -/
def readText (outline : Outline) (read : Value → Option α) (text : String) : Except Fault α :=
  let value? := do
    let (node, anchors) ← document? text
    let v : Value := ⟨anchors, node⟩
    let _ ← v.follow? outline (repetition * node.length)
    read v
  match value? with
  | none => .error .document
  | some a => .ok a

/-- A value from the bytes of a file. -/
def readBytes (outline : Outline) (read : Value → Option α) : Option ByteArray → Except Fault α
  | none => .error (.file .missing)
  | some bytes =>
    match String.fromUTF8? bytes with
    | none => .error (.file .notText)
    | some text => readText outline read text

end LoadBench.Yaml
