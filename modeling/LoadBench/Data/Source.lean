import LoadBench.Binary64
import LoadBench.Counter
import LoadBench.Data

/-!
# Reading values out of documents

A value of this library is read from any form of data that can say what it holds: a tree of data,
or a node of a document in which plain words have no type of their own. `Source` is what such a form
has to answer, and a reader is a function that uses nothing else.

* `Source.text`, `Source.count`, `Source.real`, `Source.listOf`, `Source.optional`, …: readers of
  single values.
* `FieldReader`, `required`, `defaulted`, `optionalField`, `record`: readers of records, given as
  fields under their names or, in some forms of data, as a list in the order of the fields.
* `choice`, `tagged`: readers of alternatives; `TreeSource` has what the second one needs.
-/

namespace LoadBench

/-- What a form of data can be asked. -/
class Source (δ : Type) where
  /-- The text it holds. -/
  text? : δ → Option String
  /-- The truth value it holds. -/
  flag? : δ → Option Bool
  /-- The natural number it holds. -/
  natural? : δ → Option Nat
  /-- The binary64 number it holds; a whole number is one. -/
  real? : δ → Option Float
  /-- What it holds where a value is optional: nothing, or something; it may also be refused. -/
  present? : δ → Option (Option δ)
  /-- The items of the list it is. -/
  items? : δ → Option (List δ)
  /-- The fields of the record it is; the same key may come twice. -/
  fields? : δ → Option (List (String × δ))
  /-- The values of the record it is that is written without the names of its fields. -/
  unnamed? : δ → Option (List δ)
  /-- The name of an alternative that carries no data. -/
  choice? : δ → Option String

/-- What a form of data can be asked in which every value is a tree of data, and the name of an
    alternative stands beside the data that it carries. -/
class TreeSource (δ : Type) extends Source δ where
  /-- The name of an alternative among some. -/
  tag? : List String → δ → Option String
  /-- The tree of data it is. -/
  tree? : δ → Option Data

namespace Source

variable {δ : Type} [Source δ] {α β : Type}

/-! ## Single values -/

/-- A text. -/
def text (d : δ) : Option String := text? d

/-- A truth value. -/
def flag (d : δ) : Option Bool := flag? d

/-- A counter of 64 bits. -/
def count (d : δ) : Option Nat := (natural? d).filter (· < Counter.size)

/-- A counter of 32 bits. -/
def smallCount (d : δ) : Option Nat := (natural? d).filter (· < Nat.pow 2 32)

/-- A binary64 number. -/
def real (d : δ) : Option Float := real? d

/-- A list, every item of which can be read. -/
def listOf (read : δ → Option α) (d : δ) : Option (List α) := do (← items? d).mapM read

/-- An optional value. -/
def optional (read : δ → Option α) (d : δ) : Option (Option α) := do
  match ← present? d with
  | none => return none
  | some d => return some (← read d)

/-- A value of a type that has names for its members. -/
def choice (named? : String → Option α) (d : δ) : Option α := do named? (← choice? d)

/-- A record with free keys, given as pairs in the order of the source. -/
def pairsOf (key? : String → Option β) (read : δ → Option α) (d : δ) : Option (List (β × α)) := do
  (← fields? d).mapM fun (k, v) => do return (← key? k, ← read v)

/-! ## Records -/

/-- The fields of a record that are still to be read: under their names, or in order. -/
inductive Fields (δ : Type)
  | named (entries : List (String × δ))
  | listed (items : List δ)

/-- A reader of fields, in the order in which the record declares them. -/
abbrev FieldReader (δ : Type) := StateT (Fields δ) Option

/-- The next field: looked up under its name, which may come only once, or the next in order. -/
def next (name : String) : FieldReader δ (Option δ) := fun fields =>
  match fields with
  | .named entries =>
    match entries.filter (·.1 == name) with
    | [] => some (none, fields)
    | [(_, d)] => some (some d, fields)
    | _ => none
  | .listed [] => some (none, .listed [])
  | .listed (d :: rest) => some (some d, .listed rest)

/-- A field that must be there. -/
def required (name : String) (read : δ → Option α) : FieldReader δ α := do
  match ← next name with
  | some d => read d
  | none => failure

/-- A field with a value to use where it is missing. -/
def defaulted (name : String) (missing : α) (read : δ → Option α) : FieldReader δ α := do
  match ← next name with
  | some d => read d
  | none => pure missing

/-- An optional field, which may be missing. -/
def optionalField (name : String) (read : δ → Option α) : FieldReader δ (Option α) :=
  defaulted name none (optional read)

/-- An optional field that may be missing under its name but not from a list. -/
def optionalNamed (name : String) (read : δ → Option α) : FieldReader δ (Option α) := do
  match ← get with
  | .named _ => optionalField name read
  | .listed _ => required name (optional read)

/-- Reads all fields; a list may not hold more than them, unknown names are passed over. -/
def finish (fields : FieldReader δ α) (given : Fields δ) : Option α :=
  match fields given with
  | some (a, .named _) => some a
  | some (a, .listed []) => some a
  | _ => none

/-- A record. -/
def record (fields : FieldReader δ α) (d : δ) : Option α :=
  match fields? d with
  | some entries => finish fields (.named entries)
  | none =>
    match unnamed? d with
    | some items => finish fields (.listed items)
    | none => none

/-- A tree of data. -/
def tree {δ : Type} [TreeSource δ] (d : δ) : Option Data := TreeSource.tree? d

end Source

/-! ## Trees of data as a source -/

namespace Data

/-- The text of a leaf. -/
def text? : Data → Option String
  | .text s => some s
  | _ => none

/-- The truth value of a leaf. -/
def flag? : Data → Option Bool
  | .flag b => some b
  | _ => none

/-- The natural number of a leaf. -/
def natural? : Data → Option Nat
  | .integer n => if 0 ≤ n then some n.toNat else none
  | _ => none

/-- The number nearest to a whole number. -/
def nearestReal (n : Int) : Float :=
  if n < 0 then -(Binary64.ofCount n.natAbs) else Binary64.ofCount n.natAbs

/-- The number of a leaf. -/
def real? : Data → Option Float
  | .real x => some x
  | .integer n => some (nearestReal n)
  | _ => none

/-- A leaf where a value is optional; `null` is nothing. -/
def present : Data → Option Data
  | .null => none
  | d => some d

/-- The fields of a record. -/
def fields? : Data → Option (List (String × Data))
  | .record fields => some fields
  | _ => none

/-- The name of an alternative: a text, or a record with `null` under that name alone. -/
def choice? : Data → Option String
  | .text s => some s
  | .record [(name, .null)] => some name
  | _ => none

instance : TreeSource Data where
  text? := text?
  flag? := flag?
  natural? := natural?
  real? := real?
  present? d := some d.present
  items? := items?
  fields? := fields?
  unnamed? := items?
  choice? := choice?
  tag? := fun _ => text?
  tree? := some

end Data

/-- A tree of data that was set aside before its alternative was known. In it the name of an
    alternative may also be given as its position, and an alternative without data as a record with
    an empty record under its name. -/
structure SetAside where
  data : Data

namespace SetAside

/-- The name of an alternative among some. -/
def tag? (names : List String) : SetAside → Option String
  | ⟨.text s⟩ => some s
  | ⟨.integer n⟩ => if 0 ≤ n then names[n.toNat]? else none
  | _ => none

/-- The name of an alternative that carries no data. -/
def choice? : SetAside → Option String
  | ⟨.record [(name, .record [])]⟩ => some name
  | d => d.data.choice?

instance : TreeSource SetAside where
  text? d := d.data.text?
  flag? d := d.data.flag?
  natural? d := d.data.natural?
  real? d := d.data.real?
  present? d := some (d.data.present.map SetAside.mk)
  items? d := d.data.items?.map (·.map SetAside.mk)
  fields? d := d.data.fields?.map (·.map fun f => (f.1, ⟨f.2⟩))
  unnamed? d := d.data.items?.map (·.map SetAside.mk)
  choice? := choice?
  tag? := tag?
  tree? d := some d.data

end SetAside

/-! ## Alternatives with data -/

namespace Source

variable {δ α : Type} [TreeSource δ]

/-- A tree of data that is set aside. -/
def setAside (d : δ) : Option SetAside := (TreeSource.tree? d).map SetAside.mk

/-- The fields of the alternative that a name stands for. -/
def alternative? (alternatives : List (String × FieldReader SetAside α)) (t : δ) :
    Option (FieldReader SetAside α) := do
  alternatives.lookup (← TreeSource.tag? (alternatives.map Prod.fst) t)

/-- A record with one field that names an alternative; the others are set aside and then read as the
    alternative wants. In a list the name comes first. -/
def tagged (tagName : String) (alternatives : List (String × FieldReader SetAside α)) (d : δ) :
    Option α :=
  match fields? d with
  | some entries =>
    match entries.filter (·.1 == tagName) with
    | [(_, t)] => do
      let rest ← (entries.filter (·.1 != tagName)).mapM fun (k, v) => do return (k, ← setAside v)
      finish (← alternative? alternatives t) (.named rest)
    | _ => none
  | none =>
    match items? d with
    | some (t :: rest) => do
      finish (← alternative? alternatives t) (.listed (← rest.mapM setAside))
    | _ => none

end Source

end LoadBench
