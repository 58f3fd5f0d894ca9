/-!
# Trees of data

The values that documents, payloads and reports are made of. Whole numbers and binary64 numbers are
different leaves; the fields of a record keep the order in which they are listed.

* `Data.insert`, `Data.sortedRecord`: records whose keys ascend, the last of equal keys winning.
* `Data.field?`: the value under a key.
-/

namespace LoadBench

/-- A tree of data. -/
inductive Data
  | null
  | flag (b : Bool)
  | integer (n : Int)
  | real (x : Float)
  | text (s : String)
  | list (items : List Data)
  | record (fields : List (String × Data))
deriving Inhabited

namespace Data

/-- Puts a field into fields with ascending keys, over an older field of the same key. -/
def insert (key : String) (value : Data) : List (String × Data) → List (String × Data)
  | [] => [(key, value)]
  | (k, v) :: rest =>
    if key < k then (key, value) :: (k, v) :: rest
    else if key == k then (key, value) :: rest
    else (k, v) :: insert key value rest

/-- The record of some fields in the order given: keys ascend, and the last of equal keys wins. -/
def sortedRecord (fields : List (String × Data)) : Data :=
  .record (fields.foldl (fun acc f => insert f.1 f.2 acc) [])

/-- The value under a key of a record. -/
def field? (key : String) : Data → Option Data
  | .record fields => (fields.find? (·.1 == key)).map Prod.snd
  | _ => none

/-- The items of a list. -/
def items? : Data → Option (List Data)
  | .list items => some items
  | _ => none

/-- The value is a record. -/
def isRecord : Data → Bool
  | .record _ => true
  | _ => false

/-- An optional value; nothing is `null`. -/
def optional (write : α → Data) : Option α → Data
  | none => .null
  | some a => write a

/-- A natural number as a leaf. -/
def natural (n : Nat) : Data := .integer n

/-- The field of an optional value, left out when there is none. -/
def optionalField (key : String) (write : α → Data) : Option α → List (String × Data)
  | none => []
  | some a => [(key, write a)]

end Data

end LoadBench
