/-!
# Outlines of types

The outline of a type says which parts of a document are looked at when a value of the type is read
from it: all else is passed over. It is what can be said of a reader without running it.

* `Outline`: the outline of a type.
* `Outline.ofFields`: the outline of a record.
-/

namespace LoadBench

/-- What a value is made of: a leaf, a list of one kind of items, or a record of known fields. -/
inductive Outline
  | leaf
  | list (item : Outline)
  | record (fields : List (String × Outline))

namespace Outline

/-- The outline of a record of some fields and of others that are leaves. -/
def ofFields (fields : List (String × Outline)) (leaves : List String) : Outline :=
  record (fields ++ leaves.map (·, leaf))

end Outline

end LoadBench
