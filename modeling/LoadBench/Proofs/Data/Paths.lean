import Mathlib.Tactic
import LoadBench.Data.Source

/-!
# Values at paths of keys

A value may lie deep in a tree, behind one key after the other. It can be put there whatever the tree
is: what is no record on the way becomes one.

Results:
* `Data.field?_put_self`, `Data.field?_put_ne`: only what lies behind the first key of a path changes,
  and there the value is put behind the other keys.
-/

namespace LoadBench.Data

variable {key other : String} {value : Data} {path : List String}

/-- A tree with a value put at a path of keys. -/
def put : Data → List String → Data → Data
  | _, [], value => value
  | d, key :: path, value =>
    .record (insert key (put ((d.field? key).getD .null) path value) (d.fields?.getD []))

theorem put_nil (d value : Data) : d.put [] value = value := rfl

/-! ## Fields of a tree -/

theorem find?_insert_self (fields : List (String × Data)) :
    (insert key value fields).find? (·.1 == key) = some (key, value) := by
  induction fields with
  | nil => simp [insert]
  | cons f rest ih =>
    simp only [insert]
    split_ifs with hlt heq
    · simp
    · simp
    · have hne : (f.1 == key) = false := by
        rw [Bool.eq_false_iff, ne_eq, beq_iff_eq]
        exact fun hf => heq (beq_iff_eq.mpr hf.symm)
      rw [List.find?_cons, hne, ih]

theorem find?_insert_ne (hne : key ≠ other) (fields : List (String × Data)) :
    (insert key value fields).find? (·.1 == other) = fields.find? (·.1 == other) := by
  have hkey : (key == other) = false := beq_eq_false_iff_ne.mpr hne
  induction fields with
  | nil => rw [insert, List.find?_cons, hkey]
  | cons f rest ih =>
    simp only [insert]
    split_ifs with hlt heq
    · rw [List.find?_cons, hkey]
    · obtain rfl : key = f.1 := beq_iff_eq.mp heq
      rw [List.find?_cons, List.find?_cons, hkey]
    · rw [List.find?_cons, List.find?_cons, ih]

theorem field?_eq (key : String) (d : Data) :
    d.field? key = ((d.fields?.getD []).find? (·.1 == key)).map Prod.snd := by
  cases d <;> rfl

/-- Behind the first key of a path the value is put behind the others. -/
theorem field?_put_self (d : Data) (key : String) (path : List String) (value : Data) :
    (d.put (key :: path) value).field? key = some (((d.field? key).getD .null).put path value) := by
  show ((insert key _ _).find? _).map Prod.snd = _
  rw [find?_insert_self]
  rfl

/-- What lies behind other keys stays as it is. -/
theorem field?_put_ne (hne : key ≠ other) (d : Data) (path : List String) (value : Data) :
    (d.put (key :: path) value).field? other = d.field? other := by
  show ((insert key _ _).find? _).map Prod.snd = _
  rw [find?_insert_ne hne, field?_eq]

end LoadBench.Data
