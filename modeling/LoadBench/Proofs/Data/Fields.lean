import Mathlib.Tactic
import LoadBench.Data.Source

/-!
# Fields of records

A record is read field by field. In a record with names, a field is what stands under its name, if
the name comes once; the fields may come in any order, and nobody asks for what stands under other
names.

Results:
* `only_iff`, `only_iff_mem`: the only value under a name.
* `defaulted_bind_eq_some_iff`, `required_bind_eq_some_iff`: one field read after the other.
* `record_eq_some_iff`: what is read of a record with names.
* `listOf_eq_some_iff`: what is read of a list.
-/

namespace LoadBench.Source

variable {δ α β : Type} {entries : List (String × δ)} {name : String} {read : δ → Option α} {v : δ}

/-! ## What stands under a name -/

/-- A value is the only one under a name. -/
def Only (entries : List (String × δ)) (name : String) (v : δ) : Prop :=
  entries.filter (·.1 == name) = [(name, v)]

theorem filter_eq_nil_iff :
    entries.filter (·.1 == name) = [] ↔ name ∉ entries.map Prod.fst := by
  rw [List.filter_eq_nil_iff, List.mem_map, not_exists]
  simp only [beq_iff_eq, not_and]

/-- What stands alone under a name stands under a name that comes once. -/
theorem only_iff :
    Only entries name v ↔ (name, v) ∈ entries ∧ (entries.map Prod.fst).count name ≤ 1 := by
  have hlength : (entries.filter (·.1 == name)).length = (entries.map Prod.fst).count name := by
    rw [← List.countP_eq_length_filter, List.count, List.countP_map]
    rfl
  unfold Only
  constructor
  · intro h
    refine ⟨(List.mem_filter.mp (h ▸ List.mem_singleton_self _)).1, ?_⟩
    rw [← hlength, h]
    exact le_refl 1
  · rintro ⟨hmem, honce⟩
    have hfound : (name, v) ∈ entries.filter (·.1 == name) := by
      rw [List.mem_filter]
      exact ⟨hmem, beq_self_eq_true name⟩
    have hone : (entries.filter (·.1 == name)).length = 1 := by
      have := List.length_pos_of_mem hfound
      omega
    obtain ⟨e, he⟩ := List.length_eq_one_iff.mp hone
    rw [he, List.mem_singleton] at hfound
    rw [he, hfound]

theorem only_iff_mem (hnames : (entries.map Prod.fst).Nodup) :
    Only entries name v ↔ (name, v) ∈ entries := by
  rw [only_iff, and_iff_left (List.nodup_iff_count_le_one.mp hnames name)]

/-- A field comes to what can be read of the only value under its name, or to a default where there
    is none. -/
def ComesTo (entries : List (String × δ)) (name : String) (missing : α) (read : δ → Option α)
    (a : α) : Prop :=
  (∃ v, Only entries name v ∧ read v = some a) ∨ (name ∉ entries.map Prod.fst ∧ a = missing)

/-! ## One field after the other -/

theorem next_eq_some_iff {given : Option δ × Fields δ} :
    next name (.named entries) = some given ↔
      (∃ v, Only entries name v ∧ given = (some v, .named entries)) ∨
      (name ∉ entries.map Prod.fst ∧ given = (none, .named entries)) := by
  unfold next Only
  rw [← filter_eq_nil_iff]
  -- the name may come never, once, or more often
  rcases hfound : entries.filter (·.1 == name) with - | ⟨e, - | ⟨e', rest⟩⟩
  · simp [hfound, @eq_comm _ given]
  · have hname : e.1 = name := by
      have hmem : e ∈ entries.filter (·.1 == name) := hfound ▸ List.mem_singleton_self e
      exact beq_iff_eq.mp (List.mem_filter.mp hmem).2
    subst hname
    obtain ⟨name, v⟩ := e
    simp [hfound, @eq_comm _ given]
  · simp [hfound]

variable {after : α → FieldReader δ β} {r : β × Fields δ}

/-- What is read of a field is read of what is found of it. -/
theorem next_bind_eq_some_iff {found : Option δ → FieldReader δ β} :
    (next name >>= found) (.named entries) = some r ↔
      (∃ v, Only entries name v ∧ found (some v) (.named entries) = some r) ∨
      (name ∉ entries.map Prod.fst ∧ found none (.named entries) = some r) := by
  show (next name (.named entries)).bind (fun given => found given.1 given.2) = some r ↔ _
  simp only [Option.bind_eq_some_iff, next_eq_some_iff, or_and_right, exists_or]
  constructor
  · rintro (⟨given, ⟨v, hv, rfl⟩, hr⟩ | ⟨given, ⟨hname, rfl⟩, hr⟩)
    · exact .inl ⟨v, hv, hr⟩
    · exact .inr ⟨hname, hr⟩
  · rintro (⟨v, hv, hr⟩ | ⟨hname, hr⟩)
    · exact .inl ⟨_, ⟨v, hv, rfl⟩, hr⟩
    · exact .inr ⟨_, ⟨hname, rfl⟩, hr⟩

theorem liftM_bind_eq_some_iff {o : Option α} {fields : Fields δ} :
    ((liftM o : FieldReader δ α) >>= after) fields = some r ↔
      ∃ a, o = some a ∧ after a fields = some r := by
  cases o with
  | none =>
    constructor
    · intro h
      cases h
    · rintro ⟨a, h, -⟩
      cases h
  | some a =>
    show after a fields = some r ↔ _
    simp

/-- A field with a default comes to one value, and the next one is read. -/
theorem defaulted_bind_eq_some_iff (missing : α) :
    (defaulted name missing read >>= after) (.named entries) = some r ↔
      ∃ a, ComesTo entries name missing read a ∧ after a (.named entries) = some r := by
  unfold defaulted ComesTo
  rw [bind_assoc, next_bind_eq_some_iff]
  simp only [liftM_bind_eq_some_iff, pure_bind]
  constructor
  · rintro (⟨v, hv, a, ha, hr⟩ | ⟨hname, hr⟩)
    · exact ⟨a, .inl ⟨v, hv, ha⟩, hr⟩
    · exact ⟨missing, .inr ⟨hname, rfl⟩, hr⟩
  · rintro ⟨a, ⟨v, hv, ha⟩ | ⟨hname, rfl⟩, hr⟩
    · exact .inl ⟨v, hv, a, ha, hr⟩
    · exact .inr ⟨hname, hr⟩

/-- A field that must be there is alone under its name, and the next one is read. -/
theorem required_bind_eq_some_iff :
    (required name read >>= after) (.named entries) = some r ↔
      ∃ v a, Only entries name v ∧ read v = some a ∧ after a (.named entries) = some r := by
  unfold required
  rw [bind_assoc, next_bind_eq_some_iff]
  have hfailure : ((failure : FieldReader δ α) >>= after) (.named entries) = none := rfl
  simp only [liftM_bind_eq_some_iff, hfailure, reduceCtorEq, and_false, or_false,
    exists_and_left]

/-! ## Records and lists -/

/-- No field is left that must be read: what stands under other names need not be. -/
def Fields.IsSpent : Fields δ → Prop
  | .named _ => True
  | .listed items => items = []

theorem finish_eq_some_iff {fields : FieldReader δ α} {given : Fields δ} {a : α} :
    finish fields given = some a ↔ ∃ left, left.IsSpent ∧ fields given = some (a, left) := by
  unfold finish Fields.IsSpent
  rcases fields given with - | ⟨a', rest | ⟨- | ⟨v, rest⟩⟩⟩ <;> simp

theorem mapM_eq_some_iff {vs : List δ} {as : List α} :
    vs.mapM read = some as ↔ List.Forall₂ (fun v a => read v = some a) vs as := by
  induction vs generalizing as with
  | nil => simp [eq_comm]
  | cons v vs ih =>
    simp only [List.mapM_cons, List.forall₂_cons_left_iff, Option.bind_eq_bind,
      Option.bind_eq_some_iff, Option.pure_def, Option.some.injEq, ih, @eq_comm _ as,
      exists_and_left]

/-- If all members of a type are listed and no two share a name, each is found by its name. -/
theorem find?_eq_some_iff {members : List α} {nameOf : α → String} {word : String} {a : α}
    (hall : ∀ a, a ∈ members) (hnames : Function.Injective nameOf) :
    members.find? (nameOf · == word) = some a ↔ word = nameOf a := by
  constructor
  · intro h
    have hname := List.find?_some h
    exact (beq_iff_eq.mp hname).symm
  · rintro rfl
    cases hfound : members.find? (nameOf · == nameOf a) with
    | none => exact absurd (beq_self_eq_true _) (List.find?_eq_none.mp hfound a (hall a))
    | some b =>
      have hname := List.find?_some hfound
      rw [hnames (beq_iff_eq.mp hname)]

variable [Source δ] {d : δ}

theorem record_eq_some_iff {fields : FieldReader δ α} {a : α} (h : fields? d = some entries) :
    record fields d = some a ↔
      ∃ left, left.IsSpent ∧ fields (.named entries) = some (a, left) := by
  unfold record
  rw [h]
  exact finish_eq_some_iff

theorem count_eq_some_iff {n : Nat} :
    count d = some n ↔ natural? d = some n ∧ n < Counter.size := by
  unfold count
  rw [Option.filter_eq_some_iff, decide_eq_true_eq]

theorem choice_eq_some_iff {named? : String → Option α} {nameOf : α → String} {a : α}
    (h : ∀ {word}, named? word = some a ↔ word = nameOf a) :
    choice named? d = some a ↔ choice? d = some (nameOf a) := by
  show (choice? d).bind named? = some a ↔ _
  simp only [Option.bind_eq_some_iff, h, exists_eq_right]

theorem listOf_eq_some_iff {as : List α} :
    listOf read d = some as ↔
      ∃ items, items? d = some items ∧ List.Forall₂ (fun v a => read v = some a) items as := by
  show (items? d).bind (fun items => items.mapM read) = some as ↔ _
  simp only [Option.bind_eq_some_iff, mapM_eq_some_iff]

end LoadBench.Source
