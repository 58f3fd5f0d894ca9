import Mathlib.Tactic
import LoadBench.Data.Source

/-!
# Readers that undo writers

A value is written as a tree of data and read from a form of data that stands for the tree. A form
is faithful if it answers every question as the tree would. A reader restores a value from a tree if
it finds the value in everything that stands for the tree.

The readers of this library are put together from a few, and what is shown here of each of them is
put together in the same way: a record is restored if its fields are.

Results:
* `restores_text`, `restores_count`, `restores_choice`, …: readers of single values.
* `restores_listOf`, `restores_optional`, `restores_pairsOf`: readers of several values.
* `Gives.bind`, `gives_required`, `gives_optionalField`, …: readers of fields.
* `restores_record`: readers of records.
-/

namespace LoadBench

/-! ## Written fields -/

namespace Data

/-- The keys of the fields of a record. -/
def keys (fields : List (String × Data)) : List String := fields.map Prod.fst

@[simp] theorem keys_nil : keys [] = [] := rfl

@[simp] theorem keys_cons (field : String × Data) (fields : List (String × Data)) :
    keys (field :: fields) = field.1 :: keys fields := rfl

@[simp] theorem keys_append (first second : List (String × Data)) :
    keys (first ++ second) = keys first ++ keys second := List.map_append

theorem nodup_of_ascending {names : List String} (h : names.Pairwise (· < ·)) : names.Nodup := by
  refine h.imp ?_
  rintro a _ hlt rfl
  exact String.lt_irrefl a hlt

variable {α : Type} {key name : String} {write : α → Data} {o : Option α}

theorem keys_optionalField_sublist (key : String) (write : α → Data) (o : Option α) :
    (keys (optionalField key write o)).Sublist [key] := by
  cases o with
  | none => exact List.nil_sublist _
  | some a => exact List.Sublist.refl _

@[simp] theorem mem_keys_optionalField :
    name ∈ keys (optionalField key write o) ↔ name = key ∧ o.isSome = true := by
  cases o <;> simp [optionalField]

@[simp] theorem mem_optionalField {d : Data} :
    (name, d) ∈ optionalField key write o ↔ name = key ∧ ∃ a, o = some a ∧ d = write a := by
  cases o <;> simp [optionalField]

@[simp] theorem nodup_keys_optionalField : (keys (optionalField key write o)).Nodup :=
  (keys_optionalField_sublist key write o).nodup (List.nodup_singleton key)

end Data

namespace Source

variable {δ α β : Type}

/-- The reader finds a value in everything that stands for a tree. -/
def Restores (R : δ → Data → Prop) (read : δ → Option α) (d : Data) (a : α) : Prop :=
  ∀ v, R v d → read v = some a

variable {R : δ → Data → Prop} {read : δ → Option α} {d : Data} {a : α} {name : String}
  {fs : List (String × Data)}

/-! ## Reading fields -/

/-- The fields of a record that stand for written ones: each is found under its name. -/
structure Holds (R : δ → Data → Prop) (entries : List (String × δ)) (fs : List (String × Data)) :
    Prop where
  found : ∀ name d, (name, d) ∈ fs → ∃ v, entries.filter (·.1 == name) = [(name, v)] ∧ R v d
  missing : ∀ name, name ∉ Data.keys fs → entries.filter (·.1 == name) = []

theorem holds_of_forall₂ {entries : List (String × δ)}
    (h : List.Forall₂ (fun e f => e.1 = f.1 ∧ R e.2 f.2) entries fs)
    (hkeys : (Data.keys fs).Nodup) : Holds R entries fs := by
  induction h with
  | nil => exact ⟨by simp, by simp⟩
  | @cons e f entries fs hef _ ih =>
    rw [Data.keys_cons, List.nodup_cons] at hkeys
    obtain ⟨found, missing⟩ := ih hkeys.2
    constructor
    · intro name d hmem
      rcases List.mem_cons.mp hmem with rfl | hmem
      · obtain ⟨rfl, hv⟩ := hef
        refine ⟨e.2, ?_, hv⟩
        rw [List.filter_cons_of_pos (by simp), missing e.1 hkeys.1]
      · have hmem' : name ∈ Data.keys fs := List.mem_map_of_mem hmem
        have hne : f.1 ≠ name := by
          rintro rfl
          exact hkeys.1 hmem'
        rw [List.filter_cons_of_neg (by simp [hef.1, hne])]
        exact found name d hmem
    · intro name hname
      rw [Data.keys_cons, List.mem_cons, not_or] at hname
      rw [List.filter_cons_of_neg (by simp [hef.1, Ne.symm hname.1])]
      exact missing name hname.2

theorem Holds.perm {entries : List (String × δ)} {fs' : List (String × Data)}
    (h : Holds R entries fs') (hperm : fs'.Perm fs) : Holds R entries fs where
  found name d hmem := h.found name d (hperm.mem_iff.mpr hmem)
  missing name hname := by
    apply h.missing
    unfold Data.keys at *
    rwa [(hperm.map Prod.fst).mem_iff]

/-- The reader of fields finds a value in all fields that stand for written ones. -/
def Gives (R : δ → Data → Prop) (fields : FieldReader δ α) (fs : List (String × Data)) (a : α) :
    Prop :=
  ∀ entries, Holds R entries fs → fields (.named entries) = some (a, .named entries)

theorem gives_pure (a : α) : Gives R (pure a) fs a := fun _ _ => rfl

theorem Gives.bind {first : FieldReader δ α} {next : α → FieldReader δ β} {b : β}
    (h : Gives R first fs a) (hnext : Gives R (next a) fs b) : Gives R (first >>= next) fs b := by
  intro entries hentries
  show (first (.named entries)).bind (fun r => next r.1 r.2) = _
  rw [h entries hentries]
  exact hnext entries hentries

theorem Gives.map {first : FieldReader δ α} {f : α → β} (h : Gives R first fs a) :
    Gives R (f <$> first) fs (f a) := by
  intro entries hentries
  show (first (.named entries)).bind (fun r => some (f r.1, r.2)) = _
  rw [h entries hentries]
  rfl

theorem next_of_mem (h : (name, d) ∈ fs) {entries : List (String × δ)}
    (hentries : Holds R entries fs) :
    ∃ v, next name (.named entries) = some (some v, .named entries) ∧ R v d := by
  obtain ⟨v, hfound, hv⟩ := hentries.found name d h
  refine ⟨v, ?_, hv⟩
  unfold next
  simp only [hfound]

theorem next_of_not_mem (h : name ∉ Data.keys fs) {entries : List (String × δ)}
    (hentries : Holds R entries fs) :
    next name (.named entries) = some (none, .named entries) := by
  unfold next
  simp only [hentries.missing name h]

theorem gives_required (h : (name, d) ∈ fs) (ha : Restores R read d a) :
    Gives R (required name read) fs a := by
  intro entries hentries
  obtain ⟨v, hnext, hv⟩ := next_of_mem h hentries
  show (next name (.named entries)).bind _ = _
  rw [hnext]
  show (read v).bind (fun a => some (a, Fields.named entries)) = _
  rw [ha v hv]
  rfl

theorem gives_defaulted (h : (name, d) ∈ fs) (missing : α) (ha : Restores R read d a) :
    Gives R (defaulted name missing read) fs a := by
  intro entries hentries
  obtain ⟨v, hnext, hv⟩ := next_of_mem h hentries
  show (next name (.named entries)).bind _ = _
  rw [hnext]
  show (read v).bind (fun a => some (a, Fields.named entries)) = _
  rw [ha v hv]
  rfl

theorem gives_defaulted_of_missing (h : name ∉ Data.keys fs) (missing : α)
    (read : δ → Option α) : Gives R (defaulted name missing read) fs missing := by
  intro entries hentries
  show (next name (.named entries)).bind _ = _
  rw [next_of_not_mem h hentries]
  rfl

/-! ## Forms of data that stand for trees -/

variable [Source δ]

/-- A form of data in which values stand for trees, and answer every question as the trees would.
    The fields of a record whose keys are distinct may come in another order, unless the keys
    ascend. -/
structure Faithful (R : δ → Data → Prop) : Prop where
  text : ∀ v s, R v (.text s) → text? v = some s
  choice : ∀ v s, R v (.text s) → choice? v = some s
  flag : ∀ v b, R v (.flag b) → flag? v = some b
  natural : ∀ v n, R v (.natural n) → natural? v = some n
  real : ∀ v x, R v (.real x) → real? v = some x
  absent : ∀ v, R v .null → present? v = some none
  present : ∀ v d, R v d → d ≠ .null → present? v = some (some v)
  items : ∀ v ds, R v (.list ds) → ∃ vs, items? v = some vs ∧ List.Forall₂ R vs ds
  fields : ∀ v fs, R v (.record fs) → (Data.keys fs).Nodup →
    ∃ entries fs', fields? v = some entries ∧
      List.Forall₂ (fun e f => e.1 = f.1 ∧ R e.2 f.2) entries fs' ∧ fs'.Perm fs ∧
      ((Data.keys fs).Pairwise (· < ·) → fs' = fs)

/-! ## Single values -/

theorem restores_text (hR : Faithful R) (s : String) : Restores R text (.text s) s :=
  fun v hv => hR.text v s hv

theorem restores_flag (hR : Faithful R) (b : Bool) : Restores R flag (.flag b) b :=
  fun v hv => hR.flag v b hv

theorem restores_real (hR : Faithful R) (x : Float) : Restores R real (.real x) x :=
  fun v hv => hR.real v x hv

theorem restores_count (hR : Faithful R) {n : Nat} (hn : n < Counter.size) :
    Restores R count (.natural n) n := by
  intro v hv
  unfold count
  rw [hR.natural v n hv, Option.filter_some, if_pos (by simpa using hn)]

theorem restores_smallCount (hR : Faithful R) {n : Nat} (hn : n < Nat.pow 2 32) :
    Restores R smallCount (.natural n) n := by
  intro v hv
  unfold smallCount
  rw [hR.natural v n hv, Option.filter_some, if_pos (by simpa using hn)]

theorem restores_choice (hR : Faithful R) {named? : String → Option α} {s : String}
    (h : named? s = some a) : Restores R (choice named?) (.text s) a := by
  intro v hv
  unfold choice
  rw [hR.choice v s hv]
  exact h

/-- What is written as a text and read back from it. -/
theorem restores_ofText (hR : Faithful R) {parse? : String → Option α} {s : String}
    (h : parse? s = some a) : Restores R (fun v => do parse? (← text v)) (.text s) a := by
  intro v hv
  show (text v).bind parse? = some a
  rw [restores_text hR s v hv]
  exact h

/-! ## Several values -/

/-- If what is made of each of some values is known, so is what is made of them all. -/
theorem mapM_of_forall₂ {γ ι : Type} {f : γ → Option α} {P : γ → ι → Prop} (made : ι → α)
    {xs : List γ} {is : List ι} (h : List.Forall₂ P xs is)
    (hf : ∀ i ∈ is, ∀ x, P x i → f x = some (made i)) : xs.mapM f = some (is.map made) := by
  induction h with
  | nil => rfl
  | @cons x i xs is hx _ ih =>
    have hfirst := hf i List.mem_cons_self x hx
    have hrest := ih fun i hi => hf i (List.mem_cons_of_mem _ hi)
    rw [List.mapM_cons, hfirst, hrest]
    rfl

theorem restores_listOf (hR : Faithful R) {write : α → Data} (as : List α)
    (h : ∀ a ∈ as, Restores R read (write a) a) :
    Restores R (listOf read) (.list (as.map write)) as := by
  intro v hv
  obtain ⟨vs, hvs, hall⟩ := hR.items v _ hv
  rw [List.forall₂_map_right_iff] at hall
  have hread := mapM_of_forall₂ id hall h
  rw [List.map_id] at hread
  unfold listOf
  rw [hvs]
  exact hread

theorem restores_optional (hR : Faithful R) (write : α → Data) (o : Option α)
    (h : ∀ a, o = some a → write a ≠ .null ∧ Restores R read (write a) a) :
    Restores R (optional read) (.optional write o) o := by
  intro v hv
  unfold optional
  cases o with
  | none =>
    rw [hR.absent v hv]
    rfl
  | some a =>
    obtain ⟨hne, ha⟩ := h a rfl
    rw [hR.present v _ hv hne]
    show (read v).bind (fun a => some (some a)) = some (some a)
    rw [ha v hv]
    rfl

section Pairs

variable {key? : String → Option β} {keyName : β → String} {pairs : List (β × α)}

/-- The fields that pairs are written as. -/
def pairFields (keyName : β → String) (write : α → Data) (pairs : List (β × α)) :
    List (String × Data) :=
  pairs.map fun p => (keyName p.1, write p.2)

theorem keys_pairFields (write : α → Data) :
    Data.keys (pairFields keyName write pairs) = pairs.map fun p => keyName p.1 := by
  unfold Data.keys pairFields
  rw [List.map_map]
  rfl

theorem pairsOf_of_forall₂ {write : α → Data} {v : δ} {entries : List (String × δ)}
    (hentries : fields? v = some entries)
    (hall : List.Forall₂ (fun e f => e.1 = f.1 ∧ R e.2 f.2) entries
      (pairFields keyName write pairs))
    (h : ∀ p ∈ pairs, key? (keyName p.1) = some p.1 ∧ Restores R read (write p.2) p.2) :
    pairsOf key? read v = some pairs := by
  unfold pairFields at hall
  rw [List.forall₂_map_right_iff] at hall
  have hread : entries.mapM (fun e => do return (← key? e.1, ← read e.2)) =
      some (pairs.map id) := by
    refine mapM_of_forall₂ id hall ?_
    rintro ⟨b, a⟩ hp ⟨k, w⟩ ⟨hk, hw⟩
    obtain ⟨hkey, ha⟩ := h _ hp
    obtain rfl : k = keyName b := hk
    simp only [hkey, ha w hw]
    rfl
  rw [List.map_id] at hread
  unfold pairsOf
  rw [hentries]
  exact hread

/-- Pairs are restored in their order if their keys ascend. -/
theorem restores_pairsOf (hR : Faithful R) {write : α → Data} (keyName : β → String)
    (hkeys : (pairs.map fun p => keyName p.1).Pairwise (· < ·))
    (h : ∀ p ∈ pairs, key? (keyName p.1) = some p.1 ∧ Restores R read (write p.2) p.2) :
    Restores R (pairsOf key? read) (.record (pairFields keyName write pairs)) pairs := by
  intro v hv
  rw [← keys_pairFields write] at hkeys
  obtain ⟨entries, fs', hentries, hall, -, hsame⟩ :=
    hR.fields v _ hv (Data.nodup_of_ascending hkeys)
  rw [hsame hkeys] at hall
  exact pairsOf_of_forall₂ hentries hall h

/-- Pairs under distinct keys are all restored, in some order. -/
theorem exists_pairsOf (hR : Faithful R) {write : α → Data} (keyName : β → String)
    (hkeys : (pairs.map fun p => keyName p.1).Nodup)
    (h : ∀ p ∈ pairs, key? (keyName p.1) = some p.1 ∧ Restores R read (write p.2) p.2)
    {v : δ} (hv : R v (.record (pairFields keyName write pairs))) :
    ∃ pairs', pairsOf key? read v = some pairs' ∧ pairs'.Perm pairs := by
  rw [← keys_pairFields write] at hkeys
  obtain ⟨entries, fs', hentries, hall, hperm, -⟩ := hR.fields v _ hv hkeys
  have hmade : List.Forall₂ (fun f p => f = (keyName p.1, write p.2))
      (pairFields keyName write pairs) pairs := by
    unfold pairFields
    rw [List.forall₂_map_left_iff]
    exact List.forall₂_same.mpr fun _ _ => rfl
  obtain ⟨pairs', hmade', hperm'⟩ := List.perm_comp_forall₂ hperm hmade
  have hsame : List.Forall₂ (· = ·) fs' (pairFields keyName write pairs') := by
    unfold pairFields
    rw [List.forall₂_map_right_iff]
    exact hmade'
  rw [List.forall₂_eq_eq_eq] at hsame
  rw [hsame] at hall
  refine ⟨pairs', ?_, hperm'⟩
  exact pairsOf_of_forall₂ hentries hall fun p hp => h p (hperm'.mem_iff.mp hp)

end Pairs

/-! ## Optional fields and records -/

/-- An optional field is found where it was written, and missed where it was left out. -/
theorem gives_optionalField (hR : Faithful R) (write : α → Data) (o : Option α)
    (hfound : Data.optionalField name write o ⊆ fs) (hmissed : name ∈ Data.keys fs → o.isSome)
    (h : ∀ a, o = some a → write a ≠ .null ∧ Restores R read (write a) a) :
    Gives R (optionalField name read) fs o := by
  cases o with
  | none =>
    have hnone : name ∉ Data.keys fs := fun hname => Bool.false_ne_true (hmissed hname)
    exact gives_defaulted_of_missing hnone none _
  | some a =>
    have hmem : (name, write a) ∈ fs := hfound (List.mem_singleton_self _)
    exact gives_defaulted hmem none (restores_optional hR write _ h)

/-- An optional field that is always written, as nothing if need be. -/
theorem gives_optionalNamed (hR : Faithful R) (write : α → Data) (o : Option α)
    (h : (name, Data.optional write o) ∈ fs)
    (hsome : ∀ a, o = some a → write a ≠ .null ∧ Restores R read (write a) a) :
    Gives R (optionalNamed name read) fs o := by
  intro entries hentries
  exact gives_defaulted h none (restores_optional hR write o hsome) entries hentries

theorem restores_record (hR : Faithful R) {fields : FieldReader δ α}
    (hkeys : (Data.keys fs).Nodup) (h : Gives R fields fs a) :
    Restores R (record fields) (.record fs) a := by
  intro v hv
  obtain ⟨entries, fs', hentries, hall, hperm, -⟩ := hR.fields v fs hv hkeys
  unfold record
  simp only [hentries]
  unfold finish
  have hkeys' : (Data.keys fs').Nodup := (hperm.map Prod.fst).nodup_iff.mpr hkeys
  rw [h entries ((holds_of_forall₂ hall hkeys').perm hperm)]

end Source

end LoadBench
