import LoadBench.Proofs.Data.Restores

/-!
# Trees in normal form

A text need not keep the order of the fields of a record: what is read has ascending keys, and of
equal keys the last one. The normal form of a tree is what is left of it.

Results:
* `Data.perm_sorted`, `Data.sorted_eq_self`: fields under distinct keys are all kept, and stay where
  they are if their keys ascend.
* `Data.faithful`, `SetAside.faithful`: the normal form of a tree stands for it, also when it is set
  aside.
* `Source.restores_tagged`: alternatives with data are restored.
-/

namespace LoadBench

namespace Data

/-! ## Sorted fields -/

/-- Fields with ascending keys, the last of equal keys winning. -/
def sorted (fields : List (String × Data)) : List (String × Data) :=
  fields.foldl (fun acc f => insert f.1 f.2 acc) []

/-- A function applied to the values of fields. -/
def mapValues (g : Data → Data) (fields : List (String × Data)) : List (String × Data) :=
  fields.map fun f => (f.1, g f.2)

variable {key : String} {value : Data} {fields : List (String × Data)}

/-- Where a field goes depends on the keys alone. -/
theorem insert_mapValues (g : Data → Data) :
    insert key (g value) (mapValues g fields) = mapValues g (insert key value fields) := by
  unfold mapValues
  induction fields with
  | nil => rfl
  | cons f rest ih =>
    simp only [List.map_cons, insert]
    split_ifs with hlt heq
    · rfl
    · rfl
    · rw [ih, List.map_cons]

theorem foldl_insert_mapValues (g : Data → Data) (acc : List (String × Data)) :
    (mapValues g fields).foldl (fun acc f => insert f.1 f.2 acc) (mapValues g acc) =
      mapValues g (fields.foldl (fun acc f => insert f.1 f.2 acc) acc) := by
  induction fields generalizing acc with
  | nil => rfl
  | cons f rest ih =>
    show (mapValues g rest).foldl _ (insert f.1 (g f.2) (mapValues g acc)) = _
    rw [insert_mapValues, ih]
    rfl

theorem sorted_mapValues (g : Data → Data) :
    sorted (mapValues g fields) = mapValues g (sorted fields) :=
  foldl_insert_mapValues g []

/-- A field under a new key joins the others. -/
theorem perm_insert (hkey : key ∉ keys fields) :
    (insert key value fields).Perm ((key, value) :: fields) := by
  induction fields with
  | nil => exact List.Perm.refl _
  | cons f rest ih =>
    rw [keys_cons, List.mem_cons, not_or] at hkey
    simp only [insert]
    split_ifs with hlt heq
    · exact List.Perm.refl _
    · exact absurd (eq_of_beq heq) hkey.1
    · exact ((ih hkey.2).cons f).trans (List.Perm.swap _ _ _)

theorem perm_foldl_insert (acc : List (String × Data)) (h : (keys (acc ++ fields)).Nodup) :
    (fields.foldl (fun acc f => insert f.1 f.2 acc) acc).Perm (acc ++ fields) := by
  induction fields generalizing acc with
  | nil => rw [List.append_nil]; exact List.Perm.refl _
  | cons f rest ih =>
    have hnew : f.1 ∉ keys acc := by
      rw [keys_append, List.nodup_append] at h
      intro hmem
      exact h.2.2 f.1 hmem f.1 (by simp) rfl
    have hperm : (insert f.1 f.2 acc ++ rest).Perm (acc ++ f :: rest) := by
      refine ((perm_insert hnew).append_right rest).trans ?_
      exact List.perm_middle.symm
    refine (ih _ ?_).trans hperm
    unfold keys at *
    exact (hperm.map Prod.fst).nodup_iff.mpr h

/-- Fields under distinct keys are all kept. -/
theorem perm_sorted (h : (keys fields).Nodup) : (sorted fields).Perm fields :=
  perm_foldl_insert [] h

/-- A field behind all others stays there. -/
theorem insert_eq_append (h : ∀ k ∈ keys fields, k < key) :
    insert key value fields = fields ++ [(key, value)] := by
  induction fields with
  | nil => rfl
  | cons f rest ih =>
    have hlt : f.1 < key := h f.1 (by simp)
    have hrest := ih fun k hk => h k (by simp [hk])
    simp only [insert]
    rw [if_neg (String.lt_asymm hlt), if_neg, hrest]
    · rfl
    · rw [beq_iff_eq]
      rintro rfl
      exact String.lt_irrefl _ hlt

theorem foldl_insert_eq_append (acc : List (String × Data))
    (h : (keys (acc ++ fields)).Pairwise (· < ·)) :
    fields.foldl (fun acc f => insert f.1 f.2 acc) acc = acc ++ fields := by
  induction fields generalizing acc with
  | nil => rw [List.append_nil]; rfl
  | cons f rest ih =>
    have hlast : ∀ k ∈ keys acc, k < f.1 := by
      rw [keys_append, List.pairwise_append] at h
      intro k hk
      exact h.2.2 k hk f.1 (by simp)
    show rest.foldl _ (insert f.1 f.2 acc) = _
    rw [insert_eq_append hlast, ih _ (by simpa using h)]
    simp

/-- Fields with ascending keys stay where they are. -/
theorem sorted_eq_self (h : (keys fields).Pairwise (· < ·)) : sorted fields = fields :=
  foldl_insert_eq_append [] h

/-! ## Trees -/

/-- The tree is neither a list nor a record. -/
def isSingle : Data → Bool
  | .list _ | .record _ => false
  | _ => true

/-- What holds of single leaves, of lists if it holds of their items, and of records if it holds of
    their values, holds of all trees. -/
@[elab_as_elim]
theorem inductionOn {P : Data → Prop} (d : Data) (single : ∀ d, isSingle d = true → P d)
    (list : ∀ items, (∀ d ∈ items, P d) → P (.list items))
    (record : ∀ fields, (∀ f ∈ fields, P f.2) → P (.record fields)) : P d :=
  match d with
  | .list items => list items fun d _ => inductionOn d single list record
  | .record fields => record fields fun f hf =>
    have _hfields := List.sizeOf_lt_of_mem hf
    have _hfield : sizeOf f = 1 + sizeOf f.1 + sizeOf f.2 := rfl
    inductionOn f.2 single list record
  | .null => single _ rfl
  | .flag _ => single _ rfl
  | .integer _ => single _ rfl
  | .real _ => single _ rfl
  | .text _ => single _ rfl

/-! ## The normal form -/

mutual

/-- The tree with ascending keys in all of its records. -/
def normal : Data → Data
  | .list items => .list (normalItems items)
  | .record fields => sortedRecord (normalFields fields)
  | d => d

/-- The normal forms of some items. -/
def normalItems : List Data → List Data
  | [] => []
  | d :: rest => normal d :: normalItems rest

/-- The normal forms of the values of some fields. -/
def normalFields : List (String × Data) → List (String × Data)
  | [] => []
  | (k, d) :: rest => (k, normal d) :: normalFields rest

end

theorem normal_of_isSingle {d : Data} (h : d.isSingle = true) : d.normal = d := by
  cases d with
  | list items => cases h
  | record fields => cases h
  | _ => rfl

theorem normalItems_eq (items : List Data) : normalItems items = items.map normal := by
  induction items with
  | nil => rfl
  | cons d rest ih => rw [normalItems, ih, List.map_cons]

theorem normalFields_eq (fields : List (String × Data)) :
    normalFields fields = mapValues normal fields := by
  induction fields with
  | nil => rfl
  | cons f rest ih => rw [normalFields, ih]; rfl

theorem normal_list (items : List Data) : normal (.list items) = .list (items.map normal) := by
  rw [normal, normalItems_eq]

theorem normal_record (fields : List (String × Data)) :
    normal (.record fields) = .record (mapValues normal (sorted fields)) := by
  rw [normal, normalFields_eq, ← sorted_mapValues]
  rfl

theorem normal_ne_null {d : Data} (h : d ≠ .null) : d.normal ≠ .null := by
  cases d with
  | null => exact absurd rfl h
  | list items => simp [normal_list]
  | record fields => simp [normal_record]
  | _ => simp [normal]

end Data

/-! ## Trees that stand for others -/

/-- Forms of data in which every value is a tree, and stands for the trees of that normal form. -/
structure Source.FaithfulTree {δ : Type} [TreeSource δ] (R : δ → Data → Prop) : Prop
    extends Source.Faithful R where
  tag : ∀ names v s, R v (.text s) → TreeSource.tag? names v = some s
  tree : ∀ v d, R v d → TreeSource.tree? v = some d.normal

namespace Data

/-- The tree is the normal form of another. -/
def IsNormalOf (v d : Data) : Prop := v = d.normal

theorem forall₂_normal (items : List Data) :
    List.Forall₂ IsNormalOf (items.map normal) items := by
  rw [List.forall₂_map_left_iff]
  exact List.forall₂_same.mpr fun _ _ => rfl

theorem forall₂_mapValues_normal (fields : List (String × Data)) :
    List.Forall₂ (fun e f => e.1 = f.1 ∧ IsNormalOf e.2 f.2) (mapValues normal fields) fields := by
  unfold mapValues
  rw [List.forall₂_map_left_iff]
  exact List.forall₂_same.mpr fun _ _ => ⟨rfl, rfl⟩

theorem natural?_natural (n : Nat) : natural? (natural n) = some n := by
  unfold natural? natural
  simp

theorem present_of_ne_null {d : Data} (h : d ≠ .null) : d.present = some d := by
  cases d with
  | null => exact absurd rfl h
  | _ => rfl

/-- The normal form of a tree stands for it. -/
theorem faithful : Source.FaithfulTree IsNormalOf where
  text := by
    rintro v s rfl
    rfl
  choice := by
    rintro v s rfl
    rfl
  flag := by
    rintro v b rfl
    rfl
  natural := by
    rintro v n rfl
    exact natural?_natural n
  real := by
    rintro v x rfl
    rfl
  absent := by
    rintro v rfl
    rfl
  present := by
    rintro v d rfl hne
    show some d.normal.present = _
    rw [present_of_ne_null (normal_ne_null hne)]
  items := by
    rintro v ds rfl
    refine ⟨ds.map normal, ?_, forall₂_normal ds⟩
    rw [normal_list]
    rfl
  fields := by
    rintro v fs rfl hkeys
    refine ⟨mapValues normal (sorted fs), sorted fs, ?_, forall₂_mapValues_normal _,
      perm_sorted hkeys, sorted_eq_self⟩
    rw [normal_record]
    rfl
  tag := by
    rintro names v s rfl
    rfl
  tree := by
    rintro v d rfl
    rfl

end Data

namespace SetAside

/-- The tree that was set aside is the normal form of another. -/
def IsNormalOf (v : SetAside) (d : Data) : Prop := v.data = d.normal

theorem isNormalOf_iff {v : SetAside} {d : Data} : v.IsNormalOf d ↔ v = ⟨d.normal⟩ := by
  obtain ⟨data⟩ := v
  unfold IsNormalOf
  rw [SetAside.mk.injEq]

/-- A tree stands for another when it is set aside as it does otherwise. -/
theorem faithful : Source.FaithfulTree IsNormalOf where
  text v s h := Data.faithful.text v.data s h
  choice v s h := by
    obtain rfl := isNormalOf_iff.mp h
    rfl
  flag v b h := Data.faithful.flag v.data b h
  natural v n h := Data.faithful.natural v.data n h
  real v x h := Data.faithful.real v.data x h
  absent v h := by
    obtain rfl := isNormalOf_iff.mp h
    rfl
  present v d h hne := by
    obtain rfl := isNormalOf_iff.mp h
    show some (d.normal.present.map SetAside.mk) = _
    rw [Data.present_of_ne_null (Data.normal_ne_null hne)]
    rfl
  items v ds h := by
    obtain rfl := isNormalOf_iff.mp h
    refine ⟨(ds.map Data.normal).map SetAside.mk, ?_, ?_⟩
    · rw [Data.normal_list]
      rfl
    · rw [List.forall₂_map_left_iff]
      exact Data.forall₂_normal ds
  fields v fs h hkeys := by
    obtain rfl := isNormalOf_iff.mp h
    refine ⟨(Data.mapValues Data.normal (Data.sorted fs)).map fun f => (f.1, ⟨f.2⟩),
      Data.sorted fs, ?_, ?_, Data.perm_sorted hkeys, Data.sorted_eq_self⟩
    · rw [Data.normal_record]
      rfl
    · rw [List.forall₂_map_left_iff]
      exact Data.forall₂_mapValues_normal _
  tag names v s h := by
    obtain rfl := isNormalOf_iff.mp h
    rfl
  tree v d h := by
    obtain rfl := isNormalOf_iff.mp h
    rfl

end SetAside

/-! ## Alternatives with data -/

namespace Source

variable {δ α : Type} {R : δ → Data → Prop} {fs : List (String × Data)} {a : α}

/-- Fields that stand for others still do so when all fields under one name are left out. -/
theorem forall₂_filter {entries : List (String × δ)} (name : String)
    (h : List.Forall₂ (fun e f => e.1 = f.1 ∧ R e.2 f.2) entries fs) :
    List.Forall₂ (fun e f => e.1 = f.1 ∧ R e.2 f.2) (entries.filter (·.1 != name))
      (fs.filter (·.1 != name)) := by
  induction h with
  | nil => exact .nil
  | @cons e f entries fs hef _ ih =>
    by_cases hname : f.1 = name
    · rw [List.filter_cons_of_neg (by simp [hef.1, hname]),
        List.filter_cons_of_neg (by simp [hname])]
      exact ih
    · rw [List.filter_cons_of_pos (by simp [hef.1, hname]),
        List.filter_cons_of_pos (by simp [hname])]
      exact .cons hef ih

variable [TreeSource δ]

/-- A tree that is read as it is comes out in normal form. -/
theorem restores_tree (hR : FaithfulTree R) (d : Data) : Restores R tree d d.normal :=
  fun v hv => hR.tree v d hv

/-- A field that is set aside in normal form. -/
def setAsideField (f : String × Data) : String × SetAside := (f.1, ⟨f.2.normal⟩)

/-- The fields of an alternative are set aside as they are. -/
theorem mapM_setAside (hR : FaithfulTree R) {entries : List (String × δ)}
    (h : List.Forall₂ (fun e f => e.1 = f.1 ∧ R e.2 f.2) entries fs) :
    (entries.mapM fun (k, v) => do return (k, ← setAside v)) =
      some (fs.map setAsideField) := by
  refine mapM_of_forall₂ setAsideField h ?_
  rintro f - ⟨k, v⟩ ⟨hk, hv⟩
  obtain rfl : k = f.1 := hk
  show ((TreeSource.tree? v).map SetAside.mk).bind (fun t => some (f.1, t)) = _
  rw [hR.tree v f.2 hv]
  rfl

/-- A record with the name of an alternative in front is restored as the alternative is from the
    other fields. -/
theorem restores_tagged (hR : FaithfulTree R) {tagName s : String}
    {alternatives : List (String × FieldReader SetAside α)} {fields : FieldReader SetAside α}
    (hkeys : (Data.keys ((tagName, .text s) :: fs)).Nodup)
    (halternative : alternatives.lookup s = some fields)
    (h : Gives SetAside.IsNormalOf fields fs a) :
    Restores R (tagged tagName alternatives) (.record ((tagName, .text s) :: fs)) a := by
  intro v hv
  obtain ⟨entries, fs', hentries, hall, hperm, -⟩ := hR.fields v _ hv hkeys
  have hkeys' : (Data.keys fs').Nodup := (hperm.map Prod.fst).nodup_iff.mpr hkeys
  have hholds := (holds_of_forall₂ hall hkeys').perm hperm
  obtain ⟨t, hfound, ht⟩ := hholds.found tagName (.text s) List.mem_cons_self
  have halternative' : alternative? alternatives t = some fields := by
    unfold alternative?
    rw [hR.tag _ t s ht]
    exact halternative
  -- What is left without the name stands for the fields of the alternative.
  rw [Data.keys_cons, List.nodup_cons] at hkeys
  have hrest : (fs'.filter (·.1 != tagName)).Perm fs := by
    refine (hperm.filter _).trans ?_
    rw [List.filter_cons_of_neg (by simp), List.filter_eq_self.mpr]
    intro f hf
    rw [bne_iff_ne]
    intro hname
    have hmem : f.1 ∈ Data.keys fs := List.mem_map_of_mem hf
    exact hkeys.1 (hname ▸ hmem)
  have hset := mapM_setAside hR (forall₂_filter tagName hall)
  have hstands : Holds SetAside.IsNormalOf
      ((fs'.filter (·.1 != tagName)).map setAsideField) fs := by
    refine (holds_of_forall₂ ?_ ?_).perm hrest
    · rw [List.forall₂_map_left_iff]
      exact List.forall₂_same.mpr fun _ _ => ⟨rfl, rfl⟩
    · exact (hrest.map Prod.fst).nodup_iff.mpr hkeys.2
  unfold tagged
  simp only [hentries, hfound]
  rw [hset, halternative']
  show finish fields _ = some a
  unfold finish
  rw [h _ hstands]

end Source

end LoadBench
