import LoadBench.Proofs.Data.Fields
import LoadBench.Proofs.Yaml.Documents

/-!
# Records in texts

What is read of a text as a record: its document has fields under names, and the aliases in it are
not followed too often. The simplest such texts are made of plain words; where nothing is written,
the record has no fields.

Results:
* `IsRecord.readText_eq`: what is read of a text is read of the record that it is.
* `isRecord_of_words?`: a text of plain words is a record.
* `isRecord_of_empty`, `document?_of_no_tokens`: a text on which nothing is written is a record
  without fields.
-/

namespace LoadBench.Yaml

variable {outline : Outline} {text : String} {entries : List (String × Value)}

/-- A text is a record: the fields of its document stand under different names, and its aliases are
    not followed too often. -/
def IsRecord (outline : Outline) (text : String) (entries : List (String × Value)) : Prop :=
  ∃ v : Value, document? text = some (v.node, v.anchors) ∧
    (v.follow? outline (repetition * v.node.length)).isSome = true ∧
    v.fields? = some entries ∧ (entries.map Prod.fst).Nodup

theorem IsRecord.nodup_names (h : IsRecord outline text entries) :
    (entries.map Prod.fst).Nodup := by
  obtain ⟨_, _, _, _, hnames⟩ := h
  exact hnames

/-- What is read of a text is read of the record that it is. -/
theorem IsRecord.readText_eq {α : Type} (h : IsRecord outline text entries)
    (read : Value → Option α) :
    ∃ v : Value, v.fields? = some entries ∧
      readText outline read text = (read v).elim (.error .document) .ok := by
  obtain ⟨v, hdocument, hfollow, hfields, -⟩ := h
  refine ⟨v, hfields, ?_⟩
  obtain ⟨left, hleft⟩ := Option.isSome_iff_exists.mp hfollow
  unfold readText
  simp only [hdocument, Option.bind_eq_bind, Option.bind_some, hleft]
  cases read v <;> rfl

/-! ## Ways without aliases -/

namespace Value

variable {v : Value}

/-- No alias is followed in a scalar. -/
theorem follow?_of_scalar {m : Marks} {s : String} {style : Style}
    (h : v.node = .scalar m s style) (o : Outline) (n : Nat) : v.follow? o n = some n := by
  have hstep : v.step? n = some n := by
    unfold step?
    rw [h]
  have htarget : v.target = .scalar m s style := by
    unfold target
    rw [h]
  cases o with
  | leaf =>
    unfold follow?
    exact hstep
  | list item =>
    have hitems : v.items?.getD [] = [] := by
      unfold items?
      rw [htarget]
      cases v.isBlank <;> rfl
    unfold follow?
    rw [hitems, hstep]
    rfl
  | record fields =>
    unfold follow?
    rw [htarget]
    exact hstep

theorem followField?_of_scalar {m : Marks} {s : String} {style : Style}
    (h : v.node = .scalar m s style) (name : String) (fields : List (String × Outline)) (n : Nat) :
    v.followField? name fields n = some n := by
  induction fields with
  | nil => rfl
  | cons field rest ih =>
    obtain ⟨known, part⟩ := field
    unfold followField?
    split_ifs
    · exact follow?_of_scalar h part n
    · exact ih

/-- A plain word. -/
def plain (word : String) : Value := ⟨[], .scalar .none word .plain⟩

end Value

/-! ## Texts of plain words -/

namespace Node

/-- The fields of a record in which all keys and values are plain words. -/
def words? : Node → Option (List (String × String))
  | record m fields =>
    if m = .none then fields.mapM fun (k, v) => do return (← k.word?, ← v.word?) else none
  | _ => none

/-- The record of some fields in which all keys and values are plain words. -/
def ofWords (fs : List (String × String)) : Node :=
  record .none (fs.map fun f => (scalar .none f.1 .plain, scalar .none f.2 .plain))

theorem eq_ofWords {n : Node} {fs : List (String × String)} (h : n.words? = some fs) :
    n = ofWords fs := by
  cases n with
  | record m fields =>
    obtain ⟨hm, hwords⟩ := Option.ite_none_right_eq_some.mp h
    rw [Source.mapM_eq_some_iff] at hwords
    clear h
    unfold ofWords
    rw [hm]
    congr 1
    induction hwords with
    | nil => rfl
    | @cons e f fields fs hef _ ih =>
      obtain ⟨k, v⟩ := e
      obtain ⟨key, hkey, hef⟩ := Option.bind_eq_some_iff.mp hef
      obtain ⟨word, hword, hef⟩ := Option.bind_eq_some_iff.mp hef
      cases hef
      rw [word?_eq_some_iff.mp hkey, word?_eq_some_iff.mp hword, ih]
      rfl
  | scalar m s style => cases h
  | list m items => cases h
  | reference anchor => cases h

end Node

/-- The fields of a text in which all keys and values are plain words. -/
def words? (text : String) : Option (List (String × String)) :=
  (document? text).bind fun (n, anchors) => if anchors.isEmpty then n.words? else none

variable {fs : List (String × String)}

theorem document?_of_words? (h : words? text = some fs) :
    document? text = some (.ofWords fs, []) := by
  obtain ⟨⟨n, anchors⟩, hdocument, h⟩ := Option.bind_eq_some_iff.mp h
  obtain ⟨hanchors, h⟩ := Option.ite_none_right_eq_some.mp h
  rw [hdocument, Node.eq_ofWords h, List.isEmpty_iff.mp hanchors]

theorem Value.fields?_ofWords :
    (⟨[], .ofWords fs⟩ : Value).fields? = some (fs.map fun f => (f.1, .plain f.2)) := by
  show (fs.map _).mapM _ = _
  rw [Source.mapM_eq_some_iff, List.forall₂_map_left_iff, List.forall₂_map_right_iff,
    List.forall₂_same]
  intro f _
  rfl

theorem Value.follow?_ofWords (n : Nat) :
    (⟨[], .ofWords fs⟩ : Value).follow? outline n = some n := by
  cases outline with
  | leaf => rfl
  | list item => rfl
  | record fields =>
    unfold follow?
    refine foldlM_of_fixed ?_ n
    intro e he n
    obtain ⟨f, -, rfl⟩ := List.mem_map.mp he
    exact followField?_of_scalar rfl f.1 fields n

/-- A text of plain words is the record that it looks like. -/
theorem isRecord_of_words? (h : words? text = some fs) (hnames : (fs.map Prod.fst).Nodup) :
    IsRecord outline text (fs.map fun f => (f.1, .plain f.2)) := by
  refine ⟨⟨[], .ofWords fs⟩, document?_of_words? h, ?_, Value.fields?_ofWords, ?_⟩
  · rw [Value.follow?_ofWords]
    rfl
  · rwa [List.map_map]

/-! ## Texts on which nothing is written -/

theorem isRecord_of_empty (h : document? text = some (.empty .none, [])) :
    IsRecord outline text [] := by
  refine ⟨⟨[], .empty .none⟩, h, ?_, rfl, List.nodup_nil⟩
  rw [Value.follow?_of_scalar rfl]
  rfl

/-- A text without tokens, such as one of comments only, is an empty document. -/
theorem document?_of_no_tokens (h : tokens? text = some []) :
    document? text = some (.empty .none, []) := by
  unfold document?
  rw [h]
  rfl

end LoadBench.Yaml
