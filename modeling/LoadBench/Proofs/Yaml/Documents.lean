import Mathlib.Tactic
import LoadBench.Proofs.Data.Restores
import LoadBench.Yaml.Document

/-!
# Documents that spell a tree

A document spells a tree of data if its nodes spell the leaves of the tree and are put together as
the tree is, without anchors, tags and aliases. That is what a document looks like that was written
from the tree. Of such a document nothing more is needed than that: whatever a reader restores from
the tree, it reads from the document.

Results:
* `Value.faithful`: a value that spells a tree answers every question as the tree would.
* `Value.follow?_of_told`: no alias is followed on the way to its parts.
* `readBytes_of_spells`: what a reader restores from a tree is read from a document that spells it.
-/

namespace LoadBench.Yaml

/-! ## What a node spells -/

namespace Node

/-- The text of a plain word on its own. -/
def word? : Node → Option String
  | scalar m text style => if m = .none ∧ style = .plain then some text else none
  | _ => none

/-- The word stands for nothing where a value is optional. -/
def isNothing (word : String) : Bool := word.isEmpty || Word.isNull word

/-- The node spells a text: plainly only if the text does not stand for nothing. -/
def spellsText (s : String) : Node → Bool
  | scalar m text style => m = .none && text = s && (style ≠ .plain || !isNothing s)
  | _ => false

mutual

/-- The node spells a tree. -/
def spells : Data → Node → Bool
  | .null, n => n.word?.any isNothing
  | .flag b, n => n.word?.any fun word => Word.flag? word = some b
  | .integer i, n => n.word?.any fun word => (Word.natural? word).map Int.ofNat = some i
  | .real x, n => n.word?.any fun word => Word.real? word = some x
  | .text s, n => n.spellsText s
  | .list ds, list m items => m = .none && spellsItems ds items
  | .record fs, record m fields => m = .none && spellsFields fs fields
  | _, _ => false

/-- The nodes spell some trees, one each. -/
def spellsItems : List Data → List Node → Bool
  | [], [] => true
  | d :: ds, n :: ns => spells d n && spellsItems ds ns
  | _, _ => false

/-- The nodes spell the keys and the values of some fields. -/
def spellsFields : List (String × Data) → List (Node × Node) → Bool
  | [], [] => true
  | (name, d) :: fs, (k, n) :: rest => k.spellsText name && spells d n && spellsFields fs rest
  | _, _ => false

end

theorem word?_eq_some_iff {n : Node} {word : String} :
    n.word? = some word ↔ n = .scalar .none word .plain := by
  cases n with
  | scalar m text style =>
    show (if m = .none ∧ style = .plain then some text else none) = some word ↔ _
    split_ifs with h
    · obtain ⟨rfl, rfl⟩ := h
      simp
    · simp only [scalar.injEq, false_iff]
      rintro ⟨rfl, -, rfl⟩
      exact h ⟨rfl, rfl⟩
  | _ => simp [word?]

theorem spellsText_iff {n : Node} {s : String} : n.spellsText s = true ↔
    ∃ style, n = .scalar .none s style ∧ (style = .plain → isNothing s = false) := by
  cases n with
  | scalar m text style =>
    unfold spellsText
    constructor
    · intro h
      simp only [Bool.and_eq_true, decide_eq_true_eq, Bool.or_eq_true, Bool.not_eq_true'] at h
      obtain ⟨⟨rfl, rfl⟩, hstyle⟩ := h
      exact ⟨style, rfl, fun hplain => hstyle.resolve_left (not_not_intro hplain)⟩
    · rintro ⟨_, h, hstyle⟩
      cases h
      by_cases hplain : style = .plain
      · simp [hplain, hstyle hplain]
      · simp [hplain]
  | _ => simp [spellsText]

/-- The items of a list are spelled one by one. -/
theorem spellsItems_iff {ds : List Data} {ns : List Node} :
    spellsItems ds ns = true ↔ List.Forall₂ (fun n d => spells d n = true) ns ds := by
  induction ds generalizing ns with
  | nil => cases ns <;> simp [spellsItems]
  | cons d ds ih => cases ns <;> simp [spellsItems, ih]

/-- The fields of a record are spelled one by one. -/
theorem spellsFields_iff {fs : List (String × Data)} {fields : List (Node × Node)} :
    spellsFields fs fields = true ↔
      List.Forall₂ (fun e f => e.1.spellsText f.1 = true ∧ spells f.2 e.2 = true) fields fs := by
  induction fs generalizing fields with
  | nil => cases fields <;> simp [spellsFields]
  | cons f fs ih =>
    obtain ⟨name, d⟩ := f
    cases fields with
    | nil => simp [spellsFields]
    | cons e fields =>
      obtain ⟨k, n⟩ := e
      simp [spellsFields, ih]

theorem spells_list {ds : List Data} {n : Node} (h : n.spells (.list ds) = true) :
    ∃ items, n = .list .none items ∧ List.Forall₂ (fun n d => n.spells d = true) items ds := by
  cases n with
  | list m items =>
    simp only [spells, Bool.and_eq_true, decide_eq_true_eq] at h
    exact ⟨items, by rw [h.1], spellsItems_iff.mp h.2⟩
  | _ => simp [spells] at h

theorem spells_record {fs : List (String × Data)} {n : Node} (h : n.spells (.record fs) = true) :
    ∃ fields, n = .record .none fields ∧
      List.Forall₂ (fun e f => e.1.spellsText f.1 = true ∧ e.2.spells f.2 = true) fields fs := by
  cases n with
  | record m fields =>
    simp only [spells, Bool.and_eq_true, decide_eq_true_eq] at h
    exact ⟨fields, by rw [h.1], spellsFields_iff.mp h.2⟩
  | _ => simp [spells] at h

theorem exists_of_forall₂ {α β : Type} {P : α → β → Prop} {xs : List α} {ys : List β}
    (h : List.Forall₂ P xs ys) : ∀ x ∈ xs, ∃ y, P x y := by
  induction h with
  | nil => simp
  | @cons x y xs ys hxy _ ih =>
    intro x' hx'
    rcases List.mem_cons.mp hx' with rfl | hx'
    · exact ⟨y, hxy⟩
    · exact ih x' hx'

/-- A node that spells a tree is a scalar, or its parts spell trees and texts. -/
theorem spells_cases {d : Data} {n : Node} (h : n.spells d = true) :
    (∃ text style, n = .scalar .none text style) ∨
    (∃ items, n = .list .none items ∧ ∀ i ∈ items, ∃ d, i.spells d = true) ∨
    (∃ fields, n = .record .none fields ∧
      ∀ e ∈ fields, (∃ s, e.1.spellsText s = true) ∧ ∃ d, e.2.spells d = true) := by
  cases d with
  | list ds =>
    obtain ⟨items, hn, hall⟩ := spells_list h
    exact .inr (.inl ⟨items, hn, exists_of_forall₂ hall⟩)
  | record fs =>
    obtain ⟨fields, hn, hall⟩ := spells_record h
    refine .inr (.inr ⟨fields, hn, fun e he => ?_⟩)
    obtain ⟨f, hkey, hvalue⟩ := exists_of_forall₂ hall e he
    exact ⟨⟨f.1, hkey⟩, f.2, hvalue⟩
  | text s =>
    obtain ⟨style, hn, -⟩ := spellsText_iff.mp h
    exact .inl ⟨s, style, hn⟩
  | _ =>
    obtain ⟨word, hword, -⟩ := (Option.any_eq_true _ _).mp h
    exact .inl ⟨word, .plain, word?_eq_some_iff.mp hword⟩

/-! ## Words for nothing -/

/-- The words for nothing, the empty one among them. -/
def nothings : List String := ["", "null", "Null", "NULL", "~"]

theorem isNothing_iff {word : String} : isNothing word = true ↔ word ∈ nothings := by
  unfold isNothing Word.isNull nothings
  simp [or_assoc]

/-- A word that can be read is not a word for nothing if none of these can be. -/
theorem isNothing_of_read {α : Type} (read? : String → Option α) {word : String} {a : α}
    (hnone : ∀ w ∈ nothings, read? w = none) (h : read? word = some a) :
    isNothing word = false := by
  by_contra hnothing
  have hword := hnone word (isNothing_iff.mp (eq_true_of_ne_false hnothing))
  rw [h] at hword
  cases hword

end Node

/-! ## What a value spells -/

namespace Value

/-- The value spells a tree, and no alias stands for anything. -/
def Spells (v : Value) (d : Data) : Prop := v.anchors = [] ∧ v.node.spells d = true

variable {v : Value} {d : Data}

/-- A plain word without marks holds what it says. -/
theorem word?_of_plain {word : String} (type : String) (h : v.node.word? = some word) :
    v.word? type = some word := by
  unfold word? target
  rw [Node.word?_eq_some_iff.mp h]
  rfl

theorem present?_of_plain {word : String} (h : v.node.word? = some word) :
    v.present? = some (if Node.isNothing word then none else some v) := by
  unfold present? target
  rw [Node.word?_eq_some_iff.mp h]
  show (if word.isEmpty || Word.isNull word then some none else some (some v)) = _
  unfold Node.isNothing
  split_ifs <;> rfl

theorem target_of_text {s : String} (h : v.node.spellsText s = true) :
    ∃ style, v.target = .scalar .none s style ∧ (style = .plain → Node.isNothing s = false) := by
  obtain ⟨style, hnode, hstyle⟩ := Node.spellsText_iff.mp h
  refine ⟨style, ?_, hstyle⟩
  unfold target
  rw [hnode]

/-- A tree whose leaf is spelled by a plain word. -/
theorem Spells.exists_word {P : String → Bool} (h : v.node.word?.any P = true) :
    ∃ word, v.node.word? = some word ∧ P word = true := by
  rwa [Option.any_eq_true] at h

theorem present?_of_text {s : String} (h : v.node.spellsText s = true) :
    v.present? = some (some v) := by
  obtain ⟨style, htarget, hstyle⟩ := target_of_text h
  unfold present?
  rw [htarget]
  cases style with
  | plain =>
    show (if s.isEmpty || Word.isNull s then some none else some (some v)) = _
    have hsome := hstyle rfl
    unfold Node.isNothing at hsome
    rw [hsome]
    rfl
  | _ => rfl

/-- A plain word that can be read is present, unless a word for nothing could be read as well. -/
theorem present?_of_read {α : Type} [DecidableEq α] (read? : String → Option α) {a : α}
    (hnone : ∀ w ∈ Node.nothings, read? w = none)
    (h : (v.node.word?.any fun w => decide (read? w = some a)) = true) :
    v.present? = some (some v) := by
  obtain ⟨word, hword, ha⟩ := Spells.exists_word h
  have hsome := Node.isNothing_of_read read? hnone (of_decide_eq_true ha)
  rw [present?_of_plain hword, hsome]
  rfl

/-- Everything but nothing is present. -/
theorem present?_of_spells (h : v.Spells d) (hne : d ≠ .null) : v.present? = some (some v) := by
  obtain ⟨-, hnode⟩ := h
  cases d with
  | null => exact absurd rfl hne
  | text s => exact present?_of_text hnode
  | flag b => exact present?_of_read Word.flag? (by decide) hnode
  | integer i =>
    exact present?_of_read (fun w => (Word.natural? w).map Int.ofNat) (by decide) hnode
  | real x => exact present?_of_read Word.real? (by decide +kernel) hnode
  | list ds =>
    obtain ⟨items, hlist, -⟩ := Node.spells_list hnode
    unfold present? target
    rw [hlist]
  | record fs =>
    obtain ⟨fields, hrecord, -⟩ := Node.spells_record hnode
    unfold present? target
    rw [hrecord]

/-- The keys of a spelled record are texts. -/
theorem mapM_fields {fs : List (String × Data)} {fields : List (Node × Node)}
    (hv : v.anchors = [])
    (h : List.Forall₂ (fun e f => e.1.spellsText f.1 = true ∧ e.2.spells f.2 = true) fields fs) :
    ∃ entries, (fields.mapM fun (k, n) => do
        return (← (v.sibling k).text?, v.sibling n)) = some entries ∧
      List.Forall₂ (fun e f => e.1 = f.1 ∧ Spells e.2 f.2) entries fs := by
  induction h with
  | nil => exact ⟨[], rfl, .nil⟩
  | @cons e f fields fs hef _ ih =>
    obtain ⟨k, n⟩ := e
    obtain ⟨entries, hentries, hall⟩ := ih
    obtain ⟨style, htarget, -⟩ := target_of_text (v := v.sibling k) hef.1
    have htext : (v.sibling k).text? = some f.1 := by
      unfold text?
      rw [htarget]
    refine ⟨(f.1, v.sibling n) :: entries, ?_, .cons ⟨rfl, hv, hef.2⟩ hall⟩
    rw [List.mapM_cons, hentries]
    show ((v.sibling k).text?.bind fun s => some (s, v.sibling n)).bind _ = _
    rw [htext]
    rfl

/-- A value that spells a tree answers every question as the tree would. -/
theorem faithful : Source.Faithful Spells where
  text v s h := by
    obtain ⟨style, htarget, -⟩ := target_of_text h.2
    show v.text? = some s
    unfold text?
    rw [htarget]
  choice v s h := by
    obtain ⟨style, htarget, -⟩ := target_of_text h.2
    show v.choice? = some s
    unfold choice?
    rw [htarget]
    rfl
  flag v b h := by
    obtain ⟨word, hword, hb⟩ := Spells.exists_word h.2
    show (v.word? "bool").bind Word.flag? = some b
    rw [word?_of_plain _ hword]
    exact of_decide_eq_true hb
  natural v n h := by
    obtain ⟨word, hword, hn⟩ := Spells.exists_word h.2
    show (v.word? "int").bind Word.natural? = some n
    rw [word?_of_plain _ hword]
    have hn := of_decide_eq_true hn
    simpa using hn
  real v x h := by
    obtain ⟨word, hword, hx⟩ := Spells.exists_word h.2
    show (v.word? "float").bind Word.real? = some x
    rw [word?_of_plain _ hword]
    exact of_decide_eq_true hx
  absent v h := by
    obtain ⟨word, hword, hnothing⟩ := Spells.exists_word h.2
    show v.present? = some none
    rw [present?_of_plain hword, if_pos hnothing]
  present v d h hne := present?_of_spells h hne
  items v ds h := by
    obtain ⟨items, hlist, hall⟩ := Node.spells_list h.2
    refine ⟨items.map v.sibling, ?_, ?_⟩
    · show v.items? = _
      unfold items? target
      rw [hlist]
    · rw [List.forall₂_map_left_iff]
      exact hall.imp fun n d hd => ⟨h.1, hd⟩
  fields v fs h _ := by
    obtain ⟨fields, hrecord, hall⟩ := Node.spells_record h.2
    obtain ⟨entries, hentries, hall⟩ := mapM_fields h.1 hall
    refine ⟨entries, fs, ?_, hall, List.Perm.refl fs, fun _ => rfl⟩
    show v.fields? = _
    unfold fields? target
    rw [hrecord]
    exact hentries

/-! ## Following no aliases -/

/-- The value spells some tree. -/
def IsPlain (v : Value) : Prop := ∃ d, v.Spells d

theorem IsPlain.target_eq (h : v.IsPlain) : v.target = v.node := by
  obtain ⟨d, -, hnode⟩ := h
  unfold target
  rcases Node.spells_cases hnode with ⟨_, _, hn⟩ | ⟨_, hn, -⟩ | ⟨_, hn, -⟩ <;> rw [hn]

theorem IsPlain.step?_eq (h : v.IsPlain) (allowance : Nat) :
    v.step? allowance = some allowance := by
  obtain ⟨d, -, hnode⟩ := h
  unfold step?
  rcases Node.spells_cases hnode with ⟨_, _, hn⟩ | ⟨_, hn, -⟩ | ⟨_, hn, -⟩ <;> simp only [hn]

/-- The parts of a plain list are plain. -/
theorem IsPlain.items (h : v.IsPlain) : ∀ i ∈ v.items?.getD [], i.IsPlain := by
  intro i hi
  unfold items? isBlank at hi
  rw [h.target_eq] at hi
  obtain ⟨d, hanchors, hnode⟩ := h
  rcases Node.spells_cases hnode with ⟨word, style, hn⟩ | ⟨items, hn, hitems⟩ | ⟨fields, hn, -⟩
  · simp only [hn] at hi
    split_ifs at hi <;> cases hi
  · simp only [hn, Option.getD_some, List.mem_map] at hi
    obtain ⟨n, hmem, rfl⟩ := hi
    obtain ⟨d, hd⟩ := hitems n hmem
    exact ⟨d, hanchors, hd⟩
  · simp only [hn] at hi
    cases hi

/-- The keys of a plain record are texts, and its values are plain. -/
theorem IsPlain.entries (h : v.IsPlain) {m : Marks} {fields : List (Node × Node)}
    (hfields : v.target = .record m fields) :
    ∀ e ∈ fields, (∃ s, (v.sibling e.1).Spells (.text s)) ∧ (v.sibling e.2).IsPlain := by
  rw [h.target_eq] at hfields
  obtain ⟨d, hanchors, hnode⟩ := h
  rcases Node.spells_cases hnode with ⟨_, _, hn⟩ | ⟨_, hn, -⟩ | ⟨fields', hn, hall⟩
  · rw [hn] at hfields
    cases hfields
  · rw [hn] at hfields
    cases hfields
  · rw [hn] at hfields
    cases hfields
    intro e he
    obtain ⟨⟨s, hs⟩, d, hd⟩ := hall e he
    exact ⟨⟨s, hanchors, hs⟩, d, hanchors, hd⟩

/-- Steps that take nothing from an allowance take nothing together. -/
theorem foldlM_of_fixed {ι : Type} {f : Nat → ι → Option Nat} {xs : List ι}
    (h : ∀ x ∈ xs, ∀ n, f n x = some n) (n : Nat) : xs.foldlM f n = some n := by
  induction xs with
  | nil => rfl
  | cons x xs ih =>
    rw [List.foldlM_cons, h x List.mem_cons_self]
    exact ih fun y hy => h y (List.mem_cons_of_mem _ hy)

mutual

/-- No alias is followed on the way to the parts of a plain value. -/
theorem follow?_of_isPlain (o : Outline) {v : Value} (h : v.IsPlain) (n : Nat) :
    v.follow? o n = some n := by
  cases o with
  | leaf =>
    unfold follow?
    exact h.step?_eq n
  | list item =>
    unfold follow?
    rw [h.step?_eq]
    exact foldlM_of_fixed (fun i hi n => follow?_of_isPlain item (h.items i hi) n) n
  | record fields =>
    unfold follow?
    split
    · next m entries htarget =>
      rw [h.step?_eq]
      refine foldlM_of_fixed ?_ n
      rintro ⟨k, e⟩ hmem n
      obtain ⟨⟨s, hs⟩, he⟩ := h.entries htarget _ hmem
      have hkey : IsPlain (v.sibling k) := ⟨_, hs⟩
      have htext : (v.sibling k).text? = some s := faithful.text _ _ hs
      show ((v.sibling k).text?.bind fun name => ((v.sibling k).step? n).bind fun n =>
        (v.sibling e).followField? name fields n) = some n
      rw [htext, hkey.step?_eq]
      exact followField?_of_isPlain s fields he n
    · exact h.step?_eq n

theorem followField?_of_isPlain (name : String) (fields : List (String × Outline)) {v : Value}
    (h : v.IsPlain) (n : Nat) : v.followField? name fields n = some n := by
  cases fields with
  | nil => rfl
  | cons field rest =>
    obtain ⟨known, part⟩ := field
    unfold followField?
    split_ifs
    · exact follow?_of_isPlain part h n
    · exact followField?_of_isPlain name rest h n

end

end Value

/-! ## Reading -/

/-- The text is a document that spells a tree. -/
def spells (d : Data) (text : String) : Bool :=
  (document? text).any fun (n, anchors) => anchors.isEmpty && n.spells d

theorem exists_of_spells {d : Data} {text : String} (h : spells d text = true) :
    ∃ n, document? text = some (n, []) ∧ n.spells d = true := by
  obtain ⟨⟨n, anchors⟩, hdoc, hn⟩ := (Option.any_eq_true _ _).mp h
  simp only [Bool.and_eq_true, List.isEmpty_iff] at hn
  obtain ⟨rfl, hnode⟩ := hn
  exact ⟨n, hdoc, hnode⟩

theorem fromUTF8?_toUTF8 (text : String) : String.fromUTF8? text.toUTF8 = some text := by
  show (if h : text.toByteArray.IsValidUTF8 then some (String.fromUTF8 text.toByteArray h)
    else none) = some text
  rw [dif_pos text.isValidUTF8]
  rfl

/-- What a reader restores from a tree is read from the file of a document that spells it, whatever
    parts the reader looks at. -/
theorem readBytes_of_spells {α : Type} {read : Value → Option α} {d : Data} {a : α} {text : String}
    (o : Outline) (hread : Source.Restores Value.Spells read d a) (h : spells d text = true) :
    readBytes o read (some text.toUTF8) = .ok a := by
  obtain ⟨n, hdoc, hnode⟩ := exists_of_spells h
  have hspells : Value.Spells ⟨[], n⟩ d := ⟨rfl, hnode⟩
  have hread' := hread _ hspells
  unfold readBytes
  simp only [fromUTF8?_toUTF8]
  unfold readText
  simp only [hdoc, Option.bind_eq_bind, Option.bind_some, Value.follow?_of_isPlain o ⟨d, hspells⟩,
    hread']

end LoadBench.Yaml
