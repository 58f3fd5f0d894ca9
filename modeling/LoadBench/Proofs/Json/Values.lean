import LoadBench.Proofs.Json.Tokens

/-!
# Texts that are read back

A tree is written as a text, compactly or over several lines. Both texts have the same tokens, and
these build the normal form of the tree, as long as it is not nested too deep.

Results:
* `lexes_compactChars`, `lexes_prettyChars`: the tokens of the two texts.
* `builds_tokens`: what the tokens of a tree build.
* `parse?_compact`, `parse?_pretty`: the texts are read back.
-/

namespace LoadBench.Json

/-! ## The tokens of a tree -/

mutual

/-- The tokens of a tree. -/
def tokens : Data → List Token
  | .list [] => [.openList, .closeList]
  | .list (d :: rest) => .openList :: tokens d ++ itemTokens rest
  | .record [] => [.openRecord, .closeRecord]
  | .record ((k, d) :: rest) =>
    .openRecord :: .leaf (.text k) :: .colon :: tokens d ++ fieldTokens rest
  | d => [.leaf d]

/-- The tokens of further items and of the end of their list. -/
def itemTokens : List Data → List Token
  | [] => [.closeList]
  | d :: rest => .comma :: tokens d ++ itemTokens rest

/-- The tokens of further fields and of the end of their record. -/
def fieldTokens : List (String × Data) → List Token
  | [] => [.closeRecord]
  | (k, d) :: rest => .comma :: .leaf (.text k) :: .colon :: tokens d ++ fieldTokens rest

end

mutual

/-- All leaves of the tree have a form of their own, so that a text can say what it holds. -/
def isWritable : Data → Bool
  | .list items => areWritable items
  | .record fields => haveWritable fields
  | d => isLeaf d

/-- All items can be written. -/
def areWritable : List Data → Bool
  | [] => true
  | d :: rest => isWritable d && areWritable rest

/-- The values of all fields can be written. -/
def haveWritable : List (String × Data) → Bool
  | [] => true
  | (_, d) :: rest => isWritable d && haveWritable rest

end

theorem isWritable_list {items : List Data} :
    isWritable (.list items) = true ↔ ∀ d ∈ items, isWritable d = true := by
  rw [isWritable]
  induction items with
  | nil => simp [areWritable]
  | cons d rest ih => simp [areWritable, ih]

theorem isWritable_record {fields : List (String × Data)} :
    isWritable (.record fields) = true ↔ ∀ f ∈ fields, isWritable f.2 = true := by
  rw [isWritable]
  induction fields with
  | nil => simp [haveWritable]
  | cons f rest ih => simp [haveWritable, ih]

theorem isLeaf_of_isSingle {d : Data} (hsingle : d.isSingle = true) (h : isWritable d = true) :
    isLeaf d = true := by
  cases d with
  | list items => cases hsingle
  | record fields => cases hsingle
  | _ => exact h

theorem tokens_of_isSingle {d : Data} (hsingle : d.isSingle = true) : tokens d = [.leaf d] := by
  cases d with
  | list items => cases hsingle
  | record fields => cases hsingle
  | _ => rfl

/-! ## The compact text -/

/-- A value has its tokens in front of any text that can stand behind it. -/
def LexesAs (w : List Char) (d : Data) : Prop :=
  ∀ rest ts, endsNumber rest = true → Lexes rest ts → Lexes (w ++ rest) (tokens d ++ ts)

variable {rest : List Char} {ts : List Token}

theorem lexesAs_leaf {d : Data} (hsingle : d.isSingle = true) (h : isWritable d = true) :
    LexesAs (leaf d) d := by
  intro rest ts hrest hlexes
  rw [tokens_of_isSingle hsingle]
  exact hlexes.leaf (isLeaf_of_isSingle hsingle h) hrest

theorem compactChars_of_isSingle {d : Data} (hsingle : d.isSingle = true) :
    compactChars d = leaf d := by
  cases d with
  | list items => cases hsingle
  | record fields => cases hsingle
  | _ => rfl

/-- What follows one item decides whether there is a comma. -/
theorem lexes_compactItems {d : Data} {items : List Data}
    (hd : LexesAs (compactChars d) d) (hitems : ∀ d ∈ items, LexesAs (compactChars d) d)
    (h : Lexes rest ts) :
    Lexes (compactItems (d :: items) ++ rest) (tokens d ++ itemTokens items ++ ts) := by
  induction items generalizing d with
  | nil =>
    show Lexes (compactChars d ++ [']'] ++ rest) (tokens d ++ [.closeList] ++ ts)
    simp only [List.append_assoc, List.singleton_append]
    exact hd _ _ rfl (h.mark rfl)
  | cons e items ih =>
    have hrest := ih (hitems e List.mem_cons_self) fun d hd => hitems d (List.mem_cons_of_mem _ hd)
    show Lexes (compactChars d ++ ',' :: compactItems (e :: items) ++ rest)
      (tokens d ++ (.comma :: tokens e ++ itemTokens items) ++ ts)
    simp only [List.append_assoc, List.cons_append] at hrest ⊢
    exact hd _ _ rfl (hrest.mark rfl)

theorem lexes_compactFields {k : String} {d : Data} {fields : List (String × Data)}
    (hd : LexesAs (compactChars d) d) (hfields : ∀ f ∈ fields, LexesAs (compactChars f.2) f.2)
    (h : Lexes rest ts) :
    Lexes (compactFields ((k, d) :: fields) ++ rest)
      (.leaf (.text k) :: .colon :: tokens d ++ fieldTokens fields ++ ts) := by
  induction fields generalizing k d with
  | nil =>
    show Lexes (quoted k ++ ':' :: compactChars d ++ ['\x7d'] ++ rest)
      (.leaf (.text k) :: .colon :: tokens d ++ [.closeRecord] ++ ts)
    simp only [List.append_assoc, List.cons_append]
    exact ((hd _ _ rfl (h.mark rfl)).mark rfl).quoted k
  | cons f fields ih =>
    have hrest := ih (k := f.1) (hfields f List.mem_cons_self) fun f hf =>
      hfields f (List.mem_cons_of_mem _ hf)
    show Lexes (quoted k ++ ':' :: compactChars d ++ ',' :: compactFields (f :: fields) ++ rest)
      (.leaf (.text k) :: .colon :: tokens d ++
        (.comma :: .leaf (.text f.1) :: .colon :: tokens f.2 ++ fieldTokens fields) ++ ts)
    simp only [List.append_assoc, List.cons_append] at hrest ⊢
    exact ((hd _ _ rfl (hrest.mark rfl)).mark rfl).quoted k

/-- The compact text of a tree has its tokens. -/
theorem lexes_compactChars {d : Data} (h : isWritable d = true) : LexesAs (compactChars d) d := by
  induction d using Data.inductionOn with
  | single d hsingle =>
    rw [compactChars_of_isSingle hsingle]
    exact lexesAs_leaf hsingle h
  | list items ih =>
    rw [isWritable_list] at h
    intro rest ts _ hlexes
    cases items with
    | nil => exact (hlexes.mark rfl).mark rfl
    | cons d items =>
      have hitems := lexes_compactItems (ih d List.mem_cons_self (h d List.mem_cons_self))
        (fun d hd => ih d (List.mem_cons_of_mem _ hd) (h d (List.mem_cons_of_mem _ hd))) hlexes
      exact hitems.mark rfl
  | record fields ih =>
    rw [isWritable_record] at h
    intro rest ts _ hlexes
    cases fields with
    | nil => exact (hlexes.mark rfl).mark rfl
    | cons f fields =>
      have hfields := lexes_compactFields (k := f.1)
        (ih f List.mem_cons_self (h f List.mem_cons_self))
        (fun f hf => ih f (List.mem_cons_of_mem _ hf) (h f (List.mem_cons_of_mem _ hf))) hlexes
      exact hfields.mark rfl

/-! ## The text over several lines -/

theorem prettyChars_of_isSingle {d : Data} (hsingle : d.isSingle = true) (level : Nat) :
    prettyChars level d = leaf d := by
  cases d with
  | list items => cases hsingle
  | record fields => cases hsingle
  | _ => rfl

theorem lexes_prettyItems {level : Nat} {items : List Data}
    (hitems : ∀ d ∈ items, LexesAs (prettyChars (level + 1) d) d) (h : Lexes rest ts) :
    Lexes (prettyItems level items ++ rest) (itemTokens items ++ ts) := by
  induction items with
  | nil =>
    show Lexes (newLine level ++ [']'] ++ rest) (.closeList :: ts)
    rw [List.append_assoc]
    exact (h.mark rfl).newLine level
  | cons d items ih =>
    have hrest := ih fun d hd => hitems d (List.mem_cons_of_mem _ hd)
    show Lexes (',' :: newLine (level + 1) ++ prettyChars (level + 1) d ++ prettyItems level items
      ++ rest) (.comma :: tokens d ++ itemTokens items ++ ts)
    have hends : endsNumber (prettyItems level items ++ rest) = true := by cases items <;> rfl
    simp only [List.append_assoc, List.cons_append]
    exact ((hitems d List.mem_cons_self _ _ hends hrest).newLine (level + 1)).mark rfl

theorem lexes_prettyFields {level : Nat} {fields : List (String × Data)}
    (hfields : ∀ f ∈ fields, LexesAs (prettyChars (level + 1) f.2) f.2) (h : Lexes rest ts) :
    Lexes (prettyFields level fields ++ rest) (fieldTokens fields ++ ts) := by
  induction fields with
  | nil =>
    show Lexes (newLine level ++ ['\x7d'] ++ rest) (.closeRecord :: ts)
    rw [List.append_assoc]
    exact (h.mark rfl).newLine level
  | cons f fields ih =>
    have hrest := ih fun f hf => hfields f (List.mem_cons_of_mem _ hf)
    show Lexes (',' :: newLine (level + 1) ++ quoted f.1 ++ [':', ' ']
      ++ prettyChars (level + 1) f.2 ++ prettyFields level fields ++ rest)
      (.comma :: .leaf (.text f.1) :: .colon :: tokens f.2 ++ fieldTokens fields ++ ts)
    have hends : endsNumber (prettyFields level fields ++ rest) = true := by cases fields <;> rfl
    simp only [List.append_assoc, List.cons_append, List.nil_append]
    have hvalue := (hfields f List.mem_cons_self _ _ hends hrest).gap (c := ' ') rfl
    exact (((hvalue.mark rfl).quoted f.1).newLine (level + 1)).mark rfl

/-- The text of a tree over several lines has its tokens. -/
theorem lexes_prettyChars {d : Data} (h : isWritable d = true) (level : Nat) :
    LexesAs (prettyChars level d) d := by
  induction d using Data.inductionOn generalizing level with
  | single d hsingle =>
    rw [prettyChars_of_isSingle hsingle]
    exact lexesAs_leaf hsingle h
  | list items ih =>
    rw [isWritable_list] at h
    intro rest ts _ hlexes
    cases items with
    | nil => exact (hlexes.mark rfl).mark rfl
    | cons d items =>
      have hitems := lexes_prettyItems (fun d hd =>
        ih d (List.mem_cons_of_mem _ hd) (h d (List.mem_cons_of_mem _ hd)) (level + 1)) hlexes
      have hends : endsNumber (prettyItems level items ++ rest) = true := by cases items <;> rfl
      have hd := ih d List.mem_cons_self (h d List.mem_cons_self) (level + 1) _ _ hends hitems
      show Lexes ('[' :: newLine (level + 1) ++ prettyChars (level + 1) d ++ prettyItems level items
        ++ rest) (.openList :: tokens d ++ itemTokens items ++ ts)
      simp only [List.append_assoc, List.cons_append]
      exact (hd.newLine (level + 1)).mark rfl
  | record fields ih =>
    rw [isWritable_record] at h
    intro rest ts _ hlexes
    cases fields with
    | nil => exact (hlexes.mark rfl).mark rfl
    | cons f fields =>
      have hfields := lexes_prettyFields (fun f hf =>
        ih f (List.mem_cons_of_mem _ hf) (h f (List.mem_cons_of_mem _ hf)) (level + 1)) hlexes
      have hends : endsNumber (prettyFields level fields ++ rest) = true := by cases fields <;> rfl
      have hd := ih f List.mem_cons_self (h f List.mem_cons_self) (level + 1) _ _ hends hfields
      show Lexes ('\x7b' :: newLine (level + 1) ++ quoted f.1 ++ [':', ' ']
        ++ prettyChars (level + 1) f.2 ++ prettyFields level fields ++ rest)
        (.openRecord :: .leaf (.text f.1) :: .colon :: tokens f.2 ++ fieldTokens fields ++ ts)
      simp only [List.append_assoc, List.cons_append, List.nil_append]
      have hvalue := (hd.gap (c := ' ') rfl).mark (t := .colon) (c := ':') rfl
      exact ((hvalue.quoted f.1).newLine (level + 1)).mark rfl

/-! ## Nesting -/

mutual

/-- How deep lists and records are nested in a tree. -/
def depth : Data → Nat
  | .list items => itemsDepth items + 1
  | .record fields => fieldsDepth fields + 1
  | _ => 0

/-- The greatest depth of some items. -/
def itemsDepth : List Data → Nat
  | [] => 0
  | d :: rest => max (depth d) (itemsDepth rest)

/-- The greatest depth of the values of some fields. -/
def fieldsDepth : List (String × Data) → Nat
  | [] => 0
  | (_, d) :: rest => max (depth d) (fieldsDepth rest)

end

theorem depth_of_isSingle {d : Data} (h : d.isSingle = true) : depth d = 0 := by
  cases d with
  | list items => cases h
  | record fields => cases h
  | _ => rfl

/-! ## Building -/

/-- A value may come next. -/
def Awaits (p : Progress) (stack : List Open) : Prop :=
  p.stack = stack ∧ (p.expect = .value ∨ p.expect = .itemOrEnd)

/-- The tokens of a tree hand its normal form to the innermost open container, unless they open more
    than may be open. -/
def Builds (d : Data) (stack : List Open) : Prop :=
  ∀ p, Awaits p stack → (tokens d).foldlM step? p =
    if stack.length + depth d ≤ depthLimit then complete d.normal stack else none

variable {stack : List Open}

theorem foldlM_singleton (p : Progress) (t : Token) : [t].foldlM step? p = step? p t := by
  rw [List.foldlM_cons]
  exact bind_pure _

theorem builds_single {d : Data} (hsingle : d.isSingle = true)
    (hstack : stack.length ≤ depthLimit) : Builds d stack := by
  rintro ⟨_, expect, result⟩ ⟨rfl, hexpect⟩
  rw [depth_of_isSingle hsingle, if_pos (by simpa using hstack), tokens_of_isSingle hsingle,
    Data.normal_of_isSingle hsingle, foldlM_singleton]
  rcases hexpect with hexpect | hexpect <;> obtain rfl : expect = _ := hexpect <;> rfl

/-- Items join those before them; one that is nested too deep ends it all. -/
theorem foldlM_items (acc : List Data) {d : Data} {items : List Data} {p : Progress}
    (hp : Awaits p (.list acc :: stack)) (hd : ∀ acc, Builds d (.list acc :: stack))
    (hitems : ∀ d ∈ items, ∀ acc, Builds d (.list acc :: stack)) :
    (tokens d ++ itemTokens items).foldlM step? p =
      if stack.length + (itemsDepth (d :: items) + 1) ≤ depthLimit then
        complete (.list (acc.reverse ++ (d :: items).map Data.normal)) stack
      else none := by
  rw [List.foldlM_append, hd acc p hp, List.length_cons]
  induction items generalizing d acc p with
  | nil =>
    rw [itemsDepth, itemsDepth, Nat.max_zero]
    by_cases hdeep : stack.length + 1 + depth d ≤ depthLimit
    · rw [if_pos hdeep, if_pos (by omega), List.map_singleton, itemTokens]
      show [Token.closeList].foldlM step? ⟨.list (d.normal :: acc) :: stack, .more, none⟩ = _
      rw [foldlM_singleton]
      show complete (.list (d.normal :: acc).reverse) stack = _
      rw [List.reverse_cons]
    · rw [if_neg hdeep, if_neg (by omega)]
      rfl
  | cons e items ih =>
    rw [itemsDepth]
    by_cases hdeep : stack.length + 1 + depth d ≤ depthLimit
    · rw [if_pos hdeep]
      show (tokens e ++ itemTokens items).foldlM step?
        ⟨.list (d.normal :: acc) :: stack, .value, none⟩ = _
      have he := hitems e List.mem_cons_self
      rw [List.foldlM_append, he _ _ ⟨rfl, .inl rfl⟩, List.length_cons,
        ih _ (p := ⟨_, .value, none⟩) ⟨rfl, .inl rfl⟩ he fun d hd =>
          hitems d (List.mem_cons_of_mem _ hd)]
      refine if_congr (by omega) ?_ rfl
      simp
    · rw [if_neg hdeep, if_neg (by omega)]
      rfl

/-- Fields join those before them; one whose value is nested too deep ends it all. -/
theorem foldlM_fields (acc : List (String × Data)) {k : String} {d : Data}
    {fields : List (String × Data)} (hd : ∀ acc k, Builds d (.field acc k :: stack))
    (hfields : ∀ f ∈ fields, ∀ acc k, Builds f.2 (.field acc k :: stack)) :
    (tokens d ++ fieldTokens fields).foldlM step? ⟨.field acc k :: stack, .value, none⟩ =
      if stack.length + (fieldsDepth ((k, d) :: fields) + 1) ≤ depthLimit then
        complete (Data.sortedRecord (acc.reverse ++ Data.mapValues Data.normal ((k, d) :: fields)))
          stack
      else none := by
  rw [List.foldlM_append, hd acc k _ ⟨rfl, .inl rfl⟩, List.length_cons]
  induction fields generalizing k d acc with
  | nil =>
    rw [fieldsDepth, fieldsDepth, Nat.max_zero]
    by_cases hdeep : stack.length + 1 + depth d ≤ depthLimit
    · rw [if_pos hdeep, if_pos (by omega), fieldTokens]
      show [Token.closeRecord].foldlM step?
        ⟨.record ((k, d.normal) :: acc) :: stack, .more, none⟩ = _
      rw [foldlM_singleton]
      show complete (Data.sortedRecord ((k, d.normal) :: acc).reverse) stack = _
      rw [List.reverse_cons]
      rfl
    · rw [if_neg hdeep, if_neg (by omega)]
      rfl
  | cons f fields ih =>
    obtain ⟨l, e⟩ := f
    rw [fieldsDepth]
    by_cases hdeep : stack.length + 1 + depth d ≤ depthLimit
    · rw [if_pos hdeep]
      show (tokens e ++ fieldTokens fields).foldlM step?
        ⟨.field ((k, d.normal) :: acc) l :: stack, .value, none⟩ = _
      have he : ∀ acc k, Builds e (.field acc k :: stack) := hfields (l, e) List.mem_cons_self
      rw [List.foldlM_append, he _ _ _ ⟨rfl, .inl rfl⟩, List.length_cons,
        ih _ he fun f hf => hfields f (List.mem_cons_of_mem _ hf)]
      refine if_congr (by omega) ?_ rfl
      simp [Data.mapValues]
    · rw [if_neg hdeep, if_neg (by omega)]
      rfl

/-- Where a value may come, a list or a record is opened if there is room. -/
theorem step?_of_awaits {p : Progress} (hp : Awaits p stack) (hroom : stack.length < depthLimit) :
    step? p .openList = some ⟨.list [] :: stack, .itemOrEnd, none⟩ ∧
      step? p .openRecord = some ⟨.record [] :: stack, .keyOrEnd, none⟩ := by
  obtain ⟨containers, expect, result⟩ := p
  obtain ⟨hstack, hexpect⟩ := hp
  obtain rfl : containers = stack := hstack
  have hopen : ∀ o expect, descend? o expect containers = some ⟨o :: containers, expect, none⟩ :=
    fun _ _ => if_pos hroom
  rcases hexpect with hexpect | hexpect <;> obtain rfl : expect = _ := hexpect <;>
    exact ⟨hopen _ _, hopen _ _⟩

/-- Where there is no room, nothing is opened. -/
theorem foldlM_of_full {p : Progress} (hp : Awaits p stack) (hfull : ¬ stack.length < depthLimit)
    {t : Token} (ht : t = .openList ∨ t = .openRecord) (ts : List Token) :
    (t :: ts).foldlM step? p = none := by
  obtain ⟨containers, expect, result⟩ := p
  obtain ⟨hstack, hexpect⟩ := hp
  obtain rfl : containers = stack := hstack
  have hclosed : ∀ o expect, descend? o expect containers = none := fun _ _ => if_neg hfull
  have hstep : step? ⟨containers, expect, result⟩ t = none := by
    rcases hexpect with hexpect | hexpect <;> obtain rfl : expect = _ := hexpect <;>
      rcases ht with rfl | rfl <;> exact hclosed _ _
  rw [List.foldlM_cons, hstep]
  rfl

theorem builds_list {items : List Data}
    (hitems : stack.length < depthLimit → ∀ d ∈ items, ∀ acc, Builds d (.list acc :: stack)) :
    Builds (.list items) stack := by
  intro p hp
  rw [Data.normal_list, depth]
  by_cases hroom : stack.length < depthLimit
  · have hopen := (step?_of_awaits hp hroom).1
    cases items with
    | nil =>
      show (step? p .openList).bind (fun p => [Token.closeList].foldlM step? p) = _
      rw [hopen, Option.bind_some, foldlM_singleton, itemsDepth, if_pos (by omega)]
      rfl
    | cons d items =>
      show (step? p .openList).bind (fun p => (tokens d ++ itemTokens items).foldlM step? p) = _
      rw [hopen, Option.bind_some]
      exact foldlM_items [] ⟨rfl, .inr rfl⟩ (hitems hroom d List.mem_cons_self)
        fun d hd => hitems hroom d (List.mem_cons_of_mem _ hd)
  · obtain ⟨ts, hts⟩ : ∃ ts, tokens (.list items) = .openList :: ts := by
      cases items <;> exact ⟨_, rfl⟩
    rw [if_neg (by omega), hts]
    exact foldlM_of_full hp hroom (.inl rfl) ts

theorem builds_record {fields : List (String × Data)}
    (hfields : stack.length < depthLimit →
      ∀ f ∈ fields, ∀ acc k, Builds f.2 (.field acc k :: stack)) :
    Builds (.record fields) stack := by
  intro p hp
  rw [Data.normal, Data.normalFields_eq, depth]
  by_cases hroom : stack.length < depthLimit
  · have hopen := (step?_of_awaits hp hroom).2
    cases fields with
    | nil =>
      show (step? p .openRecord).bind (fun p => [Token.closeRecord].foldlM step? p) = _
      rw [hopen, Option.bind_some, foldlM_singleton, fieldsDepth, if_pos (by omega)]
      rfl
    | cons f fields =>
      obtain ⟨k, d⟩ := f
      show (step? p .openRecord).bind (fun p =>
        (.leaf (.text k) :: .colon :: (tokens d ++ fieldTokens fields)).foldlM step? p) = _
      rw [hopen, Option.bind_some]
      show (tokens d ++ fieldTokens fields).foldlM step? ⟨.field [] k :: stack, .value, none⟩ = _
      exact foldlM_fields [] (hfields hroom (k, d) List.mem_cons_self)
        fun f hf => hfields hroom f (List.mem_cons_of_mem _ hf)
  · obtain ⟨ts, hts⟩ : ∃ ts, tokens (.record fields) = .openRecord :: ts := by
      cases fields <;> exact ⟨_, rfl⟩
    rw [if_neg (by omega), hts]
    exact foldlM_of_full hp hroom (.inr rfl) ts

/-- The tokens of a tree build its normal form if it is not nested too deep, and nothing if it
    is. -/
theorem builds_tokens {d : Data} (hstack : stack.length ≤ depthLimit) : Builds d stack := by
  induction d using Data.inductionOn generalizing stack with
  | single d hsingle => exact builds_single hsingle hstack
  | list items ih => exact builds_list fun hroom d hd acc => ih d hd hroom
  | record fields ih => exact builds_record fun hroom f hf acc k => ih f hf hroom

/-! ## Reading -/

theorem parse?_of_lexes {d : Data} {cs : List Char} (h : LexesAs cs d) :
    parse? (String.ofList cs) = if depth d ≤ depthLimit then some d.normal else none := by
  have htokens : tokens? cs = some (tokens d) := by
    have hlexes := h [] [] rfl lexes_nil
    rw [List.append_nil, List.append_nil] at hlexes
    exact hlexes cs.length le_rfl
  have hbuilds : Builds d [] := builds_tokens (Nat.zero_le _)
  have hbuilt := hbuilds ⟨[], .value, none⟩ ⟨rfl, .inl rfl⟩
  rw [List.length_nil, Nat.zero_add] at hbuilt
  show (tokens? (String.ofList cs).toList).bind (fun ts =>
    (ts.foldlM step? ⟨[], .value, none⟩).bind (·.result)) = _
  rw [String.toList_ofList, htokens, Option.bind_some, hbuilt]
  split_ifs <;> rfl

/-- The compact text of a tree is read back in normal form, unless it is nested too deep. -/
theorem parse?_compact {d : Data} (h : isWritable d = true) :
    parse? (compact d) = if depth d ≤ depthLimit then some d.normal else none :=
  parse?_of_lexes (lexes_compactChars h)

/-- So is the text over several lines. -/
theorem parse?_pretty {d : Data} (h : isWritable d = true) :
    parse? (pretty d) = if depth d ≤ depthLimit then some d.normal else none :=
  parse?_of_lexes (lexes_prettyChars h 0)

end LoadBench.Json
