import Mathlib.Data.List.DropRight
import Mathlib.Tactic
import LoadBench.Text.Blank

/-!
# Texts without the blanks around them

A text is blanks, a middle that neither begins nor ends with a blank, and blanks again. The middle
is what is left when the blanks are cut off; it is empty only if there is nothing but blanks.

Results:
* `trims_iff`: cutting off blanks leaves the middle, of which there is one.
* `isEmpty_trim_iff`: nothing is left of blanks only.
-/

namespace LoadBench.Text

variable {s t : String} {front back cs : List Char}

/-- A text is made of blanks only. -/
def IsBlank (s : String) : Prop := ∀ c ∈ s.toList, isBlank c = true

instance (s : String) : Decidable (IsBlank s) :=
  decidable_of_iff (s.toList.all isBlank = true) List.all_eq_true

/-- A text is another one with blanks around it, and the other one neither begins nor ends with a
    blank. -/
structure Trims (s t : String) : Prop where
  exists_blanks : ∃ front back : List Char, (∀ c ∈ front ++ back, isBlank c = true) ∧
    s.toList = front ++ t.toList ++ back
  head : ∀ c ∈ t.toList.head?, isBlank c = false
  last : ∀ c ∈ t.toList.getLast?, isBlank c = false

/-! ## Cutting off the ends of a text -/

section Ends

variable {p : Char → Bool}

theorem dropEndWhile_eq_nil (h : ∀ c ∈ back, p c = true) : dropEndWhile p back = [] :=
  List.rdropWhile_eq_nil_iff.mpr h

theorem dropEndWhile_append_of_all (h : ∀ c ∈ back, p c = true) :
    dropEndWhile p (front ++ back) = dropEndWhile p front := by
  unfold dropEndWhile
  rw [List.reverse_append, List.dropWhile_append_of_pos fun c hc => h c (List.mem_reverse.mp hc)]

/-- What stands in front of a character that stays is kept. -/
theorem dropEndWhile_append_of_not_all (h : ¬ ∀ c ∈ back, p c = true) :
    dropEndWhile p (front ++ back) = front ++ dropEndWhile p back := by
  have hsome : (back.reverse.dropWhile p).isEmpty = false := by
    rw [← Bool.not_eq_true, List.isEmpty_iff, List.dropWhile_eq_nil_iff]
    exact fun hall => h fun c hc => hall c (List.mem_reverse.mpr hc)
  unfold dropEndWhile
  rw [List.reverse_append, List.dropWhile_append, hsome]
  simp

theorem dropWhile_of_head (h : ∀ c ∈ cs.head?, p c = false) : cs.dropWhile p = cs := by
  cases cs with
  | nil => rfl
  | cons c rest => rw [List.dropWhile_cons_of_neg (by simp [h c rfl])]

theorem dropEndWhile_of_last (h : ∀ c ∈ cs.getLast?, p c = false) : dropEndWhile p cs = cs := by
  unfold dropEndWhile
  rw [dropWhile_of_head (by rwa [List.head?_reverse]), List.reverse_reverse]

theorem head_dropWhile (p : Char → Bool) (cs : List Char) :
    ∀ c ∈ (cs.dropWhile p).head?, p c = false := by
  intro c hc
  have hnot := List.head?_dropWhile_not p cs
  rw [Option.mem_def.mp hc] at hnot
  simpa using hnot

theorem last_dropEndWhile (p : Char → Bool) (cs : List Char) :
    ∀ c ∈ (dropEndWhile p cs).getLast?, p c = false := by
  unfold dropEndWhile
  rw [List.getLast?_reverse]
  exact head_dropWhile p cs.reverse

/-- What is cut off stands behind what is left. -/
theorem exists_dropEndWhile_append (p : Char → Bool) (cs : List Char) :
    ∃ back, (∀ c ∈ back, p c = true) ∧ cs = dropEndWhile p cs ++ back := by
  refine ⟨(cs.reverse.takeWhile p).reverse, fun c hc => ?_, ?_⟩
  · exact List.mem_takeWhile_imp (List.mem_reverse.mp hc)
  · unfold dropEndWhile
    rw [← List.reverse_append, List.takeWhile_append_dropWhile, List.reverse_reverse]

end Ends

/-! ## Cutting off blanks -/

theorem toList_trim (s : String) :
    (trim s).toList = dropEndWhile isBlank (s.toList.dropWhile isBlank) := String.toList_ofList

/-- What is left begins with a character that stays, if anything is left. -/
theorem head_dropEndWhile (h : ∀ c ∈ cs.head?, isBlank c = false) :
    ∀ c ∈ (dropEndWhile isBlank cs).head?, isBlank c = false := by
  obtain ⟨back, -, hcs⟩ := exists_dropEndWhile_append isBlank cs
  cases hleft : dropEndWhile isBlank cs with
  | nil => simp
  | cons c rest =>
    rw [hcs, hleft] at h
    exact h

theorem trims_trim (s : String) : Trims s (trim s) := by
  obtain ⟨back, hback, hmiddle⟩ :=
    exists_dropEndWhile_append isBlank (s.toList.dropWhile isBlank)
  constructor
  · refine ⟨s.toList.takeWhile isBlank, back, fun c hc => ?_, ?_⟩
    · rcases List.mem_append.mp hc with hc | hc
      · exact List.mem_takeWhile_imp hc
      · exact hback c hc
    · rw [toList_trim, List.append_assoc, ← hmiddle, List.takeWhile_append_dropWhile]
  · rw [toList_trim]
    exact head_dropEndWhile (head_dropWhile isBlank _)
  · rw [toList_trim]
    exact last_dropEndWhile isBlank _

theorem Trims.trim_eq (h : Trims s t) : trim s = t := by
  obtain ⟨front, back, hblank, hs⟩ := h.exists_blanks
  have hfront : ∀ c ∈ front, isBlank c = true := fun c hc => hblank c (List.mem_append_left _ hc)
  have hback : ∀ c ∈ back, isBlank c = true := fun c hc => hblank c (List.mem_append_right _ hc)
  rw [← String.toList_inj, toList_trim, hs, List.append_assoc, List.dropWhile_append_of_pos hfront]
  cases ht : t.toList with
  | nil =>
    rw [List.nil_append, List.dropWhile_eq_nil_iff.mpr hback]
    rfl
  | cons c rest =>
    have hc : isBlank c = false := h.head c (by rw [ht]; rfl)
    rw [List.cons_append, List.dropWhile_cons_of_neg (by simp [hc]), ← List.cons_append, ← ht,
      dropEndWhile_append_of_all hback, dropEndWhile_of_last h.last]

/-- Cutting off the blanks leaves the middle of a text. -/
theorem trims_iff : Trims s t ↔ trim s = t :=
  ⟨Trims.trim_eq, fun h => h ▸ trims_trim s⟩

/-- Nothing is left of blanks only. -/
theorem isEmpty_trim_iff : (trim s).isEmpty = true ↔ IsBlank s := by
  rw [String.isEmpty_iff, ← trims_iff]
  constructor
  · rintro ⟨⟨front, back, hblank, hs⟩, -, -⟩ c hc
    rw [hs] at hc
    exact hblank c (by simpa using hc)
  · intro h
    exact ⟨⟨s.toList, [], by rwa [List.append_nil], by simp⟩, by simp, by simp⟩

end LoadBench.Text
