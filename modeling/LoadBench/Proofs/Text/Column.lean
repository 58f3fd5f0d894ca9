import Mathlib.Tactic
import LoadBench.Text.Column

/-!
# Texts of a set width

Counting, cutting and filling go by characters alike, so that a text comes out as wide as it is
meant to be, whatever it is written with. An ellipsis takes the place of one character: a text that
just fits is kept, and of one that does not fit one character less is kept than there is room for.

Results:
* `length_truncate`: how many characters are left of a text.
* `isCut_iff`: what a text is cut to.
* `truncate_truncate`: what was cut fits, there and in every wider place.
* `fills_iff`: what a text is cut and filled to.
-/

namespace LoadBench.Text

variable {width : Nat} {s cut cell : String}

/-- A text as it stands where there is room for some number of characters: itself if it fits, else
    its beginning and an ellipsis, for which there is room as well. -/
structure IsCut (width : Nat) (s cut : String) : Prop where
  length_le : cut.length ≤ width
  eq_iff : cut = s ↔ s.length ≤ width
  toList_eq : width < s.length → cut.toList = s.toList.take (width - 1) ++ ['…']

/-- A text cut to a width, and blanks behind it up to this width. -/
structure Fills (width : Nat) (s cell : String) : Prop where
  length_eq : cell.length = width
  exists_cut : ∃ cut blanks, IsCut width s cut ∧ (∀ c ∈ blanks, c = ' ') ∧
    cell.toList = cut.toList ++ blanks

/-! ## Cutting -/

theorem truncate_of_le (h : s.length ≤ width) : truncate width s = s := if_pos h

theorem toList_truncate (h : width < s.length) :
    (truncate width s).toList = s.toList.take (width - 1) ++ ['…'] := by
  rw [truncate, if_neg (Nat.not_le.mpr h), String.toList_ofList]

/-- As much is left as there is, or as there is room for, and then the ellipsis takes up the last
    place. -/
theorem length_truncate (hwidth : 0 < width) (s : String) :
    (truncate width s).length = min width s.length := by
  rcases Nat.lt_or_ge width s.length with hlong | hshort
  · have hkept : (s.toList.take (width - 1)).length = width - 1 := by
      rw [List.length_take, String.length_toList]
      omega
    rw [← String.length_toList, toList_truncate hlong, List.length_append, hkept,
      List.length_singleton]
    omega
  · rw [truncate_of_le hshort, Nat.min_eq_right hshort]

theorem isCut_truncate (hwidth : 0 < width) (s : String) : IsCut width s (truncate width s) where
  length_le := by
    rw [length_truncate hwidth]
    exact Nat.min_le_left _ _
  eq_iff := by
    refine ⟨fun h => ?_, truncate_of_le⟩
    rw [← h, length_truncate hwidth]
    exact Nat.min_le_left _ _
  toList_eq := toList_truncate

theorem IsCut.truncate_eq (h : IsCut width s cut) : truncate width s = cut := by
  rcases Nat.lt_or_ge width s.length with hlong | hshort
  · rw [← String.toList_inj, toList_truncate hlong, h.toList_eq hlong]
  · rw [truncate_of_le hshort, h.eq_iff.mpr hshort]

/-- A text is cut in one way. -/
theorem isCut_iff (hwidth : 0 < width) : IsCut width s cut ↔ truncate width s = cut :=
  ⟨IsCut.truncate_eq, fun h => h ▸ isCut_truncate hwidth s⟩

example : truncate 8 "this is long" = "this is…" := by decide

/-- What was cut fits, there and in every wider place. -/
theorem truncate_truncate (hwidth : 0 < width) (s : String) {wider : Nat} (h : width ≤ wider) :
    truncate wider (truncate width s) = truncate width s :=
  truncate_of_le ((isCut_truncate hwidth s).length_le.trans h)

/-! ## Filling -/

theorem toList_padEnd (width : Nat) (s : String) :
    (padEnd width s).toList = s.toList ++ List.replicate (width - s.length) ' ' :=
  String.toList_ofList

theorem length_padEnd (width : Nat) (s : String) :
    (padEnd width s).length = max width s.length := by
  rw [← String.length_toList, toList_padEnd, List.length_append, String.length_toList,
    List.length_replicate]
  omega

theorem fills_padEnd_truncate (hwidth : 0 < width) (s : String) :
    Fills width s (padEnd width (truncate width s)) where
  length_eq := by
    rw [length_padEnd]
    exact Nat.max_eq_left (isCut_truncate hwidth s).length_le
  exists_cut := ⟨truncate width s, _, isCut_truncate hwidth s,
    fun _ => List.eq_of_mem_replicate, toList_padEnd _ _⟩

theorem Fills.padEnd_truncate_eq (h : Fills width s cell) :
    padEnd width (truncate width s) = cell := by
  obtain ⟨cut, blanks, hcut, hblanks, hcell⟩ := h.exists_cut
  have hlength : width - cut.length = blanks.length := by
    rw [← h.length_eq, ← String.length_toList, hcell, List.length_append, String.length_toList,
      Nat.add_sub_cancel_left]
  rw [hcut.truncate_eq, ← String.toList_inj, toList_padEnd, hcell, hlength,
    ← List.eq_replicate_of_mem hblanks]

/-- A text is cut and filled in one way. -/
theorem fills_iff (hwidth : 0 < width) :
    Fills width s cell ↔ padEnd width (truncate width s) = cell :=
  ⟨Fills.padEnd_truncate_eq, fun h => h ▸ fills_padEnd_truncate hwidth s⟩

end LoadBench.Text
