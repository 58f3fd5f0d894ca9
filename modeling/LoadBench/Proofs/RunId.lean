import Mathlib.Tactic
import LoadBench.RunId

/-!
# Identifiers are read back

Results:
* `RunId.hexNumber?_hexDigits`: digits of base sixteen spell the number that they were drawn from.
* `RunId.ungrouped?_grouped`: groups are put together again.
* `RunId.parse?_render`: every identifier is read back from the text that it is written as.
-/

namespace LoadBench.RunId

/-! ## Digits -/

theorem length_hexDigits (width n : Nat) : (hexDigits width n).length = width := by
  induction width generalizing n with
  | zero => rfl
  | succ width ih => rw [hexDigits, List.length_append, ih, List.length_singleton]

theorem hexValue?_hexDigit {d : Nat} (h : d < 16) :
    Json.Quoted.hexValue? (Json.Quoted.hexDigit d) = some d := by
  revert d
  decide

/-- The digits spell what is left of the number within their width. -/
theorem hexNumber?_hexDigits (width n : Nat) :
    hexNumber? (hexDigits width n) = some (n % 16 ^ width) := by
  unfold hexNumber?
  induction width generalizing n with
  | zero => rw [pow_zero, Nat.mod_one]; rfl
  | succ width ih =>
    have hlast : n % 16 < 16 := Nat.mod_lt n (by decide)
    rw [hexDigits, List.foldlM_append, ih]
    show (Json.Quoted.hexValue? (Json.Quoted.hexDigit (n % 16))).map
      (16 * (n / 16 % 16 ^ width) + ·) >>= pure = _
    rw [bind_pure, hexValue?_hexDigit hlast, Option.map_some, Option.some_inj, pow_succ',
      Nat.mod_mul, Nat.add_comm]

/-- No digit is a mark of another form of identifiers. -/
theorem not_mem_hexDigits {c : Char} (hc : ∀ d < 16, Json.Quoted.hexDigit d ≠ c) (width n : Nat) :
    c ∉ hexDigits width n := by
  induction width generalizing n with
  | zero => exact List.not_mem_nil
  | succ width ih =>
    rw [hexDigits, List.mem_append, List.mem_singleton, not_or]
    exact ⟨ih (n / 16), (hc _ (Nat.mod_lt n (by decide))).symm⟩

/-! ## Groups -/

theorem length_grouped {sizes : List Nat} {cs : List Char} (hne : sizes ≠ [])
    (h : cs.length = sizes.sum) : (grouped sizes cs).length + 1 = cs.length + sizes.length := by
  induction sizes generalizing cs with
  | nil => exact absurd rfl hne
  | cons size rest ih =>
    cases rest with
    | nil =>
      rw [List.sum_singleton] at h
      rw [grouped, List.length_take, List.length_singleton]
      omega
    | cons next rest =>
      rw [List.sum_cons] at h
      have hlength : (cs.drop size).length = (next :: rest).sum := by
        rw [List.length_drop]
        omega
      have hrest := ih (List.cons_ne_nil _ _) hlength
      rw [grouped, List.length_append, List.length_cons, List.length_take, List.length_cons]
      · omega
      · simp

/-- Groups are put together again. -/
theorem ungrouped?_grouped {sizes : List Nat} {cs : List Char} (h : cs.length = sizes.sum) :
    ungrouped? sizes (grouped sizes cs) = some cs := by
  induction sizes generalizing cs with
  | nil =>
    rw [List.sum_nil, List.length_eq_zero_iff] at h
    subst h
    rfl
  | cons size rest ih =>
    cases rest with
    | nil =>
      rw [List.sum_singleton] at h
      rw [grouped, ungrouped?, List.take_of_length_le h.le, if_pos (by simpa using h)]
    | cons next rest =>
      rw [List.sum_cons] at h
      have hsize : (cs.take size).length = size := by
        rw [List.length_take]
        omega
      have hlength : (cs.drop size).length = (next :: rest).sum := by
        rw [List.length_drop]
        omega
      have hrest := ih hlength
      have hgrouped : grouped (size :: next :: rest) cs =
          cs.take size ++ '-' :: grouped (next :: rest) (cs.drop size) := rfl
      rw [hgrouped, ungrouped?, List.drop_left' hsize, List.take_left' hsize]
      · show (ungrouped? (next :: rest) (grouped (next :: rest) (cs.drop size))).map _ = _
        rw [hrest, Option.map_some, List.take_append_drop]
      · simp

/-! ## Identifiers -/

theorem length_grouped_hexDigits (n : Nat) : (grouped groups (hexDigits 32 n)).length = 36 := by
  have hlength := length_hexDigits 32 n
  have hgrouped : (grouped groups (hexDigits 32 n)).length + 1 = _ :=
    length_grouped (by decide) hlength
  have hgroups : groups.length = 5 := rfl
  omega

theorem parsePlain?_grouped (r : RunId) :
    parsePlain? (grouped groups (hexDigits 32 r.bits.toNat)) = some r := by
  have hlength := length_hexDigits 32 r.bits.toNat
  have hbits : r.bits.toNat % 16 ^ 32 = r.bits.toNat := by
    refine Nat.mod_eq_of_lt (r.bits.isLt.trans_eq ?_)
    norm_num
  have hnumber := hexNumber?_hexDigits 32 r.bits.toNat
  rw [hbits] at hnumber
  have hgrouped : ungrouped? groups (grouped groups (hexDigits 32 r.bits.toNat)) = _ :=
    ungrouped?_grouped hlength
  have hforms := length_grouped_hexDigits r.bits.toNat
  generalize grouped groups (hexDigits 32 r.bits.toNat) = cs at hgrouped hforms
  generalize hexDigits 32 r.bits.toNat = digits at hgrouped hlength hnumber
  unfold parsePlain?
  rw [if_neg (by rw [hforms]; decide), hgrouped]
  show (if (digits.length != 32) = true then _ else _) = _
  rw [if_neg (by rw [hlength]; decide), hnumber]
  show some (RunId.mk (BitVec.ofNat 128 r.bits.toNat)) = some r
  rw [BitVec.ofNat_toNat, BitVec.setWidth_eq]

/-- No form with a mark of its own is as long as the hyphenated one, and none begins with a
    digit. -/
theorem parse?_render (r : RunId) : parse? r.render = some r := by
  have hlength := length_grouped_hexDigits r.bits.toNat
  have hplain := parsePlain?_grouped r
  unfold parse? render
  rw [String.toList_ofList]
  split
  · next rest hbrace =>
    have hmem : '\x7b' ∈ hexDigits 32 r.bits.toNat := by
      obtain ⟨d, ds, hdigits⟩ := List.exists_cons_of_length_pos
        (l := hexDigits 32 r.bits.toNat) (by rw [length_hexDigits]; decide)
      rw [hdigits] at hbrace ⊢
      have hfirst : d = '\x7b' := by
        injection hbrace
      rw [hfirst]
      exact List.mem_cons_self
    exact absurd hmem (not_mem_hexDigits (by decide) _ _)
  · rw [if_neg]
    · exact hplain
    · rw [hlength]
      simp

end LoadBench.RunId
