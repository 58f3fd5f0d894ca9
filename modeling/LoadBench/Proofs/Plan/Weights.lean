import LoadBench.Proofs.Binary64.Products
import LoadBench.Proofs.Plan.Mix

/-!
# Weights and numbers of users

How often a weighted request comes, and how many users perform a weighted action, is a product of
binary64 numbers, brought to the nearest whole number and kept within the counters. Each step keeps
the order, so as long as the product is finite the count grows with the weight and with the users:
more users take none away from any action. A product that is not positive counts as none.

Results:
* `assignmentCount_eq`, `repeatCount_eq`: the counts as roundings of the exact value of the product.
* `assignmentCount_mono`, `repeatCount_mono`: they grow with both factors.
* `Mix.forall₂_shares`: no action loses users when a mix is scaled up.
* `counts_monotone`: all of this.
-/

namespace LoadBench

open Binary64

/-- The whole number nearest to a rational, a half going up, within the counters. -/
def Counter.nearest (q : ℚ) : Nat := min ⌊q + 1 / 2⌋₊ Counter.largest

theorem Counter.nearest_mono {q r : ℚ} (h : q ≤ r) : nearest q ≤ nearest r :=
  min_le_min_right _ (Nat.floor_mono (add_le_add_left h _))

variable {w w' b : Float} {u u' : Nat} {d : Dyad}

/-! ## Products -/

/-- What is nearest to a positive product grows with both factors as long as it is finite. -/
theorem exists_nearest_mul_le {x y x' y' : Float} (hpos : 0.0 < x * y) (hfactor : 0.0 ≤ x ∨ 0.0 ≤ y)
    (hx : x ≤ x') (hy : y ≤ y') (hfinite : (x' * y').isFinite = true) :
    ∃ d d', dyad? (x * y) = some d ∧ dyad? (x' * y') = some d' ∧
      Counter.nearest d.value ≤ Counter.nearest d'.value := by
  obtain ⟨hx0, hy0⟩ :=
    factors_of_mul_pos hpos hfactor (not_isNaN_of_le hx).1 (not_isNaN_of_le hy).1
  have hle := float_mul_le_mul hx0 hx hy0 hy hfinite
  have hnonneg := float_le_of_lt hpos
  obtain ⟨d, hd⟩ := exists_dyad? (isFinite_of_le hnonneg hle hfinite)
  obtain ⟨d', hd'⟩ := exists_dyad? hfinite
  exact ⟨d, d', hd, hd', Counter.nearest_mono ((le_iff_value_le hd hd' hnonneg).mp hle)⟩

/-- A number that is not positive is nearest to none. -/
theorem nearest_of_not_pos {x : Float} (hx : dyad? x = some d) (h : ¬ 0.0 < x) :
    Counter.nearest d.value = 0 := by
  have hzero : dyad? 0.0 = some ⟨false, 0, 0⟩ := by decide
  have hzeroValue : (Dyad.mk false 0 0).value = 0 := by simp [Dyad.value, Dyad.magnitude]
  have hnan := isNaN_of_isFinite (isFinite_of_dyad? hx)
  have hvalue : d.value ≤ 0 := by
    by_cases hnonneg : 0.0 ≤ x
    · have hle := float_le_of_not_lt hnan (by decide) h
      rwa [le_iff_value_le hx hzero hnonneg, hzeroValue] at hle
    · rw [le_iff_value_le hzero hx (by decide), hzeroValue] at hnonneg
      exact (not_le.mp hnonneg).le
  have hfloor : ⌊d.value + 1 / 2⌋₊ = 0 := by
    rw [Nat.floor_eq_zero]
    linarith
  rw [Counter.nearest, hfloor, Nat.zero_min]

/-! ## Users of an action -/

theorem assignmentCount_eq (h : dyad? (w * ofCount u) = some d) :
    assignmentCount w u = Counter.nearest d.value := by
  rw [assignmentCount, h]
  exact saturate_round d

theorem assignmentCount_of_not_pos (h : ¬ 0.0 < w * ofCount u) : assignmentCount w u = 0 := by
  cases hd : dyad? (w * ofCount u) with
  | none => rw [assignmentCount, hd]
  | some d => rw [assignmentCount_eq hd, nearest_of_not_pos hd h]

/-- The users of an action grow with its weight and with the number of users. -/
theorem assignmentCount_mono (hw : w ≤ w') (hu : u ≤ u')
    (hfinite : (w' * ofCount u').isFinite = true) :
    assignmentCount w u ≤ assignmentCount w' u' := by
  by_cases hpos : 0.0 < w * ofCount u
  · obtain ⟨d, d', hd, hd', hnearest⟩ := exists_nearest_mul_le hpos (.inr (ofCount_nonneg u)) hw
      (ofCount_le_ofCount hu) hfinite
    rwa [assignmentCount_eq hd, assignmentCount_eq hd']
  · rw [assignmentCount_of_not_pos hpos]
    exact Nat.zero_le _

/-! ## Repetitions of a request -/

theorem repeatCount_eq (h : dyad? (w * b) = some d) :
    repeatCount w b = max 1 (Counter.nearest d.value) := by
  rw [repeatCount, h]
  exact congrArg (max 1) (saturate_round d)

theorem one_le_repeatCount (w b : Float) : 1 ≤ repeatCount w b := by
  unfold repeatCount
  split
  · exact le_max_left _ _
  · exact le_rfl

theorem repeatCount_of_not_pos (h : ¬ 0.0 < w * b) : repeatCount w b = 1 := by
  cases hd : dyad? (w * b) with
  | none => rw [repeatCount, hd]
  | some d => rw [repeatCount_eq hd, nearest_of_not_pos hd h, Nat.max_zero]

/-- The repetitions of a request grow with its weight, if the weight or the baseline is not
    negative. -/
theorem repeatCount_mono (hw : w ≤ w') (hfactor : 0.0 ≤ w ∨ 0.0 ≤ b)
    (hfinite : (w' * b).isFinite = true) : repeatCount w b ≤ repeatCount w' b := by
  by_cases hpos : 0.0 < w * b
  · have hb := isNaN_of_isFinite (isFinite_of_isFinite_mul hfinite).2
    obtain ⟨d, d', hd, hd', hnearest⟩ :=
      exists_nearest_mul_le hpos hfactor hw (float_le_refl hb) hfinite
    rw [repeatCount_eq hd, repeatCount_eq hd']
    exact max_le_max_left 1 hnearest
  · rw [repeatCount_of_not_pos hpos]
    exact one_le_repeatCount w' b

/-! ## Mixes of more users -/

namespace Mix

/-- How many users perform each of the actions. -/
def shares (m : Mix) : List Nat := m.actions.map fun a => assignmentCount a.weight m.users

theorem realizedUsers_eq_sum (m : Mix) : m.realizedUsers = m.shares.sum := rfl

/-- No action loses users when there are more of them. -/
theorem forall₂_shares (m : Mix) (name name' : String) (hu : u ≤ u')
    (hfinite : ∀ a ∈ m.actions, (a.weight * ofCount u').isFinite = true) :
    List.Forall₂ (· ≤ ·) (m.scaled name u).shares (m.scaled name' u').shares := by
  unfold shares scaled
  rw [List.forall₂_map_left_iff, List.forall₂_map_right_iff, List.forall₂_same]
  intro a ha
  have hweight := isFinite_of_isFinite_mul (hfinite a ha)
  have hnan := isNaN_of_isFinite hweight.1
  exact assignmentCount_mono (float_le_refl hnan) hu (hfinite a ha)

/-- The users of a mix do not become fewer. -/
theorem realizedUsers_mono (m : Mix) (name name' : String) (hu : u ≤ u')
    (hfinite : ∀ a ∈ m.actions, (a.weight * ofCount u').isFinite = true) :
    (m.scaled name u).realizedUsers ≤ (m.scaled name' u').realizedUsers := by
  rw [realizedUsers_eq_sum, realizedUsers_eq_sum]
  exact (m.forall₂_shares name name' hu hfinite).sum_le_sum

end Mix

/-- Counts grow with weights and users as long as the product is finite. Users of an action and
    repetitions of a request are the nearest whole numbers within the counters, a request comes at
    least once whatever its weight is, and a mix of more users takes none away from any of its
    actions. -/
theorem counts_monotone :
    (∀ {w w' : Float} {u u' : Nat}, w ≤ w' → u ≤ u' → (w' * ofCount u').isFinite = true →
      assignmentCount w u ≤ assignmentCount w' u') ∧
    (∀ {w : Float} {u : Nat} {d : Dyad}, dyad? (w * ofCount u) = some d →
      assignmentCount w u = Counter.nearest d.value) ∧
    (∀ {w w' b : Float}, w ≤ w' → (0.0 ≤ w ∨ 0.0 ≤ b) → (w' * b).isFinite = true →
      repeatCount w b ≤ repeatCount w' b) ∧
    (∀ {w b : Float} {d : Dyad}, dyad? (w * b) = some d →
      repeatCount w b = max 1 (Counter.nearest d.value)) ∧
    (∀ w b : Float, 1 ≤ repeatCount w b) ∧
    ∀ (m : Mix) (name name' : String) (u u' : Nat), u ≤ u' →
      (∀ a ∈ m.actions, (a.weight * ofCount u').isFinite = true) →
      List.Forall₂ (· ≤ ·) (m.scaled name u).shares (m.scaled name' u').shares ∧
      ((m.scaled name' u').roster.length < Counter.size →
        (m.scaled name u).realizedUsers ≤ (m.scaled name' u').realizedUsers) :=
  ⟨assignmentCount_mono, assignmentCount_eq, repeatCount_mono, repeatCount_eq, one_le_repeatCount,
    fun m name name' _ _ hu hfinite =>
      ⟨m.forall₂_shares name name' hu hfinite,
        fun _ => m.realizedUsers_mono name name' hu hfinite⟩⟩

/-- Two actions in unequal shares. -/
def twoToOne : Mix where
  name := "two to one"
  description := ""
  users := 6
  actions := [⟨⟨"read", "", [⟨"list", "", []⟩]⟩, 0.5⟩, ⟨⟨"write", "", [⟨"form", "", []⟩]⟩, 0.25⟩]

theorem counts_monotone_twoToOne :
    (assignmentCount 0.25 10 ≤ assignmentCount 2e19 11 ∧
      assignmentCount 2e19 11 = Counter.largest) ∧
    (repeatCount (-1.0) pageBaseline ≤ repeatCount 0.25 pageBaseline ∧
      repeatCount 0.25 pageBaseline = 3) ∧
    (List.Forall₂ (· ≤ ·) (twoToOne.scaled "few" 6).shares (twoToOne.scaled "many" 10).shares ∧
      (twoToOne.scaled "few" 6).realizedUsers ≤ (twoToOne.scaled "many" 10).realizedUsers) := by
  obtain ⟨hassigned, -, hrepeated, -, -, hmix⟩ := counts_monotone
  obtain ⟨hshares, hrealized⟩ := hmix twoToOne "few" "many" 6 10 (by decide) (by decide)
  exact ⟨⟨hassigned (by decide) (by decide) (by decide), by decide⟩,
    ⟨hrepeated (by decide) (.inr (by decide)) (by decide), by decide⟩,
    hshares, hrealized (by decide)⟩

/-- Beyond the finite products the users are gone. -/
example : assignmentCount 1e308 1 = Counter.largest ∧ assignmentCount 1e308 2 = 0 := by
  decide +kernel

end LoadBench
