import Mathlib.Tactic
import LoadBench.Plan.Stages

/-!
# Pages and mixes

Results:
* `Page.length_calls`: the calls of a page are as many as its size says.
* `Page.calls?_eq_some_iff`, `Page.calls?_eq_none_iff`: which pages can be held.
* `Counter.lt_listLimit_iff`: which lists can be held.
* `Mix.realizedUsers_eq`: the users that the weights call for are those of the roster.
* `Mix.validate_eq_ok_iff`: which mixes are accepted.
* `Mix.planRamp_eq_ok_iff`: the stages of a ramp that does not break down.
* `Mix.validate_ramp`, `Mix.validate_waves`: the stages of a mix are accepted iff the mix is.
-/

namespace LoadBench

theorem Counter.total_eq_sum (ns : List Nat) : Counter.total ns = ns.sum := rfl

/-- A list can be held if its entries take less than `2 ^ 63` bytes. -/
theorem Counter.lt_listLimit_iff {bytes n : Nat} (h : 0 < bytes) :
    n < Counter.listLimit bytes ↔ n * bytes < 2 ^ 63 := by
  rw [listLimit, ← Nat.succ_le_iff, Nat.le_div_iff_mul_le h, Nat.succ_mul]
  show n * bytes + bytes ≤ 2 ^ 63 + bytes - 1 ↔ _
  omega

namespace Page

theorem length_calls (p : Page) : p.calls.length = p.size := by
  simp [calls, size, Counter.total_eq_sum, List.length_flatMap]

theorem calls?_eq_some_iff {p : Page} {calls : List Call} :
    p.calls? = some calls ↔ p.size < sizeLimit ∧ calls = p.calls := by
  rw [calls?]
  split_ifs with h <;> simp [h, eq_comm]

theorem calls?_eq_none_iff {p : Page} : p.calls? = none ↔ sizeLimit ≤ p.size := by
  rw [calls?]
  split_ifs with h <;> simp [h, Nat.not_lt.mp, Nat.not_le.mpr]

theorem length_of_calls? {p : Page} {calls : List Call} (h : p.calls? = some calls) :
    calls.length = p.size := by
  rw [(calls?_eq_some_iff.mp h).2, length_calls]

end Page

namespace Mix

variable {m stage : Mix}

/-! ## Users -/

theorem length_roster (m : Mix) :
    m.roster.length = Counter.total (m.actions.map fun w => assignmentCount w.weight m.users) := by
  simp [roster, List.length_flatMap, Counter.total_eq_sum]

theorem realizedUsers_eq (m : Mix) : m.realizedUsers = m.roster.length := (length_roster m).symm

theorem isSome_roster?_iff : m.roster?.isSome = true ↔ m.roster.length < rosterLimit := by
  rw [roster?, realizedUsers_eq]
  split_ifs with h <;> simp [h]

/-! ## Which mixes are accepted -/

theorem validate_eq_ok_iff : m.validate = .ok () ↔
    m.actions ≠ [] ∧ (∀ w ∈ m.actions, isUsableWeight w.weight = true) ∧
      ∀ w ∈ m.actions, w.item.pages ≠ [] := by
  rw [validate]
  split_ifs with hnone hweight
  · simp [List.isEmpty_iff.mp hnone]
  · obtain ⟨w, hw, hbad⟩ := List.any_eq_true.mp hweight
    refine ⟨by simp, fun h => ?_⟩
    rw [h.2.1 w hw] at hbad
    cases hbad
  · have hsome : m.actions ≠ [] := by simpa using hnone
    have husable : ∀ w ∈ m.actions, isUsableWeight w.weight = true := by simpa using hweight
    cases hpages : m.actions.find? (·.item.pages.isEmpty) with
    | none =>
      have hall := List.find?_eq_none.mp hpages
      exact ⟨fun _ => ⟨hsome, husable, by simpa using hall⟩, fun _ => rfl⟩
    | some w =>
      have hempty := List.find?_some hpages
      refine ⟨by simp, fun h => ?_⟩
      exact absurd (List.isEmpty_iff.mp hempty) (h.2.2 w (List.mem_of_find?_eq_some hpages))

/-- The name and the number of users play no part in whether a mix is accepted. -/
theorem validate_scaled (m : Mix) (name : String) (users : Nat) :
    (m.scaled name users).validate = .ok () ↔ m.validate = .ok () := by
  rw [validate_eq_ok_iff, validate_eq_ok_iff]
  rfl

/-! ## The stages of a ramp -/

/-- A ramp that does not break down has sizes and a mix for each of them. -/
theorem planRamp_eq_ok_iff {stages : Nat} {mixes : List Mix} :
    m.planRamp stages = .ok mixes ↔ stages < stageLimit ∧
      ∃ sizes, rampSizes m.users stages = .ok sizes ∧
        mixes = sizes.mapIdx fun k users =>
          m.scaled (m.name ++ s!" - stage {k + 1}/{stages} ({users} users)") users := by
  rw [planRamp]
  cases hsizes : rampSizes m.users stages with
  | error cause => simp [Except.bind, bind]
  | ok sizes =>
    simp only [Except.bind, bind]
    split_ifs with hlimit
    · simp [hlimit, Except.pure, pure, eq_comm]
    · simp [hlimit]

theorem ramp_of_planRamp {stages : Nat} {mixes : List Mix} (h : m.planRamp stages = .ok mixes) :
    m.ramp stages = mixes := by
  rw [ramp, h]

theorem exists_scaled_of_mem_ramp {stages : Nat} (h : stage ∈ m.ramp stages) :
    ∃ name users, stage = m.scaled name users := by
  cases hplan : m.planRamp stages with
  | error cause =>
    rw [ramp, hplan] at h
    cases h
  | ok mixes =>
    rw [ramp_of_planRamp hplan] at h
    obtain ⟨-, sizes, -, rfl⟩ := planRamp_eq_ok_iff.mp hplan
    obtain ⟨k, hk, rfl⟩ := List.mem_mapIdx.mp h
    exact ⟨_, _, rfl⟩

theorem validate_ramp {stages : Nat} (h : stage ∈ m.ramp stages) :
    stage.validate = .ok () ↔ m.validate = .ok () := by
  obtain ⟨name, users, rfl⟩ := exists_scaled_of_mem_ramp h
  exact validate_scaled m name users

theorem validate_waves {phases : List BurstPhase} (h : stage ∈ m.waves phases) :
    stage.validate = .ok () ↔ m.validate = .ok () := by
  obtain ⟨p, -, rfl⟩ := List.mem_map.mp h
  exact validate_scaled m _ _

end Mix

end LoadBench
