import Mathlib.Tactic
import Mathlib.Algebra.Order.Floor.Div
import LoadBench.Proofs.Plan.Mix

/-!
# The numbers of users of a ramp

The `k`-th of some stages runs a share of the target, rounded up. The product of the target and `k`
has to be a counter on the way to the share, so a ramp breaks down where the last product is none,
although all shares are counters, and also where there are more stages than a list can hold.

Results:
* `rampSize_eq`: the size of a stage is its share of the target, if the product is a counter.
* `rampSizes_eq`: the sizes of a ramp, or what breaks it down.
* `climbsTo_rampShares`: shares climb to the target.
* `rampSizes_climbs_iff`: a ramp has sizes that climb to its target if, and only if, the last
  product is a counter and a list can hold the stages.
* `not_rampSizes_climbs`: two stages whose shares are counters, and which break down.
-/

namespace LoadBench

/-! ## Shares rounded up -/

variable {total stages k : Nat}

theorem ceilDiv_eq_div_add (n : Nat) {d : Nat} (hd : 0 < d) :
    n ⌈/⌉ d = n / d + if n % d == 0 then 0 else 1 := by
  have hsplit := Nat.div_add_mod n d
  have hlt := Nat.mod_lt n hd
  have hupper : n ≤ d * (n ⌈/⌉ d) := le_smul_ceilDiv hd
  apply le_antisymm
  · rw [ceilDiv_le_iff_le_mul hd, Nat.mul_add]
    split_ifs with hzero
    · have : n % d = 0 := by simpa using hzero
      omega
    · omega
  · split_ifs with hzero
    · exact (Nat.div_le_div_right hupper).trans_eq (Nat.mul_div_cancel_left _ hd)
    · have hne : n % d ≠ 0 := by simpa using hzero
      -- the integer part of the share falls short by the remainder
      by_contra hle
      have hshare : n ⌈/⌉ d ≤ n / d := by omega
      rw [ceilDiv_le_iff_le_mul hd] at hshare
      omega

theorem ceilDiv_add_le (m n : Nat) {d : Nat} (hd : 0 < d) :
    (m + n) ⌈/⌉ d ≤ m ⌈/⌉ d + n ⌈/⌉ d := by
  rw [ceilDiv_le_iff_le_mul hd, Nat.mul_add]
  exact Nat.add_le_add (le_smul_ceilDiv hd) (le_smul_ceilDiv hd)

theorem mul_ceilDiv_self (n : Nat) {d : Nat} (hd : 0 < d) : n * d ⌈/⌉ d = n := by
  rw [Nat.mul_comm]
  exact smul_ceilDiv hd n

/-! ## Lists of results -/

section

variable {α β ε : Type} {f : α → Except ε β} {xs : List α}

/-- Where every entry has a result, so has the list. -/
theorem mapM_eq_ok {g : α → β} (h : ∀ x ∈ xs, f x = .ok (g x)) : xs.mapM f = .ok (xs.map g) := by
  induction xs with
  | nil => rfl
  | cons x xs ih =>
    obtain ⟨hx, hxs⟩ := List.forall_mem_cons.mp h
    rw [List.mapM_cons, hx, ih hxs]
    rfl

/-- Where some entry has an error and no entry has another one, the list has that error. -/
theorem mapM_eq_error {error : ε} (h : ∀ x ∈ xs, (∃ y, f x = .ok y) ∨ f x = .error error)
    (hsome : ∃ x ∈ xs, f x = .error error) : xs.mapM f = .error error := by
  induction xs with
  | nil => simp at hsome
  | cons x xs ih =>
    obtain ⟨hx, hxs⟩ := List.forall_mem_cons.mp h
    rw [List.mapM_cons]
    rcases hx with ⟨y, hy⟩ | herror
    · have hlater : ∃ x ∈ xs, f x = .error error := by
        obtain ⟨z, hz, hzerror⟩ := hsome
        rcases List.mem_cons.mp hz with rfl | hz
        · rw [hy] at hzerror
          cases hzerror
        · exact ⟨z, hz, hzerror⟩
      rw [hy, ih hxs hlater]
      rfl
    · rw [herror]
      rfl

end

/-! ## The sizes of a ramp -/

/-- The size of a stage is its share of the target, if the product is a counter. -/
theorem rampSize_eq (total k : Nat) (hstages : 0 < stages) :
    rampSize total stages k =
      if total * k < Counter.size then .ok (total * k ⌈/⌉ stages) else .error .product := by
  rw [rampSize, Counter.product]
  split_ifs
  · rw [ceilDiv_eq_div_add _ hstages]
    rfl
  · rfl

theorem rampSize_eq_ok_iff (hstages : 0 < stages) :
    rampSize total stages k = .ok (total * k ⌈/⌉ stages) ↔ total * k < Counter.size := by
  rw [rampSize_eq total k hstages]
  split_ifs with hfits <;> simp [hfits]

/-- The shares of some stages, each rounded up. -/
def rampShares (total stages : Nat) : List Nat :=
  (List.range stages).map fun k => total * (k + 1) ⌈/⌉ stages

theorem lt_rampLimit_iff : stages < rampLimit ↔ stages * 8 < 2 ^ 63 :=
  Counter.lt_listLimit_iff (by decide)

/-- A ramp has its shares, unless there are too many of them or the last product is no counter. -/
theorem rampSizes_eq (total : Nat) (hstages : 0 < stages) :
    rampSizes total stages =
      if stages * 8 < 2 ^ 63 then
        if total * stages < Counter.size then .ok (rampShares total stages) else .error .product
      else .error .capacity := by
  rw [rampSizes, if_congr lt_rampLimit_iff rfl rfl]
  split_ifs with hlimit hfits
  · refine mapM_eq_ok fun k hk => (rampSize_eq_ok_iff hstages).mpr ?_
    have hle : total * (k + 1) ≤ total * stages := Nat.mul_le_mul_left _ (List.mem_range.mp hk)
    omega
  · refine mapM_eq_error (fun k _ => ?_) ⟨stages - 1, List.mem_range.mpr (by omega), ?_⟩
    · rw [rampSize_eq _ _ hstages]
      split_ifs
      · exact .inl ⟨_, rfl⟩
      · exact .inr rfl
    · rw [Nat.sub_add_cancel hstages, rampSize_eq _ _ hstages, if_neg hfits]
  · rfl

theorem rampSizes_eq_ok_iff {sizes : List Nat} (hstages : 0 < stages) :
    rampSizes total stages = .ok sizes ↔
      (total * stages < Counter.size ∧ stages * 8 < 2 ^ 63) ∧ sizes = rampShares total stages := by
  rw [rampSizes_eq total hstages]
  split_ifs with hlimit hfits
  · exact ⟨fun h => ⟨⟨hfits, hlimit⟩, (Except.ok.inj h).symm⟩, fun h => congrArg _ h.2.symm⟩
  · exact ⟨nofun, fun h => absurd h.1.1 hfits⟩
  · exact ⟨nofun, fun h => absurd h.1.2 hlimit⟩

/-! ## Shares -/

theorem length_rampShares (total stages : Nat) : (rampShares total stages).length = stages := by
  rw [rampShares, List.length_map, List.length_range]

theorem getElem?_rampShares (total : Nat) (hk : k < stages) :
    (rampShares total stages)[k]? = some (total * (k + 1) ⌈/⌉ stages) := by
  rw [rampShares, List.getElem?_map, List.getElem?_range hk, Option.map_some]

theorem share_le (hstages : 0 < stages) (hk : k ≤ stages) : total * k ⌈/⌉ stages ≤ total :=
  calc total * k ⌈/⌉ stages
    _ ≤ total * stages ⌈/⌉ stages := (gc_mul_ceilDiv hstages).monotone_l (Nat.mul_le_mul_left _ hk)
    _ = total := mul_ceilDiv_self total hstages

/-- The sizes of a ramp that climbs to its target: there is one for each stage, which is the exact
    share of the target, rounded up. So they never fall, none exceeds the target, a target of at
    least one user is begun with one, no stage adds more than one share, and the last has the
    target. -/
structure ClimbsTo (sizes : List Nat) (total stages : Nat) : Prop where
  length : sizes.length = stages
  share : ∀ k < stages, sizes[k]? = some (total * (k + 1) ⌈/⌉ stages)
  ascending : sizes.Pairwise (· ≤ ·)
  bounded : ∀ n ∈ sizes, n ≤ total
  first : 1 ≤ total → ∃ n, sizes[0]? = some n ∧ 1 ≤ n
  rise : ∀ k m n, sizes[k]? = some m → sizes[k + 1]? = some n → n ≤ m + total ⌈/⌉ stages
  last : sizes.getLast? = some total

theorem climbsTo_rampShares (total : Nat) (hstages : 0 < stages) :
    ClimbsTo (rampShares total stages) total stages where
  length := length_rampShares total stages
  share k hk := getElem?_rampShares total hk
  ascending := by
    rw [rampShares, List.pairwise_map]
    refine List.pairwise_lt_range.imp fun {i j} hij => ?_
    exact (gc_mul_ceilDiv hstages).monotone_l (Nat.mul_le_mul_left _ (by omega))
  bounded n hn := by
    obtain ⟨k, hk, rfl⟩ := List.mem_map.mp hn
    exact share_le hstages (List.mem_range.mp hk)
  first hone := by
    refine ⟨_, getElem?_rampShares total hstages, ?_⟩
    by_contra hnone
    have hzero : total * (0 + 1) ⌈/⌉ stages ≤ 0 := by omega
    rw [ceilDiv_le_iff_le_mul hstages] at hzero
    omega
  rise k m n hm hn := by
    have hk : k + 1 < stages := by
      have := (List.getElem?_eq_some_iff.mp hn).1
      rwa [length_rampShares] at this
    rw [getElem?_rampShares total (by omega)] at hm
    rw [getElem?_rampShares total hk] at hn
    obtain rfl := Option.some.inj hm
    obtain rfl := Option.some.inj hn
    rw [Nat.mul_succ total (k + 1)]
    exact ceilDiv_add_le _ _ hstages
  last := by
    obtain ⟨n, rfl⟩ := Nat.exists_eq_succ_of_ne_zero hstages.ne'
    rw [List.getLast?_eq_getElem?, length_rampShares, Nat.succ_sub_one,
      getElem?_rampShares total (Nat.lt_succ_self n), mul_ceilDiv_self total hstages]

theorem Mix.length_of_planRamp {m : Mix} {mixes : List Mix} (hstages : 0 < stages)
    (h : m.planRamp stages = .ok mixes) : mixes.length = stages := by
  obtain ⟨-, sizes, hsizes, rfl⟩ := Mix.planRamp_eq_ok_iff.mp h
  obtain ⟨-, rfl⟩ := (rampSizes_eq_ok_iff hstages).mp hsizes
  rw [List.length_mapIdx, length_rampShares]

/-- A ramp whose products are counters and whose reports can be held is planned. -/
theorem Mix.exists_planRamp {m : Mix} (hstages : 0 < stages)
    (hproduct : m.users * stages < Counter.size) (hheld : stages < stageLimit) :
    ∃ mixes, m.planRamp stages = .ok mixes := by
  have hsizes : stages * 8 < 2 ^ 63 := by
    have := (Counter.lt_listLimit_iff (by decide)).mp hheld
    omega
  exact ⟨_, planRamp_eq_ok_iff.mpr
    ⟨hheld, _, (rampSizes_eq_ok_iff hstages).mpr ⟨⟨hproduct, hsizes⟩, rfl⟩, rfl⟩⟩

/-- The stages of a ramp have the numbers of users that are planned. -/
theorem Mix.map_users_planRamp {m : Mix} {mixes : List Mix} {sizes : List Nat}
    (h : m.planRamp stages = .ok mixes) (hsizes : rampSizes m.users stages = .ok sizes) :
    mixes.map (·.users) = sizes := by
  obtain ⟨-, planned, hplanned, rfl⟩ := Mix.planRamp_eq_ok_iff.mp h
  obtain rfl : planned = sizes := Except.ok.inj (hplanned.symm.trans hsizes)
  apply List.ext_getElem?
  intro k
  rw [List.getElem?_map, List.getElem?_mapIdx, Option.map_map]
  cases planned[k]? <;> rfl

/-- A ramp climbs to its target, every stage with its exact share, if, and only if, the product of
    the target and the number of stages is a counter and a list can hold the stages. It breaks down
    otherwise, although a single stage has its share if, and only if, its own product is a counter,
    and although every share is one. -/
theorem rampSizes_climbs_iff (hstages : 1 ≤ stages) :
    ((∃ sizes, rampSizes total stages = .ok sizes ∧ ClimbsTo sizes total stages) ↔
      total * stages < Counter.size ∧ stages * 8 < 2 ^ 63) ∧
    (∀ sizes, rampSizes total stages = .ok sizes → ClimbsTo sizes total stages) ∧
    (rampSizes total stages = .error .product ↔
      Counter.size ≤ total * stages ∧ stages * 8 < 2 ^ 63) ∧
    (rampSizes total stages = .error .capacity ↔ 2 ^ 63 ≤ stages * 8) ∧
    (∀ k ≤ stages, total * k ⌈/⌉ stages ≤ total ∧
      (rampSize total stages k = .ok (total * k ⌈/⌉ stages) ↔ total * k < Counter.size)) ∧
    ∀ (m : Mix) (mixes : List Mix), m.users = total → m.planRamp stages = .ok mixes →
      mixes.getLast?.map (·.users) = some total := by
  have hclimbs : ∀ sizes, rampSizes total stages = .ok sizes → ClimbsTo sizes total stages := by
    intro sizes hsizes
    obtain ⟨-, rfl⟩ := (rampSizes_eq_ok_iff hstages).mp hsizes
    exact climbsTo_rampShares total hstages
  refine ⟨⟨?_, fun hfits => ?_⟩, hclimbs, ?_, ?_, fun k hk => ?_, ?_⟩
  · rintro ⟨sizes, hsizes, -⟩
    exact ((rampSizes_eq_ok_iff hstages).mp hsizes).1
  · exact ⟨_, (rampSizes_eq_ok_iff hstages).mpr ⟨hfits, rfl⟩, climbsTo_rampShares total hstages⟩
  · rw [rampSizes_eq total hstages]
    split_ifs with hlimit hfits <;>
      simp only [reduceCtorEq, Except.error.injEq, true_iff, false_iff] <;> omega
  · rw [rampSizes_eq total hstages]
    split_ifs with hlimit hfits <;>
      simp only [reduceCtorEq, Except.error.injEq, true_iff, false_iff] <;> omega
  · exact ⟨share_le hstages hk, rampSize_eq_ok_iff hstages⟩
  · rintro m mixes rfl hmixes
    obtain ⟨-, sizes, hsizes, -⟩ := Mix.planRamp_eq_ok_iff.mp hmixes
    rw [← List.getLast?_map, Mix.map_users_planRamp hmixes hsizes]
    exact (hclimbs sizes hsizes).last

/-- A ramp that climbs to its target, and the first stage of one that breaks down later. -/
theorem rampSizes_climbs_sevenAndHuge :
    (1 ≤ 3 ∧ 7 * 3 < Counter.size ∧ rampSizes 7 3 = .ok [3, 5, 7] ∧ ClimbsTo [3, 5, 7] 7 3) ∧
    1 ≤ 2 ∧ rampSizes (2 ^ 63) 2 = .error .product ∧
      rampSize (2 ^ 63) 2 1 = .ok (2 ^ 63 * 1 ⌈/⌉ 2) := by
  obtain ⟨-, hseven, -⟩ := rampSizes_climbs_iff (show 1 ≤ 3 by decide)
  obtain ⟨-, -, hproduct, -, hshare, -⟩ := rampSizes_climbs_iff (show 1 ≤ 2 by decide)
  have hsizes : rampSizes 7 3 = .ok [3, 5, 7] := by decide
  exact ⟨⟨by decide, by decide, hsizes, hseven _ hsizes⟩, by decide,
    hproduct.mpr ⟨by decide, by decide⟩, (hshare 1 (by decide)).2.mpr (by decide)⟩

/-- Two stages up to `2 ^ 63` users: both shares are counters, but the product of the second is
    none, and the ramp breaks down. -/
theorem not_rampSizes_climbs :
    2 ^ 63 < Counter.size ∧ 2 < Counter.size ∧ rampShares (2 ^ 63) 2 = [2 ^ 62, 2 ^ 63] ∧
      rampSizes (2 ^ 63) 2 = .error .product ∧
      ¬ ∃ sizes, rampSizes (2 ^ 63) 2 = .ok sizes ∧ ClimbsTo sizes (2 ^ 63) 2 := by
  have hbroken : rampSizes (2 ^ 63) 2 = .error .product := by decide
  refine ⟨by decide, by decide, ?_, hbroken, ?_⟩
  · decide
  · rintro ⟨sizes, hsizes, -⟩
    rw [hbroken] at hsizes
    cases hsizes

end LoadBench
