import Mathlib.Data.List.Induction
import Mathlib.Data.List.Perm.Basic
import Mathlib.Tactic
import LoadBench.Proofs.Run.InTurn
import LoadBench.Proofs.Run.Moves

/-!
# Batches settle with the results in order

The calls of a batch are launched, end and are joined in any order. However that goes, a batch comes
to its end, every call is made once, and what is collected are the results in the order of the
calls; a crash leaves no results, but only after every call is joined.

Results:
* `Batch.Sound.results?_eq`: the results of a batch whose calls are joined are those in turn.
* `Batch.history`: the moves of every call are launch, end and join, each once and in this order.
* `Batch.exists_step`, `Batch.remaining_step`: a batch goes on until all calls are joined, and ends.
* `Batch.exists_play_of_orders`: every order of ends and every order of joins is possible.
* `Batch.settles`: all of this for the calls of a list and a service that answers them.
-/

namespace LoadBench

/-! ## Moves by position and phase -/

/-- The number of moves that a call in a phase has behind it. -/
def CallPhase.rank : CallPhase → Nat
  | waiting => 0
  | flying => 1
  | ended => 2
  | joined => 3

namespace BatchMove

/-- The call that the move is about. -/
def position : BatchMove → Nat
  | launch i => i
  | finish i => i
  | join i => i

/-- The phase that the call must be in. -/
def source : BatchMove → CallPhase
  | launch _ => .waiting
  | finish _ => .flying
  | join _ => .ended

/-- The phase that the call comes into. -/
def target : BatchMove → CallPhase
  | launch _ => .flying
  | finish _ => .ended
  | join _ => .joined

theorem rank_target (m : BatchMove) : m.target.rank = m.source.rank + 1 := by
  cases m <;> rfl

/-- The position of the call that the move makes. -/
def launched? : BatchMove → Option Nat
  | launch i => some i
  | _ => none

/-- The call that ends by the move. -/
def finished? : BatchMove → Option Nat
  | finish i => some i
  | _ => none

/-- The call that is joined by the move. -/
def joined? : BatchMove → Option Nat
  | join i => some i
  | _ => none

end BatchMove

namespace Batch

variable {ends : Nat → CallEnd} {size : Nat} {b b' : Batch} {m : BatchMove}

/-- Some moves of a batch one after the other. -/
def play? (ends : Nat → CallEnd) (b : Batch) (moves : List BatchMove) : Option Batch :=
  moves.foldlM (step? ends) b

/-- The batch after a move. -/
def moved (ends : Nat → CallEnd) (b : Batch) (m : BatchMove) : Batch :=
  let b := { b with phases := b.phases.set m.position m.target }
  match m with
  | .join i => b.collect i (ends i)
  | _ => b

/-- A move takes the call at its position out of one phase into the next one. -/
theorem step?_eq_some_iff :
    b.step? ends m = some b' ↔
      b.phases[m.position]? = some m.source ∧ b' = b.moved ends m := by
  cases m <;>
    simp [step?, advance?, moved, BatchMove.position, BatchMove.source, BatchMove.target, eq_comm]

@[simp] theorem collect_phases (b : Batch) (i : Nat) (e : CallEnd) :
    (b.collect i e).phases = b.phases := by
  cases e <;> rfl

/-- The result of a joined call, if there is one, goes into its slot. -/
theorem moved_join_slots {i : Nat} (h : b.slots[i]? = some none) :
    (b.moved ends (.join i)).slots = b.slots.set i (ends i).result? := by
  simp only [moved]
  cases ends i with
  | returned r => rfl
  | crashed =>
    obtain ⟨hlt, hnone⟩ := List.getElem?_eq_some_iff.mp h
    rw [CallEnd.result?, ← hnone, List.set_getElem_self]
    rfl

theorem moved_join_broken (i : Nat) :
    (b.moved ends (.join i)).broken = true ↔ b.broken = true ∨ ends i = .crashed := by
  simp only [moved]
  cases ends i <;> simp [collect]

@[simp] theorem moved_phases :
    (b.moved ends m).phases = b.phases.set m.position m.target := by
  cases m <;> simp [moved]

theorem step?_phase (h : b.step? ends m = some b') (i : Nat) :
    b'.phases[i]? = if m.position = i then some m.target else b.phases[i]? := by
  obtain ⟨hphase, rfl⟩ := step?_eq_some_iff.mp h
  have hlt := (List.getElem?_eq_some_iff.mp hphase).1
  rw [moved_phases, List.getElem?_set]
  split_ifs <;> rfl

/-! ## What is collected -/

/-- A batch of some size has taken note of exactly the calls that are joined. -/
structure Sound (ends : Nat → CallEnd) (size : Nat) (b : Batch) : Prop where
  length_phases : b.phases.length = size
  length_slots : b.slots.length = size
  slot : ∀ i < size,
    b.slots[i]? = some (if b.phases[i]? = some .joined then (ends i).result? else none)
  broken : b.broken = true ↔ ∃ i, b.phases[i]? = some .joined ∧ ends i = .crashed

theorem sound_start (ends : Nat → CallEnd) (size : Nat) : (start size).Sound ends size where
  length_phases := by simp [start]
  length_slots := by simp [start]
  slot i hi := by simp [start, hi]
  broken := by
    simp only [start, Bool.false_eq_true, false_iff, not_exists, not_and]
    intro i hi
    rw [List.getElem?_replicate] at hi
    split_ifs at hi
    cases hi

/-- A move before the join leaves what is collected as it is. -/
theorem Sound.pass (hb : b.Sound ends size) (h : b.step? ends m = some b')
    (hm : m.isJoin = false) : b'.Sound ends size := by
  have hphase := step?_phase h
  obtain ⟨hsource, rfl⟩ := step?_eq_some_iff.mp h
  have hkeep : (b.moved ends m).slots = b.slots ∧ (b.moved ends m).broken = b.broken := by
    cases m <;> simp_all [moved, BatchMove.isJoin]
  have hjoined : ∀ i : Nat, (b.moved ends m).phases[i]? = some CallPhase.joined ↔
      b.phases[i]? = some CallPhase.joined := by
    intro i
    rw [hphase]
    split_ifs with hi
    · rw [← hi, hsource]
      cases m <;> simp_all [BatchMove.source, BatchMove.target, BatchMove.isJoin]
    · rfl
  refine ⟨by simp [hb.length_phases], by rw [hkeep.1, hb.length_slots], ?_, ?_⟩
  · intro i hi
    simp only [hkeep.1, hb.slot i hi, hjoined]
  · simp only [hkeep.2, hb.broken, hjoined]

/-- A join takes note of how its call ended. -/
theorem Sound.join {i : Nat} (hb : b.Sound ends size) (h : b.step? ends (.join i) = some b') :
    b'.Sound ends size := by
  have hphase : ∀ j, b'.phases[j]? = if i = j then some .joined else b.phases[j]? := step?_phase h
  obtain ⟨hended, rfl⟩ := step?_eq_some_iff.mp h
  replace hended : b.phases[i]? = some .ended := hended
  have hlt : i < size := hb.length_phases ▸ (List.getElem?_eq_some_iff.mp hended).1
  have hempty : b.slots[i]? = some none := by simpa [hended] using hb.slot i hlt
  have hslots : (b.moved ends (.join i)).slots = b.slots.set i (ends i).result? :=
    moved_join_slots hempty
  refine ⟨by simp [hb.length_phases], by rw [hslots, List.length_set, hb.length_slots], ?_, ?_⟩
  · intro j hj
    rw [hslots, List.getElem?_set, hphase]
    by_cases hij : i = j
    · subst hij; simp [hb.length_slots, hlt]
    · simp [hij, hb.slot j hj]
  · rw [moved_join_broken, hb.broken]
    constructor
    · rintro (⟨j, hj, hcrash⟩ | hcrash)
      · exact ⟨j, by rw [hphase, hj, ite_self], hcrash⟩
      · exact ⟨i, by rw [hphase, if_pos rfl], hcrash⟩
    · rintro ⟨j, hj, hcrash⟩
      by_cases hij : i = j
      · subst hij; exact .inr hcrash
      · rw [hphase, if_neg hij] at hj
        exact .inl ⟨j, hj, hcrash⟩

theorem Sound.step (hb : b.Sound ends size) (h : b.step? ends m = some b') :
    b'.Sound ends size := by
  cases m with
  | join i => exact hb.join h
  | launch i => exact hb.pass h rfl
  | finish i => exact hb.pass h rfl

theorem Sound.play {moves : List BatchMove} (hb : b.Sound ends size)
    (h : b.play? ends moves = some b') : b'.Sound ends size :=
  foldlM_keeps (fun _ _ _ hs hstep => Sound.step hs hstep) hb h

theorem isDone_iff : b.isDone = true ↔ ∀ i < b.phases.length, b.phases[i]? = some .joined := by
  rw [isDone, List.all_eq_true]
  constructor
  · intro h i hi
    rw [List.getElem?_eq_getElem hi, Option.some_inj]
    simpa using h _ (List.getElem_mem hi)
  · intro h p hp
    obtain ⟨i, hi, rfl⟩ := List.getElem_of_mem hp
    have := h i hi
    rw [List.getElem?_eq_getElem hi, Option.some_inj] at this
    simpa using this

/-- The results of a batch whose calls are joined are those of the calls made in turn. -/
theorem Sound.results?_eq (hb : b.Sound ends size) (hdone : b.isDone = true) :
    b.results? = resultsInTurn size ends := by
  have hjoined : ∀ i < size, b.phases[i]? = some .joined := by
    simpa [hb.length_phases] using isDone_iff.mp hdone
  rw [results?]
  split_ifs with hbroken
  · obtain ⟨i, hi, hcrash⟩ := hb.broken.mp hbroken
    have hlt : i < size := hb.length_phases ▸ (List.getElem?_eq_some_iff.mp hi).1
    exact (resultsInTurn_eq_none_iff.mpr ⟨i, hlt, hcrash⟩).symm
  · cases hturn : resultsInTurn size ends with
    | none =>
      obtain ⟨i, hi, hcrash⟩ := resultsInTurn_eq_none_iff.mp hturn
      exact absurd (hb.broken.mpr ⟨i, hjoined i hi, hcrash⟩) hbroken
    | some results =>
      have hslots : b.slots = results.map some := by
        apply List.ext_getElem?
        intro i
        by_cases hi : i < size
        · obtain ⟨r, hr, hat⟩ := getElem?_of_resultsInTurn hturn hi
          simp [hb.slot i hi, hjoined i hi, hr, hat, CallEnd.result?]
        · rw [List.getElem?_eq_none (by rw [hb.length_slots]; omega), List.getElem?_eq_none]
          rw [List.length_map, length_of_resultsInTurn hturn]
          omega
      rw [hslots, List.filterMap_map]
      simp

/-! ## How a batch goes -/

/-- The number of moves that the call at a position has behind it. -/
def rankAt (b : Batch) (i : Nat) : Nat := (b.phases[i]?.map CallPhase.rank).getD 0

@[simp] theorem rankAt_start (size i : Nat) : (start size).rankAt i = 0 := by
  simp only [rankAt, start, List.getElem?_replicate]
  split_ifs <;> rfl

theorem rankAt_position (h : b.step? ends m = some b') : b.rankAt m.position = m.source.rank := by
  rw [rankAt, (step?_eq_some_iff.mp h).1]
  rfl

/-- A move is behind the call that it is about, and changes nothing for the other calls. -/
theorem rankAt_step (h : b.step? ends m = some b') (i : Nat) :
    b'.rankAt i = if m.position = i then m.target.rank else b.rankAt i := by
  rw [rankAt, step?_phase h i]
  split_ifs <;> rfl

theorem rankAt_eq_zero {i : Nat} (hi : b.phases.length ≤ i) : b.rankAt i = 0 := by
  rw [rankAt, List.getElem?_eq_none hi]
  rfl

/-- The moves of a call are its launch, its end and its join, as far as it has come. -/
theorem history {moves : List BatchMove} (h : (start size).play? ends moves = some b) (i : Nat) :
    moves.filter (·.position == i) =
      [BatchMove.launch i, .finish i, .join i].take (b.rankAt i) := by
  refine foldlM_history (P := fun moves b => ∀ i, moves.filter (·.position == i) =
    [BatchMove.launch i, .finish i, .join i].take (b.rankAt i)) ?_ ?_ h i
  · intro i
    rw [rankAt_start]
    rfl
  · intro moves b m b' ih hstep i
    rw [List.filter_append, ih i]
    -- the call that moves has one more move behind it, every other one as many as before
    by_cases hi : m.position = i
    · have hafter := rankAt_step hstep i
      rw [if_pos hi] at hafter
      subst hi
      rw [rankAt_position hstep, hafter]
      cases m <;> simp [BatchMove.source, BatchMove.target, BatchMove.position, CallPhase.rank]
    · have hsame := rankAt_step hstep i
      rw [if_neg hi] at hsame
      rw [hsame, List.filter_cons_of_neg (by simpa using hi), List.filter_nil, List.append_nil]

/-- The number of moves that a batch has still to make. -/
def remaining (b : Batch) : Nat := (b.phases.map fun p => 3 - p.rank).sum

@[simp] theorem remaining_start (size : Nat) : (start size).remaining = 3 * size := by
  simp [remaining, start, CallPhase.rank, Nat.mul_comm]

theorem remaining_step (h : b.step? ends m = some b') : b'.remaining + 1 = b.remaining := by
  obtain ⟨hsource, rfl⟩ := step?_eq_some_iff.mp h
  have := sum_map_set hsource (fun p => 3 - p.rank) m.target
  have hrank := m.rank_target
  have hle : m.target.rank ≤ 3 := by cases m <;> simp [BatchMove.target, CallPhase.rank]
  rw [remaining, moved_phases, remaining]
  omega

/-- A batch goes on until all its calls are joined. -/
theorem exists_step (ends : Nat → CallEnd) (h : b.isDone = false) :
    ∃ m b', b.step? ends m = some b' := by
  obtain ⟨p, hp, hne⟩ : ∃ p ∈ b.phases, p ≠ CallPhase.joined := by
    by_contra hall
    push Not at hall
    rw [isDone, List.all_eq_false] at h
    obtain ⟨p, hp, hne⟩ := h
    exact hne (by simp [hall p hp])
  obtain ⟨i, hi, hat⟩ := List.getElem_of_mem hp
  have hphase : b.phases[i]? = some p := by rw [List.getElem?_eq_getElem hi, hat]
  cases p with
  | waiting => exact ⟨.launch i, _, step?_eq_some_iff.mpr ⟨hphase, rfl⟩⟩
  | flying => exact ⟨.finish i, _, step?_eq_some_iff.mpr ⟨hphase, rfl⟩⟩
  | ended => exact ⟨.join i, _, step?_eq_some_iff.mpr ⟨hphase, rfl⟩⟩
  | joined => exact absurd rfl hne

theorem length_phases_of_play {moves : List BatchMove}
    (h : (start size).play? ends moves = some b) : b.phases.length = size :=
  ((sound_start ends size).play h).length_phases

theorem rankAt_eq_three_iff (i : Nat) : b.rankAt i = 3 ↔ b.phases[i]? = some .joined := by
  rw [rankAt]
  cases b.phases[i]? with
  | none => simp
  | some p => cases p <;> simp [CallPhase.rank]

theorem rankAt_le (i : Nat) : b.rankAt i ≤ 3 := by
  rw [rankAt]
  cases b.phases[i]? with
  | none => simp
  | some p => cases p <;> simp [CallPhase.rank]

theorem rankAt_of_isDone (hdone : b.isDone = true) {i : Nat} (hi : i < b.phases.length) :
    b.rankAt i = 3 :=
  (rankAt_eq_three_iff i).mpr (isDone_iff.mp hdone i hi)

theorem join_mem_iff {moves : List BatchMove} (h : (start size).play? ends moves = some b)
    (i : Nat) : BatchMove.join i ∈ moves ↔ b.phases[i]? = some .joined := by
  have hmem : BatchMove.join i ∈ moves ↔ BatchMove.join i ∈ moves.filter (·.position == i) := by
    simp [BatchMove.position]
  rw [hmem, history h, ← rankAt_eq_three_iff]
  have := rankAt_le (b := b) i
  interval_cases b.rankAt i <;> simp

/-- A batch is done when every one of its calls is joined, whichever of them crashed. -/
theorem isDone_iff_join_mem {moves : List BatchMove}
    (h : (start size).play? ends moves = some b) :
    b.isDone = true ↔ ∀ i < size, BatchMove.join i ∈ moves := by
  simp only [isDone_iff, length_phases_of_play h, join_mem_iff h]

theorem count_launched (moves : List BatchMove) (i : Nat) :
    (moves.filterMap BatchMove.launched?).count i = moves.count (.launch i) := by
  induction moves with
  | nil => rfl
  | cons m moves ih =>
    cases m <;> simp [List.filterMap_cons, BatchMove.launched?, ih, List.count_cons]

/-- When a batch is done, the positions at which calls were made are all of them, once each. -/
theorem launched_perm {moves : List BatchMove} (h : (start size).play? ends moves = some b)
    (hdone : b.isDone = true) :
    (moves.filterMap BatchMove.launched?).Perm (List.range size) := by
  rw [List.perm_iff_count]
  intro i
  rw [count_launched, ← List.count_filter (p := (·.position == i)) (by simp [BatchMove.position]),
    history h]
  by_cases hi : i < size
  · rw [rankAt_of_isDone hdone (length_phases_of_play h ▸ hi), List.count_range, if_pos hi]
    simp
  · rw [rankAt_eq_zero (by rw [length_phases_of_play h]; omega), List.count_range, if_neg hi]
    rfl

/-! ## Every order is possible -/

/-- Calls in one phase can be taken into the next one in any order, and the others stay. -/
theorem exists_play_map (ends : Nat → CallEnd) (move : Nat → BatchMove)
    (hposition : ∀ i, (move i).position = i) {order : List Nat} (hnodup : order.Nodup) {b : Batch}
    (hsource : ∀ i ∈ order, b.phases[i]? = some (move i).source) :
    ∃ b', b.play? ends (order.map move) = some b' ∧
      (∀ i ∈ order, b'.phases[i]? = some (move i).target) ∧
      ∀ i ∉ order, b'.phases[i]? = b.phases[i]? := by
  induction order generalizing b with
  | nil => exact ⟨b, rfl, by simp, by simp⟩
  | cons i order ih =>
    obtain ⟨hi, hnodup⟩ := List.nodup_cons.mp hnodup
    have hstep : b.step? ends (move i) = some (b.moved ends (move i)) :=
      step?_eq_some_iff.mpr ⟨by rw [hposition]; exact hsource i List.mem_cons_self, rfl⟩
    have hmoved := step?_phase hstep
    simp only [hposition] at hmoved
    obtain ⟨b', hplay, htarget, hkeep⟩ := ih hnodup (b := b.moved ends (move i)) fun j hj => by
      have hne : i ≠ j := fun h => hi (h ▸ hj)
      rw [hmoved, if_neg hne]
      exact hsource j (List.mem_cons_of_mem _ hj)
    refine ⟨b', foldlM_cons_some.mpr ⟨_, hstep, hplay⟩, ?_, ?_⟩
    · intro j hj
      rcases List.mem_cons.mp hj with rfl | hj
      · rw [hkeep _ hi, hmoved, if_pos rfl]
      · exact htarget j hj
    · intro j hj
      obtain ⟨hne, hj⟩ := not_or.mp (mt List.mem_cons.mpr hj)
      rw [hkeep j hj, hmoved, if_neg (Ne.symm hne)]

/-- The calls of a batch can end in any order and be joined in any order. -/
theorem exists_play_of_orders (ends : Nat → CallEnd) {size : Nat} {finishes joins : List Nat}
    (hfinishes : finishes.Perm (List.range size)) (hjoins : joins.Perm (List.range size)) :
    ∃ moves b, (start size).play? ends moves = some b ∧ b.isDone = true ∧
      moves.filterMap BatchMove.finished? = finishes ∧
      moves.filterMap BatchMove.joined? = joins := by
  have hmem : ∀ {order : List Nat}, order.Perm (List.range size) → ∀ i, i ∈ order ↔ i < size :=
    fun horder i => by rw [horder.mem_iff, List.mem_range]
  obtain ⟨b₁, hplay₁, hflying, -⟩ := exists_play_map ends .launch (fun _ => rfl)
    (List.nodup_range (n := size)) (b := start size) fun i hi => by
      simp [start, BatchMove.source, List.mem_range.mp hi]
  obtain ⟨b₂, hplay₂, hended, -⟩ := exists_play_map ends .finish (fun _ => rfl)
    (hfinishes.nodup_iff.mpr List.nodup_range) (b := b₁) fun i hi =>
      hflying i (hfinishes.mem_iff.mp hi)
  obtain ⟨b₃, hplay₃, hjoined, -⟩ := exists_play_map ends .join (fun _ => rfl)
    (hjoins.nodup_iff.mpr List.nodup_range) (b := b₂) fun i hi =>
      hended i ((hmem hfinishes i).mpr ((hmem hjoins i).mp hi))
  have hplay : (start size).play? ends
      ((List.range size).map .launch ++ finishes.map .finish ++ joins.map .join) = some b₃ :=
    foldlM_append_some.mpr ⟨b₂, foldlM_append_some.mpr ⟨b₁, hplay₁, hplay₂⟩, hplay₃⟩
  refine ⟨_, b₃, hplay, ?_, ?_, ?_⟩
  · rw [isDone_iff_join_mem hplay]
    intro i hi
    simpa using (hmem hjoins i).mpr hi
  · simp [List.filterMap_map, Function.comp_def, BatchMove.finished?]
  · simp [List.filterMap_map, Function.comp_def, BatchMove.joined?]

/-! ## Batches of the calls of a list -/

/-- How the calls of a list end, by position, when a service answers them. -/
def endsOf (calls : List Call) (answer : Nat → Call → CallEnd) (i : Nat) : CallEnd :=
  (calls[i]?.map (answer i)).getD .crashed

/-- The calls that some moves make, in the order in which they make them. -/
def callsMade (calls : List Call) (moves : List BatchMove) : List Call :=
  (moves.filterMap BatchMove.launched?).filterMap (calls[·]?)

theorem filterMap_getElem?_range (calls : List Call) :
    (List.range calls.length).filterMap (calls[·]?) = calls := by
  induction calls using List.reverseRecOn with
  | nil => rfl
  | append_singleton calls call ih =>
    rw [List.length_append, List.length_singleton, List.range_succ, List.filterMap_append]
    congr 1
    · refine (List.filterMap_congr fun i hi => ?_).trans ih
      exact List.getElem?_append_left (List.mem_range.mp hi)
    · simp

/-- What the moves of a batch of calls and its results are when the batch is done. -/
structure Settled (calls : List Call) (answer : Nat → Call → CallEnd) (moves : List BatchMove)
    (results? : Option (List CallResult)) : Prop where
  /-- The calls of the list are made, each as often as it stands there. -/
  made : (callsMade calls moves).Perm calls
  /-- Every call is launched, ends and is joined, each once. -/
  moves_of : ∀ i < calls.length,
    moves.filter (·.position == i) = [.launch i, .finish i, .join i]
  /-- There are results iff no call crashed. -/
  isSome_iff : results?.isSome = true ↔ ∀ i call, calls[i]? = some call → answer i call ≠ .crashed
  /-- The results are those of the calls, position by position. -/
  results_eq : ∀ results, results? = some results →
    results.length = calls.length ∧
      ∀ i call, calls[i]? = some call → ∃ r, answer i call = .returned r ∧ results[i]? = some r

theorem settled_of_isDone {calls : List Call} {answer : Nat → Call → CallEnd}
    {moves : List BatchMove} (h : (start calls.length).play? (endsOf calls answer) moves = some b)
    (hdone : b.isDone = true) : Settled calls answer moves b.results? := by
  have hends : ∀ i call, calls[i]? = some call → endsOf calls answer i = answer i call := by
    intro i call hcall
    rw [endsOf, hcall]
    rfl
  have hresults := ((sound_start _ _).play h).results?_eq hdone
  refine ⟨?_, ?_, ?_, ?_⟩
  · have hperm := (launched_perm h hdone).filterMap (calls[·]?)
    rwa [filterMap_getElem?_range] at hperm
  · intro i hi
    rw [history h, rankAt_of_isDone hdone (length_phases_of_play h ▸ hi)]
    rfl
  · rw [← not_iff_not, Bool.not_eq_true, Option.isSome_eq_false_iff, Option.isNone_iff_eq_none,
      hresults, resultsInTurn_eq_none_iff]
    push Not
    constructor
    · rintro ⟨i, hi, hcrash⟩
      have hcall := List.getElem?_eq_getElem hi
      exact ⟨i, _, hcall, (hends i _ hcall).symm.trans hcrash⟩
    · rintro ⟨i, call, hcall, hcrash⟩
      exact ⟨i, (List.getElem?_eq_some_iff.mp hcall).1, (hends i call hcall).trans hcrash⟩
  · intro results hsome
    have hturn := hresults.symm.trans hsome
    refine ⟨length_of_resultsInTurn hturn, fun i call hcall => ?_⟩
    rw [← hends i call hcall]
    exact getElem?_of_resultsInTurn hturn (List.getElem?_eq_some_iff.mp hcall).1

/-- A batch of calls settles, however it goes. It makes at most three moves a call; it can go on
    until every call is joined, also if some of them crashed; and when it is done, every call was
    made once, and there are the results of all of them in their order, or none if one crashed. The
    calls can end, and be joined, in every order. -/
theorem settles (calls : List Call) (answer : Nat → Call → CallEnd) :
    (∀ moves b, (start calls.length).play? (endsOf calls answer) moves = some b →
      moves.length ≤ 3 * calls.length ∧
      (b.isDone = true ↔ ∀ i < calls.length, BatchMove.join i ∈ moves) ∧
      (b.isDone = false → ∃ m b', b.step? (endsOf calls answer) m = some b') ∧
      (b.isDone = true → Settled calls answer moves b.results?)) ∧
    ∀ finishes joins : List Nat,
      finishes.Perm (List.range calls.length) → joins.Perm (List.range calls.length) →
      ∃ moves b, (start calls.length).play? (endsOf calls answer) moves = some b ∧
        b.isDone = true ∧ moves.filterMap BatchMove.finished? = finishes ∧
        moves.filterMap BatchMove.joined? = joins := by
  constructor
  · intro moves b h
    refine ⟨?_, isDone_iff_join_mem h, exists_step _, settled_of_isDone h⟩
    have hless : ∀ b m b', True → step? (endsOf calls answer) b m = some b' →
        b'.remaining < b.remaining := by
      intro b m b' _ hstep
      have := remaining_step hstep
      omega
    have hle := foldlM_length_le (fun _ _ _ _ _ => trivial) hless trivial h
    rw [remaining_start] at hle
    omega
  · intro finishes joins hfinishes hjoins
    exact exists_play_of_orders _ hfinishes hjoins

/-- Three calls on one endpoint. -/
def threeCalls : List Call := List.replicate 3 (.plain ⟨"health", "Health", []⟩)

/-- A service that crashes in the first call. -/
def crashesFirst (position : Nat) (call : Call) : CallEnd :=
  if position = 0 then .crashed else .returned (.ofCall call 1.0 .epoch (.success .null))

theorem settles_threeCalls :
    ∃ moves b, (start threeCalls.length).play? (endsOf threeCalls crashesFirst) moves = some b ∧
      b.isDone = true ∧ moves.filterMap BatchMove.finished? = [0, 2, 1] ∧
      moves.filterMap BatchMove.joined? = [0, 1, 2] ∧
      Settled threeCalls crashesFirst moves b.results? := by
  obtain ⟨hall, horders⟩ := settles threeCalls crashesFirst
  obtain ⟨moves, b, hplay, hdone, hfinishes, hjoins⟩ :=
    horders [0, 2, 1] [0, 1, 2] (by decide) (by decide)
  exact ⟨moves, b, hplay, hdone, hfinishes, hjoins, (hall moves b hplay).2.2.2 hdone⟩

end Batch

end LoadBench
