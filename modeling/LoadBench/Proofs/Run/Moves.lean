import Mathlib.Data.List.Induction
import Mathlib.Tactic

/-!
# Runs as lists of moves

A run plays moves one after the other with `List.foldlM`, and a move that is not possible ends it
without a state. What holds of every run follows from what holds of every move.

Results:
* `foldlM_cons_some`, `foldlM_append_some`: a run splits wherever its moves do.
* `foldlM_keeps`, `foldlM_keeps_of_allowed`: what every move keeps, every run does.
* `foldlM_history`: what every move keeps, said of the moves made so far and the state.
* `foldlM_length_le`: if every move uses up some work, no run has more moves than there is work.
* `foldlM_complete`: if moreover a move is possible whenever there is something left to do, every
  run can be continued to its end.
-/

namespace LoadBench

variable {σ μ : Type} {step : σ → μ → Option σ}

theorem foldlM_cons_some {m : μ} {moves : List μ} {s t : σ} :
    (m :: moves).foldlM step s = some t ↔
      ∃ u, step s m = some u ∧ moves.foldlM step u = some t := by
  rw [List.foldlM_cons]
  exact Option.bind_eq_some_iff

theorem foldlM_append_some {before after : List μ} {s t : σ} :
    (before ++ after).foldlM step s = some t ↔
      ∃ u, before.foldlM step s = some u ∧ after.foldlM step u = some t := by
  rw [List.foldlM_append]
  exact Option.bind_eq_some_iff

theorem foldlM_concat_some {moves : List μ} {m : μ} {s t : σ} :
    (moves ++ [m]).foldlM step s = some t ↔
      ∃ u, moves.foldlM step s = some u ∧ step u m = some t := by
  rw [foldlM_append_some]
  simp only [List.foldlM_cons, List.foldlM_nil, bind_pure]

/-- A run along more moves goes on from where the first ones lead. -/
theorem foldlM_append_of_some {before : List μ} {s u : σ} (h : before.foldlM step s = some u)
    (after : List μ) : (before ++ after).foldlM step s = after.foldlM step u := by
  rw [List.foldlM_append, h]
  rfl

/-- What holds of no moves and the start, and is kept by every move, holds of every run. -/
theorem foldlM_history {P : List μ → σ → Prop} {start : σ} (first : P [] start)
    (keep : ∀ moves s m s', P moves s → step s m = some s' → P (moves ++ [m]) s')
    {moves : List μ} {s : σ} (h : moves.foldlM step start = some s) : P moves s := by
  induction moves using List.reverseRecOn generalizing s with
  | nil => cases h; exact first
  | append_singleton moves m ih =>
    obtain ⟨u, hu, hm⟩ := foldlM_concat_some.mp h
    exact keep moves u m s (ih hu) hm

/-- What is kept by every move is kept by every run. -/
theorem foldlM_keeps {P : σ → Prop} (keep : ∀ s m s', P s → step s m = some s' → P s')
    {moves : List μ} {s t : σ} (hs : P s) (h : moves.foldlM step s = some t) : P t :=
  foldlM_history (P := fun _ => P) hs (fun _ s m s' => keep s m s') h

/-- What is kept by every allowed move is kept by every run of allowed moves. -/
theorem foldlM_keeps_of_allowed {P : σ → Prop} {allowed : μ → Prop}
    (keep : ∀ s m s', allowed m → P s → step s m = some s' → P s') {moves : List μ} {s t : σ}
    (hmoves : ∀ m ∈ moves, allowed m) (hs : P s) (h : moves.foldlM step s = some t) : P t := by
  induction moves generalizing s with
  | nil => cases h; exact hs
  | cons m moves ih =>
    obtain ⟨u, hu, hplay⟩ := foldlM_cons_some.mp h
    have hm := hmoves m List.mem_cons_self
    exact ih (fun m' hm' => hmoves m' (List.mem_cons_of_mem _ hm')) (keep s m u hm hs hu) hplay

/-- If every move uses up some work, a run has at most as many moves as there was work. -/
theorem foldlM_length_le {P : σ → Prop} {work : σ → Nat}
    (keep : ∀ s m s', P s → step s m = some s' → P s')
    (less : ∀ s m s', P s → step s m = some s' → work s' < work s)
    {moves : List μ} {s t : σ} (hs : P s) (h : moves.foldlM step s = some t) :
    moves.length + work t ≤ work s := by
  induction moves generalizing s with
  | nil => cases h; simp
  | cons m moves ih =>
    obtain ⟨u, hu, hm⟩ := foldlM_cons_some.mp h
    have := ih (keep s m u hs hu) hm
    have := less s m u hs hu
    rw [List.length_cons]
    omega

/-- A run that can go on with an allowed move until it is over can be continued to its end by
    allowed moves. -/
theorem foldlM_complete {P : σ → Prop} {isOver : σ → Prop} {allowed : μ → Prop} {work : σ → Nat}
    (keep : ∀ s m s', P s → step s m = some s' → P s')
    (less : ∀ s m s', P s → step s m = some s' → work s' < work s)
    (goOn : ∀ s, P s → ¬ isOver s → ∃ m s', allowed m ∧ step s m = some s')
    {s : σ} (hs : P s) :
    ∃ (moves : List μ) (t : σ),
      (∀ m ∈ moves, allowed m) ∧ moves.foldlM step s = some t ∧ isOver t := by
  induction hn : work s using Nat.strongRecOn generalizing s with
  | _ n ih =>
    by_cases hover : isOver s
    · exact ⟨[], s, by simp, rfl, hover⟩
    · obtain ⟨m, u, hm, hu⟩ := goOn s hs hover
      obtain ⟨moves, t, hall, ht, hend⟩ :=
        ih (work u) (hn ▸ less s m u hs hu) (keep s m u hs hu) rfl
      refine ⟨m :: moves, t, ?_, foldlM_cons_some.mpr ⟨u, hu, ht⟩, hend⟩
      simpa using ⟨hm, hall⟩

/-! ## Work of many parts -/

/-- Replacing one part changes the work of all parts by what it changes the work of that part. -/
theorem sum_map_set {α : Type} {parts : List α} {i : Nat} {x : α} (h : parts[i]? = some x)
    (work : α → Nat) (y : α) :
    ((parts.set i y).map work).sum + work x = (parts.map work).sum + work y := by
  induction parts generalizing i with
  | nil => simp at h
  | cons part parts ih =>
    cases i with
    | zero =>
      obtain rfl : part = x := by simpa using h
      simp only [List.set_cons_zero, List.map_cons, List.sum_cons]
      omega
    | succ i =>
      have := ih (i := i) (by simpa using h)
      simp only [List.set_cons_succ, List.map_cons, List.sum_cons]
      omega

end LoadBench
