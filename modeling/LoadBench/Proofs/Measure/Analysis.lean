import LoadBench.Measure.Connections
import LoadBench.Proofs.Binary64.Products
import LoadBench.Proofs.Summary.Reversal

/-!
# Ratios of use

The seven ratios of a run are drawn from figures that nobody vouches for: a service may report any
average, and a clock any time. Six of them are guarded: where the ratio does not exist, they are
zero. The seventh is one less a guarded ratio, and stays finite since that ratio is not negative:
its dividend is a distance, and its divisor a count.

Results:
* `Statistics.isFinite_guardedRatio`, `Statistics.guardedRatio_nonneg`: a guarded ratio is finite,
  and not negative if neither of its terms is.
* `Analysis.isFinite_stability`: the seventh ratio is finite.
* `Analysis.ofRun_finite`: all ratios are finite, and what they are with and without samples.
-/

namespace LoadBench

open Binary64 Float.Model Float.Model.UnpackedFloat

namespace Statistics

variable {num den : Float}

theorem isFinite_guardedRatio (num den : Float) : (guardedRatio num den).isFinite = true := by
  by_cases h : HasRatio num den
  · rw [guardedRatio_of_hasRatio h]
    exact h.2
  · rw [guardedRatio_of_not_hasRatio h]
    decide

theorem guardedRatio_nonneg (hnum : sign (number num) = .positive)
    (hden : sign (number den) = .positive) : 0.0 ≤ guardedRatio num den := by
  by_cases h : HasRatio num den
  · rw [guardedRatio_of_hasRatio h]
    exact nonneg_of_sign (isNaN_of_isFinite h.2) (sign_div_of_positive hnum hden)
  · rw [guardedRatio_of_not_hasRatio h]
    decide

/-- Nothing is a share of nothing. -/
theorem guardedRatio_zero (num : Float) : guardedRatio num 0.0 = 0.0 := by
  refine guardedRatio_of_not_hasRatio fun h => ?_
  have hzero : ((0.0 : Float) == 0.0) = true := by decide
  rw [HasRatio, hzero] at h
  cases h.1

/-- One less such a ratio is finite as well. -/
theorem isFinite_one_sub_guardedRatio (hnum : sign (number num) = .positive)
    (hden : sign (number den) = .positive) : (1.0 - guardedRatio num den).isFinite = true :=
  isFinite_sub (by decide) (isFinite_guardedRatio num den) (by decide)
    (guardedRatio_nonneg hnum hden)

/-- A number is the ratio of two others if these have one, and zero if they have none. -/
structure IsRatio (r num den : Float) : Prop where
  of_hasRatio : HasRatio num den → r = num / den
  of_not_hasRatio : ¬ HasRatio num den → r = 0.0

theorem isRatio_guardedRatio (num den : Float) : IsRatio (guardedRatio num den) num den :=
  ⟨guardedRatio_of_hasRatio, guardedRatio_of_not_hasRatio⟩

end Statistics

open Statistics

namespace Analysis

variable {c : Connections} {s : SessionSummary}

/-- The seven ratios of an analysis. -/
def ratios (a : Analysis) : List Float :=
  [a.connectionEfficiency, a.connectionUtilization, a.throughput, a.averageResponseTime,
    a.concurrencyImpact, a.resources.reuse, a.resources.stability]

/-- What the ratios of a run are that are drawn from a summary of its sessions. -/
structure DrawnFrom (a : Analysis) (totalRequests : Nat) (s : SessionSummary) : Prop where
  utilization : IsRatio a.connectionUtilization s.averageActive s.averageTotal
  impact : IsRatio a.concurrencyImpact (ofCount s.maxThreadsRunning) (ofCount s.maxThreadsConnected)
  reuse : IsRatio a.resources.reuse (ofCount totalRequests) s.averageTotal
  stability : 0.0 < ofCount s.maxThreadsConnected → ∃ r, a.resources.stability = 1.0 - r ∧
    IsRatio r (ofCount s.maxThreadsConnected - s.averageActive).abs (ofCount s.maxThreadsConnected)
  unstable : ¬ 0.0 < ofCount s.maxThreadsConnected → a.resources.stability = 0.0

theorem drawnFrom_ofRun (totalRequests : Nat) (elapsedMs : Float) (h : c.session = some s) :
    (ofRun totalRequests elapsedMs c).DrawnFrom totalRequests s := by
  simp only [ofRun, h, Option.getD_some]
  constructor
  · exact isRatio_guardedRatio _ _
  · exact isRatio_guardedRatio _ _
  · exact isRatio_guardedRatio _ _
  · intro hthreads
    exact ⟨_, if_pos hthreads, isRatio_guardedRatio _ _⟩
  · exact fun hnone => if_neg hnone

theorem isFinite_stability (totalRequests : Nat) (elapsedMs : Float) (c : Connections) :
    (ofRun totalRequests elapsedMs c).resources.stability.isFinite = true := by
  simp only [ofRun]
  split_ifs
  · exact isFinite_one_sub_guardedRatio (sign_abs _) (ofCount_spec _).1
  · decide

theorem isFinite_connectionEfficiency (totalRequests : Nat) (elapsedMs : Float) (c : Connections) :
    (ofRun totalRequests elapsedMs c).connectionEfficiency.isFinite = true := by
  simp only [ofRun]
  cases c.pool with
  | none => decide
  | some pool => exact isFinite_guardedRatio _ _

theorem isFinite_of_mem_ratios (totalRequests : Nat) (elapsedMs : Float) (c : Connections) :
    ∀ r ∈ (ofRun totalRequests elapsedMs c).ratios, r.isFinite = true := by
  simp only [ratios, List.forall_mem_cons, List.not_mem_nil, false_implies, implies_true, and_true]
  exact ⟨isFinite_connectionEfficiency _ _ _, isFinite_guardedRatio _ _, isFinite_guardedRatio _ _,
    isFinite_guardedRatio _ _, isFinite_guardedRatio _ _, isFinite_guardedRatio _ _,
    isFinite_stability _ _ _⟩

/-- Without samples of sessions there is nothing to draw four of the ratios from. -/
theorem ofRun_of_session_none (totalRequests : Nat) (elapsedMs : Float) (h : c.session = none) :
    (ofRun totalRequests elapsedMs c).connectionUtilization = 0.0 ∧
      (ofRun totalRequests elapsedMs c).concurrencyImpact = 0.0 ∧
      (ofRun totalRequests elapsedMs c).resources = ⟨0.0, 0.0⟩ := by
  have hcount : ofCount 0 = 0.0 := by decide
  have hthreads : ¬ (0.0 : Float) < 0.0 := by decide
  simp only [ofRun, h, Option.getD_none, SessionSummary.zero, hcount, guardedRatio_zero, hthreads,
    if_false, and_self]

/-- The seven ratios of a run are finite, whatever was counted and measured. Each of them is the
    ratio of its figures, or one less such a ratio, where this ratio exists, and zero where the
    samples are missing that it is drawn from. -/
theorem ofRun_finite (totalRequests : Nat) (elapsedMs : Float) (c : Connections) :
    (∀ r ∈ (ofRun totalRequests elapsedMs c).ratios, r.isFinite = true) ∧
    IsRatio (ofRun totalRequests elapsedMs c).throughput (ofCount totalRequests)
      (elapsedMs / 1000.0) ∧
    IsRatio (ofRun totalRequests elapsedMs c).averageResponseTime elapsedMs
      (ofCount totalRequests) ∧
    (∀ s, c.session = some s → (ofRun totalRequests elapsedMs c).DrawnFrom totalRequests s) ∧
    (c.session = none →
      (ofRun totalRequests elapsedMs c).connectionUtilization = 0.0 ∧
      (ofRun totalRequests elapsedMs c).concurrencyImpact = 0.0 ∧
      (ofRun totalRequests elapsedMs c).resources = ⟨0.0, 0.0⟩) ∧
    (∀ p, c.pool = some p → IsRatio (ofRun totalRequests elapsedMs c).connectionEfficiency
      (ofCount p.maxConnections - p.averageAvailable) (ofCount p.maxConnections)) ∧
    (c.pool = none → (ofRun totalRequests elapsedMs c).connectionEfficiency = 0.0) := by
  refine ⟨isFinite_of_mem_ratios _ _ _, isRatio_guardedRatio _ _, isRatio_guardedRatio _ _,
    fun s => drawnFrom_ofRun _ _, ofRun_of_session_none _ _, fun p hpool => ?_, fun hpool => ?_⟩
  · simp only [ofRun, hpool]
    exact isRatio_guardedRatio _ _
  · simp only [ofRun, hpool]

/-- Figures of a service that reports nonsense, and of one that reports nothing. -/
def nonsense : Connections where
  session := some ⟨negZero, infinity, 3, 2 ^ 64 - 1, 0⟩
  pool := some ⟨0, 1.0, notANumber, 0⟩
  queries := none

@[inherit_doc nonsense]
def silence : Connections := ⟨none, none, none⟩

theorem ofRun_finite_nonsense :
    (∀ r ∈ (ofRun 7 notANumber nonsense).ratios, r.isFinite = true) ∧
    (ofRun 7 notANumber nonsense).connectionUtilization = 0.0 ∧
    (ofRun 7 notANumber nonsense).resources.stability ≠ 0.0 ∧
    (ofRun 7 50.0 silence).throughput = ofCount 7 / (50.0 / 1000.0) ∧
    (ofRun 7 50.0 silence).concurrencyImpact = 0.0 ∧
    (ofRun 7 50.0 silence).connectionEfficiency = 0.0 := by
  obtain ⟨hfinite, -, -, hsession, -⟩ := ofRun_finite 7 notANumber nonsense
  obtain ⟨-, hthroughput, -, -, hnone, -, hempty⟩ := ofRun_finite 7 50.0 silence
  exact ⟨hfinite, (hsession _ rfl).utilization.of_not_hasRatio (by unfold HasRatio; decide),
    by decide, hthroughput.of_hasRatio ⟨by decide, by decide⟩, (hnone rfl).2.1, hempty rfl⟩

end Analysis

end LoadBench
