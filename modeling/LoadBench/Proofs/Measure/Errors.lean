import LoadBench.Proofs.Measure.Histogram

/-!
# What the failures of a run add up to

Every failure is counted under one message, so the counts of a summary add up to the number of
failures, and failures and successes together are all the results there are. A failure without a
message is counted as if its message were `Unknown`.

Results:
* `ErrorSummary.ofResults_eq`: what a summary is, if there are any failures.
* `ErrorSummary.ofResults_eq_none_iff`: there is no summary if, and only if, everything succeeded.
* `ErrorSummary.Tallies.of_ofResults`, `ErrorSummary.Classifies.of_ofResults`: what a summary says
  about the results it is drawn from, in number and by messages.
* `failures_counted`: the same for all results, in whatever order and from how many parts they come.
-/

namespace LoadBench

/-! ## Failures and successes -/

/-- The number of results that failed. -/
def failureCount (results : List CallResult) : Nat := results.countP fun r => !r.succeeded

/-- The number of results that failed with a message. -/
def failuresWith (results : List CallResult) (message : String) : Nat :=
  results.countP fun r => r.failure?.any (·.2 == message)

theorem CallResult.isSome_failure? (r : CallResult) : r.failure?.isSome = !r.succeeded := by
  unfold failure? succeeded
  cases r.outcome <;> rfl

theorem successCount_le_length (results : List CallResult) :
    successCount results ≤ results.length := List.countP_le_length

theorem failureCount_add_successCount (results : List CallResult) :
    failureCount results + successCount results = results.length := by
  have hall := List.length_eq_countP_add_countP CallResult.succeeded (l := results)
  have hfailed : failureCount results =
      results.countP fun r => decide ¬r.succeeded = true := by
    simp only [failureCount, Bool.not_eq_true, Bool.decide_eq_false]
  unfold successCount
  omega

theorem failureCount_eq_zero_iff {results : List CallResult} :
    failureCount results = 0 ↔ ∀ r ∈ results, r.succeeded = true := by
  simp [failureCount, List.countP_eq_zero]

namespace ErrorSummary

/-! ## Messages -/

theorem key_ne_empty (message : String) : key message ≠ "" := by
  unfold key
  split_ifs with hempty
  · decide
  · simpa using hempty

/-- Failures without a message are counted with those whose message is literally `Unknown`. -/
theorem key_eq_unknown_iff {message : String} :
    key message = "Unknown" ↔ message = "Unknown" ∨ message = "" := by
  unfold key
  split_ifs with hempty
  · simpa using Or.inr hempty
  · have hne : message ≠ "" := by simpa using hempty
    simp only [hne, or_false]

theorem key_eq_iff {message other : String} (hempty : other ≠ "") (hunknown : other ≠ "Unknown") :
    key message = other ↔ message = other := by
  unfold key
  split_ifs with h
  · have hmessage : message = "" := by simpa using h
    simp only [hmessage, hempty.symm, hunknown.symm]
  · rfl

/-- There is one key for every result that failed. -/
theorem length_keys (results : List CallResult) :
    (keys results).length = failureCount results := by
  unfold keys
  rw [List.length_filterMap_eq_countP]
  apply List.countP_congr
  intro r _
  rw [Option.isSome_map, CallResult.isSome_failure?]

/-- How often a message is among the keys. -/
theorem count_keys (results : List CallResult) (message : String) :
    (keys results).count message =
      results.countP fun r => r.failure?.any fun f => key f.2 == message := by
  unfold keys
  rw [List.count_filterMap]
  apply List.countP_congr
  intro r _
  cases r.failure? <;> simp

theorem count_keys_own {message : String} (hempty : message ≠ "") (hunknown : message ≠ "Unknown")
    (results : List CallResult) : (keys results).count message = failuresWith results message := by
  rw [count_keys]
  apply List.countP_congr
  intro r _
  simp only [Option.any_eq_true, beq_iff_eq, key_eq_iff hempty hunknown]

theorem count_keys_unknown (results : List CallResult) :
    (keys results).count "Unknown" = failuresWith results "Unknown" + failuresWith results "" := by
  rw [count_keys]
  unfold failuresWith
  induction results with
  | nil => rfl
  | cons r rest ih =>
    rw [List.countP_cons, List.countP_cons, List.countP_cons, ih]
    -- the message of the first result is one of the two, and not both, if it has either
    have hone : (if (r.failure?.any fun f => key f.2 == "Unknown") then 1 else 0) =
        (if (r.failure?.any (·.2 == "Unknown")) then 1 else 0) +
        (if (r.failure?.any (·.2 == "")) then 1 else 0) := by
      rcases r.failure? with _ | ⟨kind, message⟩
      · rfl
      · simp only [Option.any_some, beq_iff_eq, key_eq_unknown_iff]
        rcases eq_or_ne message "" with rfl | hempty
        · decide
        · simp only [hempty, or_false, if_false, Nat.add_zero]
    omega

theorem count_keys_empty (results : List CallResult) : (keys results).count "" = 0 := by
  rw [count_keys, List.countP_eq_zero]
  intro r _
  simp only [Option.any_eq_true, beq_iff_eq, key_ne_empty, and_false, exists_false,
    not_false_eq_true]

/-! ## Summaries -/

/-- If anything failed, the summary counts the failures, gives their share and files them under
    their messages. -/
theorem ofResults_eq (results : List CallResult) :
    ofResults results =
      if 0 < failureCount results then
        some ⟨failureCount results, Statistics.countRatio (failureCount results) results.length,
          .ofKeys (keys results)⟩
      else none := by
  unfold ofResults
  simp only [Histogram.total_ofKeys, length_keys]

/-- What a summary says about the results it is drawn from: how many failed, in number and as a
    share, and under which messages they are counted. -/
structure Tallies (e : ErrorSummary) (results : List CallResult) : Prop where
  count : e.count + successCount results = results.length
  rate : e.rate = Statistics.countRatio e.count results.length
  types : e.types.total = e.count

/-- There is no summary if, and only if, everything succeeded. -/
theorem ofResults_eq_none_iff {results : List CallResult} :
    ofResults results = none ↔ ∀ r ∈ results, r.succeeded = true := by
  rw [ofResults_eq, ← failureCount_eq_zero_iff]
  split_ifs with hfailed
  · simp only [hfailed.ne']
  · simp only [Nat.eq_zero_of_not_pos hfailed]

theorem eq_of_ofResults {results : List CallResult} {e : ErrorSummary}
    (h : ofResults results = some e) :
    e = ⟨failureCount results, Statistics.countRatio (failureCount results) results.length,
      .ofKeys (keys results)⟩ := by
  rw [ofResults_eq] at h
  split_ifs at h
  exact (Option.some.inj h).symm

theorem Tallies.of_ofResults {results : List CallResult} {e : ErrorSummary}
    (h : ofResults results = some e) : e.Tallies results := by
  obtain rfl := eq_of_ofResults h
  refine ⟨failureCount_add_successCount results, rfl, ?_⟩
  rw [Histogram.total_ofKeys, length_keys]

/-- Under which messages a summary counts the failures among some results: under their own, and
    those without a message under `Unknown`. -/
structure Classifies (e : ErrorSummary) (results : List CallResult) : Prop where
  failures : e.count = failureCount results
  wellFormed : e.types.WellFormed
  own : ∀ message, message ≠ "" → message ≠ "Unknown" →
    e.types.count message = failuresWith results message
  unknown : e.types.count "Unknown" = failuresWith results "Unknown" + failuresWith results ""
  unnamed : e.types.count "" = 0

theorem Classifies.of_ofResults {results : List CallResult} {e : ErrorSummary}
    (h : ofResults results = some e) : e.Classifies results := by
  obtain rfl := eq_of_ofResults h
  refine ⟨rfl, Histogram.wellFormed_ofKeys _, fun message hempty hunknown => ?_, ?_, ?_⟩
  · rw [Histogram.count_ofKeys, count_keys_own hempty hunknown]
  · rw [Histogram.count_ofKeys, count_keys_unknown]
  · rw [Histogram.count_ofKeys, count_keys_empty]

/-- A summary does not depend on the order of the results. -/
theorem ofResults_eq_of_perm {results others : List CallResult} (h : results.Perm others) :
    ofResults results = ofResults others := by
  have hfailures : failureCount results = failureCount others := h.countP_eq _
  have hkeys : Histogram.ofKeys (keys results) = .ofKeys (keys others) :=
    Histogram.ofKeys_eq_of_perm (h.filterMap _)
  rw [ofResults_eq, ofResults_eq, hfailures, hkeys, h.length_eq]

/-- The number of failures in a summary, if there is one. -/
def countOf (results : List CallResult) : Nat := (ofResults results).elim 0 (·.count)

/-- The histogram of a summary, if there is one. -/
def typesOf (results : List CallResult) : Histogram := (ofResults results).elim [] (·.types)

theorem countOf_eq (results : List CallResult) : countOf results = failureCount results := by
  unfold countOf
  rw [ofResults_eq]
  split_ifs with hfailed
  · rfl
  · exact (Nat.eq_zero_of_not_pos hfailed).symm

theorem typesOf_eq (results : List CallResult) : typesOf results = .ofKeys (keys results) := by
  unfold typesOf
  rw [ofResults_eq]
  split_ifs with hfailed
  · rfl
  · have hnone : keys results = [] := by
      rw [← List.length_eq_zero_iff, length_keys]
      exact Nat.eq_zero_of_not_pos hfailed
    rw [hnone]
    rfl

/-- Results that follow on others add their failures to those under the same message. -/
theorem count_typesOf_append (results more : List CallResult) (message : String) :
    (typesOf (results ++ more)).count message =
      (typesOf results).count message + (typesOf more).count message := by
  simp only [typesOf_eq, keys, List.filterMap_append, Histogram.count_ofKeys_append]

end ErrorSummary

open ErrorSummary in
/-- There is a summary unless everything succeeded; it counts every failure under its message,
    those without one as `Unknown`. It does not depend on the order of the results, the counts of
    results in two parts add up, and what it does not count is what succeeded. -/
theorem failures_counted (results : List CallResult) :
    (ofResults results = none ↔ ∀ r ∈ results, r.succeeded = true) ∧
    (∀ e, ofResults results = some e → e.Tallies results ∧ e.Classifies results) ∧
    (∀ others, results.Perm others → ofResults results = ofResults others) ∧
    (∀ more message, (typesOf (results ++ more)).count message =
      (typesOf results).count message + (typesOf more).count message) ∧
    successRate results =
      Statistics.countRatio (results.length - countOf results) results.length := by
  refine ⟨ofResults_eq_none_iff, fun e he => ⟨Tallies.of_ofResults he, Classifies.of_ofResults he⟩,
    fun others => ofResults_eq_of_perm, count_typesOf_append results, ?_⟩
  have hsucceeded : results.length - countOf results = successCount results := by
    have hall := failureCount_add_successCount results
    rw [countOf_eq]
    omega
  rw [hsucceeded]
  rfl

/-- What came of a call that failed with a message. -/
def refusedWith (message : String) : CallResult :=
  .ofCall (.plain ⟨"health", "Health", []⟩) 2.0 .epoch (.failure .transport message)

/-- Failures of three messages, one of them empty and one that reads `Unknown`. -/
def threeMessages : List CallResult :=
  [refusedWith "refused", refusedWith "", refusedWith "Unknown"]

theorem failures_counted_threeMessages : ∃ e,
    ErrorSummary.ofResults threeMessages = some e ∧ e.types = [("Unknown", 2), ("refused", 1)] ∧
    e.Tallies threeMessages ∧ e.Classifies threeMessages ∧
    ErrorSummary.ofResults threeMessages.reverse = some e := by
  obtain ⟨-, hsome, hperm, -⟩ := failures_counted threeMessages
  obtain ⟨e, he, htypes⟩ : ∃ e, ErrorSummary.ofResults threeMessages = some e ∧
      e.types = [("Unknown", 2), ("refused", 1)] := ⟨_, rfl, by decide⟩
  refine ⟨e, he, htypes, (hsome e he).1, (hsome e he).2, ?_⟩
  rw [← hperm _ (List.reverse_perm threeMessages).symm, he]

end LoadBench
