import Mathlib.Tactic
import LoadBench.Measure.Telemetry

/-!
# What is recorded of answers

The answers of a run are recorded one after the other. Each adds the samples that its own payload
stands for behind those that are there, so a timeline is the samples of its answers in their order,
and it begins with every timeline that it has grown from.

Results:
* `Telemetry.gathers_ofPayload`: what one payload stands for.
* `Telemetry.Gathers.observe`, `Telemetry.gathers_recordAll`: a timeline gathers the samples of the
  answers that are recorded.
* `Telemetry.Gathers.unique`: there is one such timeline.
* `Telemetry.begins_record`, `Telemetry.begins_recordAll`: what was recorded stays.
-/

namespace LoadBench

/-! ## Samples of one answer -/

theorem Telemetry.report?_eq_filter (payload : Data) (name : String) :
    report? payload name =
      ((payload.field? "data").bind (·.field? name)).filter Data.isRecord := by
  unfold report?
  cases payload.field? "data" with
  | none => rfl
  | some content =>
    cases hreport : content.field? name <;> simp [hreport]

namespace CallResult

/-- What the payload of an answer says under a name of its data; a failure says nothing. -/
def said? (r : CallResult) (name : String) : Option Data :=
  r.payload?.bind fun payload => (payload.field? "data").bind (·.field? name)

/-- One sample if the payload says a record under a name, and none if it says anything else. -/
def reportSamples {α : Type} (r : CallResult) (name : String) (sample : Data → α) : List α :=
  match r.said? name with
  | some (.record fields) => [sample (.record fields)]
  | _ => []

/-- What the payload says about the sessions. -/
def sessionSamples (r : CallResult) (iteration : Nat) : List SessionSample :=
  r.reportSamples "session_info" (.ofReport iteration r.completedAt)

/-- What the payload says about the pool. -/
def poolSamples (r : CallResult) (iteration : Nat) : List PoolSample :=
  r.reportSamples "pool_info" (.ofReport iteration r.completedAt)

/-- One sample for every entry, whatever it is, if the payload says a list of queries. -/
def querySamples (r : CallResult) (iteration : Nat) : List QuerySample :=
  match r.said? "query_executions" with
  | some (.list entries) => entries.map (.ofReport iteration)
  | _ => []

theorem payload?_eq_none_iff {r : CallResult} : r.payload? = none ↔ r.succeeded = false := by
  unfold payload? succeeded
  cases r.outcome <;> simp

/-- There is nothing to read in a failure. -/
theorem samples_of_failure {r : CallResult} (h : r.succeeded = false) (iteration : Nat) :
    r.sessionSamples iteration = [] ∧ r.poolSamples iteration = [] ∧
      r.querySamples iteration = [] := by
  have hsaid : ∀ name, r.said? name = none := by
    intro name
    rw [said?, payload?_eq_none_iff.mpr h]
    rfl
  refine ⟨?_, ?_, ?_⟩
  · rw [sessionSamples, reportSamples, hsaid]
  · rw [poolSamples, reportSamples, hsaid]
  · rw [querySamples, hsaid]

theorem said?_of_payload {r : CallResult} {payload : Data} (h : r.payload? = some payload)
    (name : String) : r.said? name = (payload.field? "data").bind (·.field? name) := by
  rw [said?, h]
  rfl

theorem mem_reportSamples {α : Type} {r : CallResult} {name : String} {sample : Data → α} {s : α}
    (hs : s ∈ r.reportSamples name sample) : ∃ report, s = sample report := by
  unfold reportSamples at hs
  split at hs
  · exact ⟨_, List.mem_singleton.mp hs⟩
  · cases hs

/-- A report of a payload counts if it is a record. -/
theorem report?_eq {r : CallResult} {payload : Data} (h : r.payload? = some payload)
    (name : String) : Telemetry.report? payload name = (r.said? name).filter Data.isRecord := by
  rw [said?_of_payload h, Telemetry.report?_eq_filter]

theorem reportSamples_eq {α : Type} {r : CallResult} {payload : Data}
    (h : r.payload? = some payload) (name : String) (sample : Data → α) :
    r.reportSamples name sample = ((Telemetry.report? payload name).map sample).toList := by
  unfold reportSamples
  rw [report?_eq h]
  rcases r.said? name with _ | report
  · rfl
  · cases report <;> rfl

/-- Every entry of a list of queries counts. -/
theorem querySamples_eq {r : CallResult} {payload : Data} (h : r.payload? = some payload)
    (iteration : Nat) :
    r.querySamples iteration = (Telemetry.ofPayload iteration r.completedAt payload).queries := by
  unfold querySamples Telemetry.ofPayload
  rw [said?_of_payload h]
  rcases (payload.field? "data").bind (·.field? "query_executions") with _ | report
  · rfl
  · cases report <;> rfl

/-- Samples carry the iteration that they are recorded for, and those of the sessions and of the
    pool the time of the answer. -/
structure Stamps (r : CallResult) (iteration : Nat) : Prop where
  sessions : ∀ s ∈ r.sessionSamples iteration, s.iteration = iteration ∧ s.timestamp = r.completedAt
  pools : ∀ s ∈ r.poolSamples iteration, s.iteration = iteration ∧ s.timestamp = r.completedAt
  queries : ∀ s ∈ r.querySamples iteration, s.iteration = iteration

theorem stamps (r : CallResult) (iteration : Nat) : r.Stamps iteration where
  sessions s hs := by
    obtain ⟨report, rfl⟩ := mem_reportSamples hs
    exact ⟨rfl, rfl⟩
  pools s hs := by
    obtain ⟨report, rfl⟩ := mem_reportSamples hs
    exact ⟨rfl, rfl⟩
  queries s hs := by
    unfold querySamples at hs
    split at hs
    · obtain ⟨entry, -, rfl⟩ := List.mem_map.mp hs
      rfl
    · cases hs

end CallResult

namespace Telemetry

/-- A timeline is the samples of some answers, one answer after the other. An answer comes with its
    iteration. -/
structure Gathers (t : Telemetry) (answers : List (Nat × CallResult)) : Prop where
  sessions : t.sessions = answers.flatMap fun a => a.2.sessionSamples a.1
  pools : t.pools = answers.flatMap fun a => a.2.poolSamples a.1
  queries : t.queries = answers.flatMap fun a => a.2.querySamples a.1

/-- What the payload of one answer stands for. -/
theorem gathers_ofPayload {r : CallResult} {payload : Data} (h : r.payload? = some payload)
    (iteration : Nat) : (ofPayload iteration r.completedAt payload).Gathers [(iteration, r)] := by
  refine ⟨?_, ?_, ?_⟩ <;> rw [List.flatMap_singleton]
  · exact (CallResult.reportSamples_eq h _ _).symm
  · exact (CallResult.reportSamples_eq h _ _).symm
  · exact (CallResult.querySamples_eq h iteration).symm

/-- What is no record says nothing of the sessions, while any entry of a list stands for a query. -/
example : ofPayload 3 .epoch (.record [("data", .record [("session_info", .list []),
    ("query_executions", .list [.null, .text "slow"])])]) =
      ⟨[], [], [⟨3, 0.0, 0.0⟩, ⟨3, 0.0, 0.0⟩]⟩ := by
  decide

/-! ## Answers one after the other -/

variable {t u : Telemetry} {answers more : List (Nat × CallResult)}

/-- Records an answer of an iteration; there is nothing to record of a failure. -/
def observe (t : Telemetry) (iteration : Nat) (r : CallResult) : Telemetry :=
  match r.payload? with
  | some payload => t.record iteration r.completedAt payload
  | none => t

/-- Records some answers, one after the other. -/
def recordAll (t : Telemetry) (answers : List (Nat × CallResult)) : Telemetry :=
  answers.foldl (fun t a => t.observe a.1 a.2) t

theorem recordAll_append (t : Telemetry) (answers more : List (Nat × CallResult)) :
    t.recordAll (answers ++ more) = (t.recordAll answers).recordAll more := List.foldl_append

namespace Gathers

theorem empty : Telemetry.empty.Gathers [] := ⟨rfl, rfl, rfl⟩

theorem append (ht : t.Gathers answers) (hu : u.Gathers more) :
    (t ++ u).Gathers (answers ++ more) := by
  refine ⟨?_, ?_, ?_⟩ <;> rw [List.flatMap_append]
  · show t.sessions ++ u.sessions = _
    rw [ht.sessions, hu.sessions]
  · show t.pools ++ u.pools = _
    rw [ht.pools, hu.pools]
  · show t.queries ++ u.queries = _
    rw [ht.queries, hu.queries]

/-- There is nothing to gather from a failure. -/
theorem concat_failure (ht : t.Gathers answers) {r : CallResult} (h : r.succeeded = false)
    (iteration : Nat) : t.Gathers (answers ++ [(iteration, r)]) := by
  obtain ⟨hsessions, hpools, hqueries⟩ := CallResult.samples_of_failure h iteration
  refine ⟨?_, ?_, ?_⟩ <;> rw [List.flatMap_append, List.flatMap_singleton]
  · rw [hsessions, List.append_nil, ht.sessions]
  · rw [hpools, List.append_nil, ht.pools]
  · rw [hqueries, List.append_nil, ht.queries]

/-- One more answer adds its own samples. -/
theorem observe (ht : t.Gathers answers) (iteration : Nat) (r : CallResult) :
    (t.observe iteration r).Gathers (answers ++ [(iteration, r)]) := by
  unfold Telemetry.observe
  split
  · next payload h => exact ht.append (gathers_ofPayload h iteration)
  · next h => exact ht.concat_failure (CallResult.payload?_eq_none_iff.mp h) iteration

theorem recordAll (ht : t.Gathers answers) (more : List (Nat × CallResult)) :
    (t.recordAll more).Gathers (answers ++ more) := by
  induction more generalizing t answers with
  | nil => rwa [List.append_nil]
  | cons a more ih =>
    have h := ih (ht.observe a.1 a.2)
    rwa [List.append_assoc] at h

/-- The samples of some answers make one timeline. -/
theorem unique (ht : t.Gathers answers) (hu : u.Gathers answers) : t = u := by
  obtain ⟨sessions, pools, queries⟩ := t
  obtain ⟨rfl, rfl, rfl⟩ : sessions = u.sessions ∧ pools = u.pools ∧ queries = u.queries :=
    ⟨ht.sessions.trans hu.sessions.symm, ht.pools.trans hu.pools.symm,
      ht.queries.trans hu.queries.symm⟩
  rfl

end Gathers

/-- Answers that are recorded from the start make the timeline of their samples. -/
theorem gathers_recordAll (answers : List (Nat × CallResult)) :
    (empty.recordAll answers).Gathers answers := Gathers.empty.recordAll answers

/-! ## What was recorded stays -/

/-- A timeline is the beginning of another: its samples are the first ones there, unchanged and in
    their order. -/
structure Begins (t u : Telemetry) : Prop where
  sessions : t.sessions <+: u.sessions
  pools : t.pools <+: u.pools
  queries : t.queries <+: u.queries

theorem Begins.refl (t : Telemetry) : t.Begins t :=
  ⟨List.prefix_refl _, List.prefix_refl _, List.prefix_refl _⟩

theorem Begins.trans {v : Telemetry} (h : t.Begins u) (h' : u.Begins v) : t.Begins v :=
  ⟨h.sessions.trans h'.sessions, h.pools.trans h'.pools, h.queries.trans h'.queries⟩

/-- Recording a payload leaves all samples as they are. -/
theorem begins_record (t : Telemetry) (iteration : Nat) (timestamp : Instant) (payload : Data) :
    t.Begins (t.record iteration timestamp payload) :=
  ⟨List.prefix_append _ _, List.prefix_append _ _, List.prefix_append _ _⟩

theorem begins_observe (t : Telemetry) (iteration : Nat) (r : CallResult) :
    t.Begins (t.observe iteration r) := by
  unfold observe
  split
  · exact begins_record t iteration r.completedAt _
  · exact .refl t

theorem begins_recordAll (t : Telemetry) (answers : List (Nat × CallResult)) :
    t.Begins (t.recordAll answers) := by
  induction answers generalizing t with
  | nil => exact .refl t
  | cons a answers ih => exact (begins_observe t a.1 a.2).trans (ih _)

end Telemetry

end LoadBench
