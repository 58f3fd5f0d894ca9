import LoadBench.Measure.Connections
import LoadBench.Measure.Errors
import LoadBench.Proofs.Data.Normal
import LoadBench.Proofs.Plan.Written
import LoadBench.Proofs.RunId

/-!
# Written measurements are restored

Results of calls and what is drawn from them are written with payloads as they came, with instants
and with counts by name. Their readers restore them, if the instants are read back as they were
written, the payloads have ascending keys, and the counts are ones that a counter can hold.

Results:
* `Instant.ReadsBack`, `RunId.restores`: what is expected of instants holds of identifiers.
* `Outcome.restores`, `CallResult.restores`: an outcome names its alternative in front.
* `ErrorSummary.restores`: the counts stay in the order of their keys.
* `Connections.restores`, `Telemetry.restores`, …: what is missing is written as nothing.
-/

namespace LoadBench

open Source

/-! ## Instants and identifiers -/

/-- The instant is read back from the text that it is written as. -/
def Instant.ReadsBack (t : Instant) : Prop := Instant.parse? t.render = some t

section

variable {δ : Type} [Source δ] {R : δ → Data → Prop}

theorem Instant.restores (hR : Faithful R) {t : Instant} (h : t.ReadsBack) :
    Restores R Instant.read? t.data t :=
  restores_ofText hR h

theorem RunId.restores (hR : Faithful R) (r : RunId) : Restores R RunId.read? r.data r :=
  restores_ofText hR r.parse?_render

end

/-! ## Results of calls -/

section

variable {δ : Type} [Source δ] {R : δ → Data → Prop}

theorem FailureKind.restores (hR : Faithful R) (k : FailureKind) :
    Restores R FailureKind.read? k.data k := by
  apply restores_choice hR
  cases k <;> rfl

theorem IterationTag.restores (hR : Faithful R) {t : IterationTag} (h : t.index < Counter.size) :
    Restores R IterationTag.read? t.data t := by
  unfold IterationTag.read? IterationTag.data
  refine restores_record hR (by simp) ?_
  refine (gives_required (by simp) (restores_count hR h)).bind ?_
  refine (gives_required (by simp) (restores_real hR t.elapsedMs)).bind ?_
  exact gives_pure t

end

section

variable {δ : Type} [TreeSource δ] {R : δ → Data → Prop}

/-- The payload of the outcome has ascending keys. -/
def Outcome.Fits : Outcome → Prop
  | .success payload => payload.normal = payload
  | .failure _ _ => True

theorem Outcome.restores (hR : FaithfulTree R) {o : Outcome} (h : o.Fits) :
    Restores R Outcome.read? o.data o := by
  unfold Outcome.read?
  cases o with
  | success payload =>
    refine restores_tagged hR (by simp) rfl ?_
    have hpayload := restores_tree SetAside.faithful payload
    rw [show payload.normal = payload from h] at hpayload
    refine (gives_required (by simp) hpayload).bind ?_
    exact gives_pure _
  | failure kind message =>
    refine restores_tagged hR (by simp) rfl ?_
    have hR' := SetAside.faithful.toFaithful
    refine (gives_required (by simp) (FailureKind.restores hR' kind)).bind ?_
    refine (gives_required (by simp) (restores_text hR' message)).bind ?_
    exact gives_pure _

namespace CallResult

/-- What the result holds can be written: its counts, its instant and its payload. -/
structure Fits (r : CallResult) : Prop where
  queries : ∀ n ∈ r.queryCount, n < Nat.pow 2 32
  iteration : ∀ t ∈ r.iteration, t.index < Counter.size
  completedAt : r.completedAt.ReadsBack
  outcome : r.outcome.Fits

/-- The fields of the written form. -/
def entries (r : CallResult) : List (String × Data) :=
  [("endpoint_label", .text r.label), ("path", .text r.path)]
    ++ Data.optionalField "timeout_secs" .real r.timeoutSecs
    ++ Data.optionalField "query_count" Data.natural r.queryCount
    ++ Data.optionalField "operation" .text r.operation
    ++ Data.optionalField "complexity" Complexity.data r.complexity
    ++ Data.optionalField "iteration" IterationTag.data r.iteration
    ++ [("elapsed_ms", .real r.elapsedMs), ("completed_at", r.completedAt.data),
      ("outcome", r.outcome.data)]

theorem nodup_keys_entries (r : CallResult) : (Data.keys r.entries).Nodup := by
  unfold entries
  simp [List.nodup_append]
  grind

theorem restores (hR : FaithfulTree R) {r : CallResult} (h : r.Fits) :
    Restores R CallResult.read? r.data r := by
  have hR' := hR.toFaithful
  unfold CallResult.read?
  refine restores_record hR' r.nodup_keys_entries ?_
  refine (gives_required (by simp) (restores_text hR' r.label)).bind ?_
  refine (gives_required (by simp) (restores_text hR' r.path)).bind ?_
  refine (gives_optionalField hR' .real r.timeoutSecs ?_ ?_ fun x _ =>
    ⟨Data.noConfusion, restores_real hR' x⟩).bind ?_
  · intro f hf
    simp [hf]
  · simp
  refine (gives_optionalField hR' Data.natural r.queryCount ?_ ?_ fun n hn =>
    ⟨Data.noConfusion, restores_smallCount hR' (h.queries n hn)⟩).bind ?_
  · intro f hf
    simp [hf]
  · simp
  refine (gives_optionalField hR' .text r.operation ?_ ?_ fun s _ =>
    ⟨Data.noConfusion, restores_text hR' s⟩).bind ?_
  · intro f hf
    simp [hf]
  · simp
  refine (gives_optionalField hR' Complexity.data r.complexity ?_ ?_ fun c _ =>
    ⟨Data.noConfusion, Complexity.restores hR' c⟩).bind ?_
  · intro f hf
    simp [hf]
  · simp
  refine (gives_optionalField hR' IterationTag.data r.iteration ?_ ?_ fun t ht =>
    ⟨Data.noConfusion, IterationTag.restores hR' (h.iteration t ht)⟩).bind ?_
  · intro f hf
    simp [hf]
  · simp
  refine (gives_required (by simp) (restores_real hR' r.elapsedMs)).bind ?_
  refine (gives_defaulted (by simp) _ (Instant.restores hR' h.completedAt)).bind ?_
  refine (gives_required (by simp) (Outcome.restores hR h.outcome)).bind ?_
  exact gives_pure r

end CallResult

end

/-! ## Errors -/

section

variable {δ : Type} [Source δ] {R : δ → Data → Prop}

namespace ErrorSummary

/-- What the summary holds can be written: its counts, which stand under ascending keys. -/
structure Fits (e : ErrorSummary) : Prop where
  count : e.count < Counter.size
  keys : (e.types.map Prod.fst).Pairwise (· < ·)
  counts : ∀ t ∈ e.types, t.2 < Counter.size

theorem restores (hR : Faithful R) {e : ErrorSummary} (h : e.Fits) :
    Restores R ErrorSummary.read? e.data e := by
  unfold ErrorSummary.read? ErrorSummary.data
  refine restores_record hR (by simp) ?_
  refine (gives_required (by simp) (restores_count hR h.count)).bind ?_
  refine (gives_required (by simp) (restores_real hR e.rate)).bind ?_
  have htypes := restores_pairsOf hR id h.keys fun t ht =>
    ⟨rfl, restores_count hR (h.counts t ht)⟩
  refine (gives_required (by simp [pairFields]) htypes).bind ?_
  exact gives_pure e

end ErrorSummary

/-! ## Connections -/

namespace SessionSummary

/-- The counts of the summary can be held. -/
structure Fits (s : SessionSummary) : Prop where
  threadsConnected : s.maxThreadsConnected < Counter.size
  threadsRunning : s.maxThreadsRunning < Counter.size
  used : s.maxUsed < Counter.size

theorem restores (hR : Faithful R) {s : SessionSummary} (h : s.Fits) :
    Restores R SessionSummary.read? s.data s := by
  unfold SessionSummary.read? SessionSummary.data
  refine restores_record hR (by simp) ?_
  refine (gives_required (by simp) (restores_real hR s.averageTotal)).bind ?_
  refine (gives_required (by simp) (restores_real hR s.averageActive)).bind ?_
  refine (gives_required (by simp) (restores_count hR h.threadsConnected)).bind ?_
  refine (gives_required (by simp) (restores_count hR h.threadsRunning)).bind ?_
  refine (gives_required (by simp) (restores_count hR h.used)).bind ?_
  exact gives_pure s

end SessionSummary

namespace PoolSummary

/-- The counts of the summary can be held. -/
structure Fits (s : PoolSummary) : Prop where
  connections : s.maxConnections < Counter.size
  waitTimeout : s.waitTimeout < Counter.size

theorem restores (hR : Faithful R) {s : PoolSummary} (h : s.Fits) :
    Restores R PoolSummary.read? s.data s := by
  unfold PoolSummary.read? PoolSummary.data
  refine restores_record hR (by simp) ?_
  refine (gives_required (by simp) (restores_count hR h.connections)).bind ?_
  refine (gives_required (by simp) (restores_real hR s.averageCurrent)).bind ?_
  refine (gives_required (by simp) (restores_real hR s.averageAvailable)).bind ?_
  refine (gives_required (by simp) (restores_count hR h.waitTimeout)).bind ?_
  exact gives_pure s

end PoolSummary

theorem QuerySummary.restores (hR : Faithful R) {s : QuerySummary} (h : s.count < Counter.size) :
    Restores R QuerySummary.read? s.data s := by
  unfold QuerySummary.read? QuerySummary.data
  refine restores_record hR (by simp) ?_
  refine (gives_required (by simp) (restores_count hR h)).bind ?_
  refine (gives_required (by simp) (restores_real hR s.averageDelay)).bind ?_
  refine (gives_required (by simp) (restores_real hR s.averageActual)).bind ?_
  refine (gives_required (by simp) (restores_real hR s.averageOverrun)).bind ?_
  exact gives_pure s

namespace Connections

/-- The counts of the summaries there are can be held. -/
structure Fits (c : Connections) : Prop where
  session : ∀ s ∈ c.session, s.Fits
  pool : ∀ s ∈ c.pool, s.Fits
  queries : ∀ s ∈ c.queries, s.count < Counter.size

theorem restores (hR : Faithful R) {c : Connections} (h : c.Fits) :
    Restores R Connections.read? c.data c := by
  unfold Connections.read? Connections.data
  refine restores_record hR (by simp) ?_
  refine (gives_optionalNamed hR SessionSummary.data c.session (by simp) fun s hs =>
    ⟨Data.noConfusion, SessionSummary.restores hR (h.session s hs)⟩).bind ?_
  refine (gives_optionalNamed hR PoolSummary.data c.pool (by simp) fun s hs =>
    ⟨Data.noConfusion, PoolSummary.restores hR (h.pool s hs)⟩).bind ?_
  refine (gives_optionalNamed hR QuerySummary.data c.queries (by simp) fun s hs =>
    ⟨Data.noConfusion, QuerySummary.restores hR (h.queries s hs)⟩).bind ?_
  exact gives_pure c

end Connections

/-! ## Figures -/

theorem Latency.restores (hR : Faithful R) (l : Latency) :
    Restores R Latency.read? l.data l := by
  unfold Latency.read? Latency.data
  refine restores_record hR (by simp) ?_
  refine (gives_required (by simp) (restores_real hR l.p50)).bind ?_
  refine (gives_required (by simp) (restores_real hR l.p90)).bind ?_
  refine (gives_required (by simp) (restores_real hR l.p95)).bind ?_
  refine (gives_required (by simp) (restores_real hR l.p99)).bind ?_
  refine (gives_required (by simp) (restores_real hR l.mean)).bind ?_
  refine (gives_required (by simp) (restores_real hR l.deviation)).bind ?_
  refine (gives_required (by simp) (restores_real hR l.least)).bind ?_
  refine (gives_required (by simp) (restores_real hR l.greatest)).bind ?_
  exact gives_pure l

theorem ResourceUse.restores (hR : Faithful R) (u : ResourceUse) :
    Restores R ResourceUse.read? u.data u := by
  unfold ResourceUse.read? ResourceUse.data
  refine restores_record hR (by simp) ?_
  refine (gives_required (by simp) (restores_real hR u.reuse)).bind ?_
  refine (gives_required (by simp) (restores_real hR u.stability)).bind ?_
  exact gives_pure u

theorem Analysis.restores (hR : Faithful R) (a : Analysis) :
    Restores R Analysis.read? a.data a := by
  unfold Analysis.read? Analysis.data
  refine restores_record hR (by simp) ?_
  refine (gives_required (by simp) (restores_real hR a.connectionEfficiency)).bind ?_
  refine (gives_required (by simp) (restores_real hR a.connectionUtilization)).bind ?_
  refine (gives_required (by simp) (restores_real hR a.throughput)).bind ?_
  refine (gives_required (by simp) (restores_real hR a.averageResponseTime)).bind ?_
  refine (gives_required (by simp) (restores_real hR a.concurrencyImpact)).bind ?_
  refine (gives_required (by simp) (ResourceUse.restores hR a.resources)).bind ?_
  exact gives_pure a

/-! ## Timelines -/

namespace SessionSample

/-- The counts of the sample can be held, and its time is read back. -/
structure Fits (s : SessionSample) : Prop where
  iteration : s.iteration < Counter.size
  timestamp : s.timestamp.ReadsBack
  totalConnections : s.totalConnections < Counter.size
  activeConnections : s.activeConnections < Counter.size
  threadsConnected : s.threadsConnected < Counter.size
  threadsRunning : s.threadsRunning < Counter.size
  maxUsedConnections : s.maxUsedConnections < Counter.size

theorem restores (hR : Faithful R) {s : SessionSample} (h : s.Fits) :
    Restores R SessionSample.read? s.data s := by
  unfold SessionSample.read? SessionSample.data
  refine restores_record hR (by simp) ?_
  refine (gives_required (by simp) (restores_count hR h.iteration)).bind ?_
  refine (gives_required (by simp) (Instant.restores hR h.timestamp)).bind ?_
  refine (gives_required (by simp) (restores_count hR h.totalConnections)).bind ?_
  refine (gives_required (by simp) (restores_count hR h.activeConnections)).bind ?_
  refine (gives_required (by simp) (restores_count hR h.threadsConnected)).bind ?_
  refine (gives_required (by simp) (restores_count hR h.threadsRunning)).bind ?_
  refine (gives_required (by simp) (restores_count hR h.maxUsedConnections)).bind ?_
  exact gives_pure s

end SessionSample

namespace PoolSample

/-- The counts of the sample can be held, and its time is read back. -/
structure Fits (s : PoolSample) : Prop where
  iteration : s.iteration < Counter.size
  timestamp : s.timestamp.ReadsBack
  maxConnections : s.maxConnections < Counter.size
  currentConnections : s.currentConnections < Counter.size
  availableConnections : s.availableConnections < Counter.size
  waitTimeout : s.waitTimeout < Counter.size

theorem restores (hR : Faithful R) {s : PoolSample} (h : s.Fits) :
    Restores R PoolSample.read? s.data s := by
  unfold PoolSample.read? PoolSample.data
  refine restores_record hR (by simp) ?_
  refine (gives_required (by simp) (restores_count hR h.iteration)).bind ?_
  refine (gives_required (by simp) (Instant.restores hR h.timestamp)).bind ?_
  refine (gives_required (by simp) (restores_count hR h.maxConnections)).bind ?_
  refine (gives_required (by simp) (restores_count hR h.currentConnections)).bind ?_
  refine (gives_required (by simp) (restores_count hR h.availableConnections)).bind ?_
  refine (gives_required (by simp) (restores_count hR h.waitTimeout)).bind ?_
  exact gives_pure s

end PoolSample

theorem QuerySample.restores (hR : Faithful R) {s : QuerySample} (h : s.iteration < Counter.size) :
    Restores R QuerySample.read? s.data s := by
  unfold QuerySample.read? QuerySample.data
  refine restores_record hR (by simp) ?_
  refine (gives_required (by simp) (restores_count hR h)).bind ?_
  refine (gives_required (by simp) (restores_real hR s.delaySeconds)).bind ?_
  refine (gives_required (by simp) (restores_real hR s.actualSeconds)).bind ?_
  exact gives_pure s

namespace Telemetry

/-- What the samples of the timeline hold can be written. -/
structure Fits (t : Telemetry) : Prop where
  sessions : ∀ s ∈ t.sessions, s.Fits
  pools : ∀ s ∈ t.pools, s.Fits
  queries : ∀ s ∈ t.queries, s.iteration < Counter.size

theorem restores (hR : Faithful R) {t : Telemetry} (h : t.Fits) :
    Restores R Telemetry.read? t.data t := by
  unfold Telemetry.read? Telemetry.data
  refine restores_record hR (by simp) ?_
  have hsessions := restores_listOf hR _ fun s hs => SessionSample.restores hR (h.sessions s hs)
  refine (gives_required (by simp) hsessions).bind ?_
  have hpools := restores_listOf hR _ fun s hs => PoolSample.restores hR (h.pools s hs)
  refine (gives_required (by simp) hpools).bind ?_
  have hqueries := restores_listOf hR _ fun s hs => QuerySample.restores hR (h.queries s hs)
  refine (gives_required (by simp) hqueries).bind ?_
  exact gives_pure t

end Telemetry

end

end LoadBench
