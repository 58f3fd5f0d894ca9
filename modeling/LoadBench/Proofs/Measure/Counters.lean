import LoadBench.Proofs.Data.Paths
import LoadBench.Proofs.Measure.LeadingInt
import LoadBench.Proofs.Measure.Ranks
import LoadBench.Proofs.Measure.Telemetry

/-!
# Counters given as numbers and as texts

A service reports a counter as a number, or as a text with the digits of the number. Either way it is
read as a signed word. A number beyond the signed words is read as the largest of them, but a text of
it as zero: there the two ways of saying the same make different samples.

Results:
* `counter_natural`, `counter_text`: what is read of a counter.
* `Telemetry.exists_ofPayload_put`: a counter in a payload says one count of the timeline, and nothing
  else of it.
* `Telemetry.spellings_agree_iff`: number and text make the same samples if, and only if, the counter
  is a signed word.
-/

namespace LoadBench

open Binary64 Float.Model Float.Model.UnpackedFloat
open Text (isBlank)

/-! ## Numbers -/

/-- As an integer part, a number is what it is as a counter, up to the largest signed word. -/
theorem integerPart_of_positive {x : Float} (hsign : sign (number x) = .positive)
    (hfinite : (number x).isFinite = true) :
    integerPart x = min (Statistics.index x : Int) signedMax := by
  have hmax : signedMax = 2 ^ 63 - 1 := rfl
  have hmin : signedMin = -2 ^ 63 := rfl
  have hlargest : Counter.largest = 2 ^ 64 - 1 := rfl
  have hclamp (m : Nat) (e : Int) : clampSigned (Dyad.mk false m e).trunc =
      min (Counter.saturate (Dyad.mk false m e).floor : Int) signedMax := by
    show clampSigned (Dyad.mk false m e).whole =
      min (Counter.saturate (Dyad.mk false m e).whole : Int) signedMax
    unfold clampSigned Counter.saturate
    omega
  have hdyad := Binary64.dyad?_eq x
  cases hx : number x with
  | notANumber => rw [hx] at hfinite; cases hfinite
  | infinity s => rw [hx] at hfinite; cases hfinite
  | zero s =>
    rw [hx] at hsign hdyad
    obtain rfl : s = .positive := hsign
    rw [integerPart, Statistics.index, hdyad]
    exact hclamp 0 0
  | finite s m e hm =>
    rw [hx] at hsign hdyad
    obtain rfl : s = .positive := hsign
    rw [integerPart, Statistics.index, hdyad]
    exact hclamp m e

/-- Rounding takes no count beyond the signed words back to them. -/
theorem integerPart_ofCount {n : Nat} (hleast : 2 ^ 63 ≤ n) (hn : n < 2 ^ 64) :
    integerPart (ofCount n) = signedMax := by
  -- both ends of the range are numbers themselves, and rounding keeps the order
  have hfinite : (number (ofCount n)).isFinite = true := by
    have hlimit : place (number (ofCount (2 ^ 64))) < infinitePlace := by decide
    exact isFinite_iff.mpr ((place_ofCount_mono (by omega) hn.le).trans_lt hlimit)
  have hindex : 2 ^ 63 ≤ Statistics.index (ofCount n) := by
    have hpower : Statistics.index (ofCount (2 ^ 63)) = 2 ^ 63 := by decide
    have hmono := Statistics.index_mono (ofCount_mono (by omega) hleast)
    rwa [hpower] at hmono
  have hmax : signedMax = 2 ^ 63 - 1 := rfl
  rw [integerPart_of_positive (ofCount_spec n).1 hfinite]
  omega

theorem leadingInt_integer (n : Int) : leadingInt (some (.integer n)) =
    if signedMin ≤ n ∧ n ≤ signedMax then n else integerPart (Data.nearestReal n) := by
  simp only [leadingInt, Bool.and_eq_true, decide_eq_true_eq]

/-- A counter that is given as a number stops at the largest signed word. -/
theorem counter_natural {n : Nat} (hn : n < 2 ^ 64) :
    counter (some (.natural n)) = min n (2 ^ 63 - 1) := by
  have hmax : signedMax = 2 ^ 63 - 1 := rfl
  have hmin : signedMin = -2 ^ 63 := rfl
  rw [counter, Data.natural, leadingInt_integer]
  by_cases hfits : n < 2 ^ 63
  · rw [if_pos (by omega)]
    omega
  · rw [if_neg (by omega), Data.nearestReal, if_neg (by omega), Int.natAbs_natCast,
      integerPart_ofCount (by omega) hn]
    omega

/-! ## Texts -/

/-- No digit is a blank or a sign. -/
theorem plain_of_isDigit {c : Char} (h : c.isDigit = true) :
    isBlank c = false ∧ (c != '+' && c != '-') = true := by
  have hall : ∀ n < 128, (Char.ofNat n).isDigit = true →
      isBlank (Char.ofNat n) = false ∧ (Char.ofNat n != '+' && Char.ofNat n != '-') = true := by
    decide
  have hchar := hall c.toNat (toNat_lt_of_isDigit h)
  rw [Char.ofNat_toNat] at hchar
  exact hchar h

/-- The text of a number is digits from its front to its end. -/
theorem leadingParts_toString (n : Nat) : LeadingParts (toString n) [] [] (digitsOf n) [] := by
  have hdigits : ∀ c ∈ digitsOf n, c.isDigit = true := fun c hc => Json.isDigit_of_mem_digitsOf hc
  have hfirst (p : Char → Bool) (hp : ∀ c : Char, c.isDigit = true → p c = true) :
      (digitsOf n).head?.all p = true := by
    rw [Option.all_eq_true]
    intro c hc
    exact hp c (hdigits c (List.mem_of_mem_head? hc))
  refine ⟨?_, by simp, ?_, .inl rfl, fun _ => ?_, hdigits, rfl⟩
  · rw [List.append_nil]
    exact String.toList_ofList
  · rw [List.append_nil, List.nil_append]
    refine hfirst _ fun c hc => ?_
    rw [(plain_of_isDigit hc).1, Bool.not_false]
  · rw [List.append_nil]
    exact hfirst _ fun c hc => (plain_of_isDigit hc).2

/-- A counter that is given as a text is zero beyond the largest signed word. -/
theorem counter_text (n : Nat) :
    counter (some (.text (toString n))) = if n < 2 ^ 63 then n else 0 := by
  have hne : digitsOf n ≠ [] := Nat.toDigits_ne_nil
  have hread : leadingInt (some (.text (toString n))) = spelled [] (digitsOf n) :=
    (leadingParts_toString n).leadingIntOfText_eq
  rw [counter, hread, spelled, ← natOfDigits_eq_decimal, Json.natOfDigits_digitsOf,
    if_neg (by decide : ¬ ([] : List Char) = ['-']), one_mul]
  by_cases hfits : n < 2 ^ 63
  · rw [if_pos ⟨hne, by omega⟩, if_pos hfits, Int.toNat_natCast]
  · rw [if_neg (fun h => hfits (by omega)), if_neg hfits]
    rfl

/-! ## Samples of counters -/

/-- What a report says under each of its keys, as a counter. -/
def countersOf (report : Data) (key : String) : Nat := counter (report.field? key)

/-- A counter that is put into a report is the only one that changes. -/
theorem countersOf_put (report : Data) (key : String) (value : Data) :
    countersOf (report.put [key] value) =
      Function.update (countersOf report) key (counter (some value)) := by
  funext other
  unfold countersOf
  by_cases h : key = other
  · subst h
    rw [Data.field?_put_self, Data.put_nil, Function.update_self]
  · rw [Data.field?_put_ne h, Function.update_of_ne (Ne.symm h)]

/-- The counters of a sample of the sessions, under the keys of the report. -/
def SessionSample.counters : List (String × (SessionSample → Nat)) :=
  [("total_connections", totalConnections), ("active_connections", activeConnections),
    ("threads_connected", threadsConnected), ("threads_running", threadsRunning),
    ("max_used_connections", maxUsedConnections)]

/-- The counters of a sample of the pool, under the keys of the report. -/
def PoolSample.counters : List (String × (PoolSample → Nat)) :=
  [("max_connections", maxConnections), ("current_connections", currentConnections),
    ("available_connections", availableConnections), ("wait_timeout", waitTimeout)]

variable (iteration : Nat) (timestamp : Instant)

/-- The sample of the sessions that has some counters. -/
def SessionSample.ofCounters (counters : String → Nat) : SessionSample where
  iteration := iteration
  timestamp := timestamp
  totalConnections := counters "total_connections"
  activeConnections := counters "active_connections"
  threadsConnected := counters "threads_connected"
  threadsRunning := counters "threads_running"
  maxUsedConnections := counters "max_used_connections"

/-- The sample of the pool that has some counters. -/
def PoolSample.ofCounters (counters : String → Nat) : PoolSample where
  iteration := iteration
  timestamp := timestamp
  maxConnections := counters "max_connections"
  currentConnections := counters "current_connections"
  availableConnections := counters "available_connections"
  waitTimeout := counters "wait_timeout"

theorem SessionSample.counter_ofCounters (counters : String → Nat) {key : String}
    {value : SessionSample → Nat} (h : (key, value) ∈ SessionSample.counters) :
    value (ofCounters iteration timestamp counters) = counters key := by
  simp only [SessionSample.counters, List.mem_cons, Prod.mk.injEq, List.not_mem_nil, or_false] at h
  rcases h with ⟨rfl, rfl⟩ | ⟨rfl, rfl⟩ | ⟨rfl, rfl⟩ | ⟨rfl, rfl⟩ | ⟨rfl, rfl⟩ <;> rfl

theorem PoolSample.counter_ofCounters (counters : String → Nat) {key : String}
    {value : PoolSample → Nat} (h : (key, value) ∈ PoolSample.counters) :
    value (ofCounters iteration timestamp counters) = counters key := by
  simp only [PoolSample.counters, List.mem_cons, Prod.mk.injEq, List.not_mem_nil, or_false] at h
  rcases h with ⟨rfl, rfl⟩ | ⟨rfl, rfl⟩ | ⟨rfl, rfl⟩ | ⟨rfl, rfl⟩ <;> rfl

/-! ## The counters of a payload -/

/-- A counter in a report of a payload, and the counts of a timeline that it says. -/
structure CounterField where
  report : String
  key : String
  counts : Telemetry → List Nat

namespace CounterField

/-- Where a payload has the counter. -/
def path (field : CounterField) : List String := ["data", field.report, field.key]

/-- The counters of the report on the sessions and of the report on the pool. -/
def all : List CounterField :=
  (SessionSample.counters.map fun f => ⟨"session_info", f.1, (·.sessions.map f.2)⟩) ++
    PoolSample.counters.map fun f => ⟨"pool_info", f.1, (·.pools.map f.2)⟩

end CounterField

namespace Telemetry

variable {name other : String} {path : List String}

/-- What a payload says under the other names stays as it is. -/
theorem said_put_ne (hne : name ≠ other) (payload value : Data) :
    ((payload.put ("data" :: name :: path) value).field? "data").bind (·.field? other) =
      (payload.field? "data").bind (·.field? other) := by
  rw [Data.field?_put_self, Option.bind_some, Data.field?_put_ne hne]
  cases payload.field? "data" <;> rfl

theorem report?_put_ne (hne : name ≠ other) (payload value : Data) :
    report? (payload.put ("data" :: name :: path) value) other = report? payload other := by
  rw [report?_eq_filter, report?_eq_filter, said_put_ne hne]

/-- What a payload says under a name of its data; `null` if it says nothing. -/
def said (payload : Data) (name : String) : Data :=
  (((payload.field? "data").getD .null).field? name).getD .null

theorem report?_put_self (payload : Data) (name key : String) (value : Data) :
    report? (payload.put ["data", name, key] value) name =
      some ((said payload name).put [key] value) := by
  rw [report?_eq_filter, Data.field?_put_self, Option.bind_some, Data.field?_put_self]
  rfl

/-- A counter of the report on the sessions says nothing of the other samples. -/
theorem ofPayload_put_sessions (payload : Data) (key : String) (value : Data) :
    ofPayload iteration timestamp (payload.put ["data", "session_info", key] value) =
      ⟨[.ofCounters iteration timestamp
          (Function.update (countersOf (said payload "session_info")) key (counter (some value)))],
        (ofPayload iteration timestamp payload).pools,
        (ofPayload iteration timestamp payload).queries⟩ := by
  have hpools : "session_info" ≠ "pool_info" := by decide
  have hqueries : "session_info" ≠ "query_executions" := by decide
  rw [← countersOf_put]
  unfold ofPayload
  rw [report?_put_self, report?_put_ne hpools, said_put_ne hqueries]
  rfl

/-- A counter of the report on the pool says nothing of the other samples. -/
theorem ofPayload_put_pools (payload : Data) (key : String) (value : Data) :
    ofPayload iteration timestamp (payload.put ["data", "pool_info", key] value) =
      ⟨(ofPayload iteration timestamp payload).sessions,
        [.ofCounters iteration timestamp
          (Function.update (countersOf (said payload "pool_info")) key (counter (some value)))],
        (ofPayload iteration timestamp payload).queries⟩ := by
  have hsessions : "pool_info" ≠ "session_info" := by decide
  have hqueries : "pool_info" ≠ "query_executions" := by decide
  rw [← countersOf_put]
  unfold ofPayload
  rw [report?_put_self, report?_put_ne hsessions, said_put_ne hqueries]
  rfl

/-- A counter in a payload says one count of the timeline, and nothing else of it. -/
theorem exists_ofPayload_put {field : CounterField} (hfield : field ∈ CounterField.all)
    (payload : Data) :
    ∃ timeline : Nat → Telemetry, (∀ n, field.counts (timeline n) = [n]) ∧
      ∀ value, ofPayload iteration timestamp (payload.put field.path value) =
        timeline (counter (some value)) := by
  rcases List.mem_append.mp hfield with hsession | hpool
  · obtain ⟨⟨key, count⟩, hmem, rfl⟩ := List.mem_map.mp hsession
    refine ⟨fun n => ⟨[.ofCounters iteration timestamp
        (Function.update (countersOf (said payload "session_info")) key n)], _, _⟩,
      fun n => ?_, ofPayload_put_sessions iteration timestamp payload key⟩
    show [count (.ofCounters iteration timestamp _)] = [n]
    rw [SessionSample.counter_ofCounters iteration timestamp _ hmem, Function.update_self]
  · obtain ⟨⟨key, count⟩, hmem, rfl⟩ := List.mem_map.mp hpool
    refine ⟨fun n => ⟨_, [.ofCounters iteration timestamp
        (Function.update (countersOf (said payload "pool_info")) key n)], _⟩,
      fun n => ?_, ofPayload_put_pools iteration timestamp payload key⟩
    show [count (.ofCounters iteration timestamp _)] = [n]
    rw [PoolSample.counter_ofCounters iteration timestamp _ hmem, Function.update_self]

/-- A counter of 64 bits makes the same samples as a number and as a text if, and only if, it is a
    signed word, and then either of them says it. A larger one is the largest signed word as a number
    and zero as a text. -/
theorem spellings_agree_iff {n : Nat} (hn : n < 2 ^ 64) {field : CounterField}
    (hfield : field ∈ CounterField.all) (payload : Data) :
    (ofPayload iteration timestamp (payload.put field.path (.natural n)) =
        ofPayload iteration timestamp (payload.put field.path (.text (toString n))) ↔
      n < 2 ^ 63) ∧
    field.counts (ofPayload iteration timestamp (payload.put field.path (.natural n))) =
      [min n (2 ^ 63 - 1)] ∧
    field.counts (ofPayload iteration timestamp (payload.put field.path (.text (toString n)))) =
      [if n < 2 ^ 63 then n else 0] := by
  obtain ⟨timeline, hcounts, htimeline⟩ :=
    exists_ofPayload_put iteration timestamp hfield payload
  have hinjective : Function.Injective timeline := by
    intro a b h
    have hsame := congrArg field.counts h
    rw [hcounts, hcounts] at hsame
    exact List.singleton_inj.mp hsame
  rw [htimeline, htimeline, hcounts, hcounts, counter_natural hn, counter_text, hinjective.eq_iff]
  refine ⟨?_, rfl, rfl⟩
  split_ifs <;> omega

/-- The largest counter, said of the time-out of the pool and of nothing else. -/
theorem spellings_agree_iff_waitTimeout :
    2 ^ 64 - 1 < 2 ^ 64 ∧
    ⟨"pool_info", "wait_timeout", (·.pools.map (·.waitTimeout))⟩ ∈ CounterField.all ∧
    (ofPayload 0 .epoch (Data.null.put ["data", "pool_info", "wait_timeout"]
      (.natural (2 ^ 64 - 1)))).pools.map (·.waitTimeout) = [2 ^ 63 - 1] ∧
    (ofPayload 0 .epoch (Data.null.put ["data", "pool_info", "wait_timeout"]
      (.text "18446744073709551615"))).pools.map (·.waitTimeout) = [0] := by
  have hmem : ⟨"pool_info", "wait_timeout", (·.pools.map (·.waitTimeout))⟩ ∈ CounterField.all := by
    simp [CounterField.all, SessionSample.counters, PoolSample.counters]
  obtain ⟨-, hnumber, htext⟩ :=
    spellings_agree_iff 0 .epoch (by decide : 2 ^ 64 - 1 < 2 ^ 64) hmem .null
  exact ⟨by decide, hmem, hnumber, htext⟩

/-- The two spellings do not always make the same samples. -/
theorem not_spellings_agree :
    ¬ ∀ n < 2 ^ 64, ∀ field ∈ CounterField.all, ∀ (iteration : Nat) (timestamp : Instant)
      (payload : Data),
      ofPayload iteration timestamp (payload.put field.path (.natural n)) =
        ofPayload iteration timestamp (payload.put field.path (.text (toString n))) := by
  intro h
  have hagree := h (2 ^ 63) (by decide) ⟨"session_info", "total_connections", _⟩ (.head _) 0 .epoch
    (.record [])
  revert hagree
  decide

end Telemetry

end LoadBench
