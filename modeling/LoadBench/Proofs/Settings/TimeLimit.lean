import LoadBench.Proofs.Binary64.Exact
import LoadBench.Proofs.Run.Delays
import LoadBench.Settings

/-!
# How long a call may take

The limit of a call is a number of seconds, rounded to whole nanoseconds: the delay that the call
asks for and the margin on top, or the default for a call that asks for none. Where this number is
no span of time, the default takes its place, and half a minute that of a default which is none. So
the limit covers the delay unless the delay with the margin on top is too long for a span, and it is
positive unless so little time is asked for that it is rounded to none.

Results:
* `Settings.nanoseconds?_of_span`, `Settings.nanoseconds?_of_not_span`: which numbers of seconds are
  spans, and what they are rounded to.
* `Settings.isNearestEven_timeLimit`: what the limit is, whatever the settings and the call.
* `Settings.timeLimit_covers`: when the limit covers the delay.
* `Settings.timeLimit_spec`: the limit of a call of an accepted scenario under accepted settings.
-/

namespace LoadBench

open Binary64

namespace Settings

/-! ## Spans of time -/

/-- The value of a number of seconds that is a span of time: one that is not negative and less than
    `2 ^ 64`. -/
def span? (x : Float) : Option ℚ :=
  (dyad? x).bind fun d => if 0 ≤ d.value ∧ d.value < 2 ^ 64 then some d.value else none

variable {x y : Float} {q : ℚ}

theorem span?_eq_some_iff :
    span? x = some q ↔ ∃ d, dyad? x = some d ∧ d.value = q ∧ 0 ≤ q ∧ q < 2 ^ 64 := by
  unfold span?
  cases dyad? x with
  | none => simp
  | some d =>
    simp only [Option.bind_some]
    split_ifs with h
    · simp only [Option.some.injEq, exists_eq_left']
      constructor
      · rintro rfl
        exact ⟨rfl, h⟩
      · exact fun hq => hq.1
    · simp only [Option.some.injEq, exists_eq_left', false_iff]
      rintro ⟨rfl, hq⟩
      exact h hq

theorem nanosPerSecond_eq : ((nanosPerSecond : Nat) : ℚ) = 10 ^ 9 := by norm_num [nanosPerSecond]

/-- The nanoseconds of the first number of seconds that is no span any more. -/
theorem size_nanos_eq : ((Counter.size * nanosPerSecond : Nat) : ℚ) = 2 ^ 64 * 10 ^ 9 := by
  norm_num [nanosPerSecond, Counter.size]

/-- Only numbers of seconds that are no spans are rounded to so many nanoseconds. -/
theorem size_nanos_le_iff {d : Dyad} {n : Nat} (hx : dyad? x = some d)
    (hn : IsNearestEven n (d.magnitude * 10 ^ 9)) :
    Counter.size * nanosPerSecond ≤ n ↔ 2 ^ 64 ≤ d.magnitude := by
  have hlow := hn.low
  have hhigh := hn.high
  constructor
  · intro h
    by_contra hlt
    have hgap := magnitude_le_pred hx (by norm_num) (not_le.mp hlt)
    have hle : (2 ^ 64 * 10 ^ 9 : ℚ) ≤ n := size_nanos_eq.symm.trans_le (Nat.cast_le.mpr h)
    linarith
  · intro h
    by_contra hlt
    have hle : ((n + 1 : Nat) : ℚ) ≤ 2 ^ 64 * 10 ^ 9 :=
      (Nat.cast_le.mpr (Nat.not_le.mp hlt)).trans_eq size_nanos_eq
    push_cast at hle
    linarith

/-- What a finite number of seconds comes to. -/
theorem nanoseconds?_of_dyad? {d : Dyad} (hx : dyad? x = some d) :
    ∃ n, IsNearestEven n (d.magnitude * 10 ^ 9) ∧
      nanoseconds? x = if 0 ≤ d.value ∧ d.value < 2 ^ 64 then some n else none := by
  have hnearest := (d.scale nanosPerSecond).isNearestEven_wholeEven
  rw [Dyad.magnitude_scale, nanosPerSecond_eq] at hnearest
  refine ⟨_, hnearest, ?_⟩
  have hlarge := size_nanos_le_iff hx hnearest
  have hnegative := d.value_neg_iff
  unfold nanoseconds?
  rw [hx]
  simp only [Bool.or_eq_true, decide_eq_true_eq]
  by_cases hspan : 0 ≤ d.value ∧ d.value < 2 ^ 64
  · rw [if_pos hspan, if_neg]
    rintro (hneg | hbig)
    · exact (hnegative.mp hneg).not_ge hspan.1
    · exact (hlarge.mp hbig).not_gt (d.value_eq_magnitude hspan.1 ▸ hspan.2)
  · rw [if_neg hspan, if_pos]
    by_cases hneg : d.value < 0
    · exact .inl (hnegative.mpr hneg)
    · have hnonneg := not_lt.mp hneg
      have hbig : ¬ d.value < 2 ^ 64 := fun hless => hspan ⟨hnonneg, hless⟩
      rw [d.value_eq_magnitude hnonneg, not_lt] at hbig
      exact .inr (hlarge.mpr hbig)

/-- A span is rounded to the nearest whole number of nanoseconds. -/
theorem nanoseconds?_of_span (h : span? x = some q) :
    ∃ n, nanoseconds? x = some n ∧ IsNearestEven n (q * 10 ^ 9) := by
  obtain ⟨d, hx, rfl, hspan⟩ := span?_eq_some_iff.mp h
  obtain ⟨n, hnearest, hnanos⟩ := nanoseconds?_of_dyad? hx
  rw [← d.value_eq_magnitude hspan.1] at hnearest
  exact ⟨n, hnanos.trans (if_pos hspan), hnearest⟩

theorem nanoseconds?_of_not_span (h : span? x = none) : nanoseconds? x = none := by
  cases hx : dyad? x with
  | none => rw [nanoseconds?, hx]
  | some d =>
    obtain ⟨n, -, hnanos⟩ := nanoseconds?_of_dyad? hx
    rw [hnanos, if_neg]
    intro hspan
    rw [span?_eq_some_iff.mpr ⟨d, hx, rfl, hspan⟩] at h
    cases h

/-- A number of seconds that is not negative is a span if it is less than `2 ^ 64`. -/
theorem isSome_span?_iff (hx0 : 0.0 ≤ x) : (span? x).isSome ↔ x < 18446744073709551616.0 := by
  have hend : dyad? 18446744073709551616.0 = some ⟨false, 2 ^ 52, 12⟩ := by decide
  have hendvalue : (Dyad.mk false (2 ^ 52) 12).value = 2 ^ 64 := by
    norm_num [Dyad.value, Dyad.magnitude]
  have hendnan : (18446744073709551616.0 : Float).isNaN = false := by decide
  have hxnan := (not_isNaN_of_le hx0).2
  by_cases hfinite : (number x).isFinite = true
  · obtain ⟨d, hd⟩ := exists_dyad? hfinite
    have hnonneg := value_nonneg hd hx0
    have hle := le_iff_value_le hend hd (by decide)
    rw [hendvalue, le_iff hendnan hxnan] at hle
    rw [lt_iff hxnan hendnan, ← not_le, hle, not_le, Option.isSome_iff_exists]
    constructor
    · rintro ⟨q, hq⟩
      obtain ⟨d', hd', rfl, -, hless⟩ := span?_eq_some_iff.mp hq
      obtain rfl : d = d' := Option.some_inj.mp (hd.symm.trans hd')
      exact hless
    · exact fun hless => ⟨d.value, span?_eq_some_iff.mpr ⟨d, hd, rfl, hnonneg, hless⟩⟩
  · -- infinity is no span, and not less than any number
    have hinfinite := mt isFinite_iff.mpr hfinite
    have hendplace : level (number 18446744073709551616.0) < infinitePlace := by decide
    have hnone : ¬ (span? x).isSome := by
      intro hsome
      obtain ⟨q, hq⟩ := Option.isSome_iff_exists.mp hsome
      obtain ⟨d, hd, -⟩ := span?_eq_some_iff.mp hq
      exact hfinite (isFinite_of_dyad? hd)
    refine iff_of_false hnone ?_
    rw [lt_iff hxnan hendnan, level_of_nonneg hx0]
    omega

/-! ## Limits -/

/-- The seconds that a call asks for, with the margin on top, or the default. -/
def askedSeconds (s : Settings) (c : Call) : Float :=
  match c.timeoutSecs with
  | some t => t + s.timeoutMarginSecs
  | none => s.defaultTimeoutSecs

/-- The seconds that a call may take: what it asks for, or the default where that is no span, or
    half a minute where that is none either. -/
def limitSeconds (s : Settings) (c : Call) : ℚ :=
  ((span? (s.askedSeconds c)).or (span? s.defaultTimeoutSecs)).getD 30

variable {s : Settings} {c : Call}

/-- The first of three numbers of seconds that is a span gives the limit. -/
theorem timeLimit_eq (s : Settings) (c : Call) :
    s.timeLimit c = ((nanoseconds? (s.askedSeconds c)).or
      (nanoseconds? s.defaultTimeoutSecs)).getD (30 * nanosPerSecond) := by
  unfold timeLimit askedSeconds
  cases c.timeoutSecs with
  | none =>
    simp only
    cases nanoseconds? s.defaultTimeoutSecs <;> rfl
  | some t =>
    simp only
    cases nanoseconds? (t + s.timeoutMarginSecs) <;> rfl

/-- The limit is what a call may take, rounded to whole nanoseconds. -/
theorem isNearestEven_timeLimit (s : Settings) (c : Call) :
    IsNearestEven (s.timeLimit c) (s.limitSeconds c * 10 ^ 9) := by
  rw [timeLimit_eq, limitSeconds]
  cases hasked : span? (s.askedSeconds c) with
  | some q =>
    obtain ⟨n, hn, hnearest⟩ := nanoseconds?_of_span hasked
    rw [hn]
    exact hnearest
  | none =>
    rw [nanoseconds?_of_not_span hasked]
    cases hdefault : span? s.defaultTimeoutSecs with
    | some q =>
      obtain ⟨n, hn, hnearest⟩ := nanoseconds?_of_span hdefault
      rw [hn]
      exact hnearest
    | none =>
      rw [nanoseconds?_of_not_span hdefault]
      have hlast : (30 * 10 ^ 9 : ℚ) = (30 * nanosPerSecond : Nat) := by norm_num [nanosPerSecond]
      show IsNearestEven (30 * nanosPerSecond) (30 * 10 ^ 9)
      rw [hlast]
      exact .natCast _

/-- The limit covers a delay, if the delay with the margin on top is a span. -/
theorem timeLimit_covers {t : Float} (ht : c.timeoutSecs = some t) (htfinite : t.isFinite = true)
    (ht0 : 0.0 ≤ t) (hmargin : s.timeoutMarginSecs.isFinite = true)
    (hmargin0 : 0.0 ≤ s.timeoutMarginSecs)
    (hspan : t + s.timeoutMarginSecs < 18446744073709551616.0) :
    ∃ q, span? t = some q ∧ ∀ n, IsNearestEven n (q * 10 ^ 9) → n ≤ s.timeLimit c := by
  have hle := le_add_of_nonneg htfinite hmargin hmargin0
  have hsum0 := float_le_trans ht0 hle
  obtain ⟨r, hr⟩ := Option.isSome_iff_exists.mp ((isSome_span?_iff hsum0).mpr hspan)
  obtain ⟨d', hd', rfl, -, hless⟩ := span?_eq_some_iff.mp hr
  obtain ⟨d, hd⟩ := exists_dyad? htfinite
  have hvalue := (le_iff_value_le hd hd' ht0).mp hle
  refine ⟨d.value, span?_eq_some_iff.mpr
    ⟨d, hd, rfl, value_nonneg hd ht0, hvalue.trans_lt hless⟩, fun n hn => ?_⟩
  have hlimit := isNearestEven_timeLimit s c
  have hasked : s.askedSeconds c = t + s.timeoutMarginSecs := by rw [askedSeconds, ht]
  rw [limitSeconds, hasked, hr] at hlimit
  exact hn.mono hlimit (mul_le_mul_of_nonneg_right hvalue (by norm_num))

/-! ## Accepted settings and scenarios -/

theorem margin_of_validate (h : s.validate = .ok ()) :
    s.timeoutMarginSecs.isFinite = true ∧ 0.0 ≤ s.timeoutMarginSecs := by
  by_contra hbad
  have hmargin :
      (!(s.timeoutMarginSecs.isFinite && decide (0.0 ≤ s.timeoutMarginSecs))) = true := by
    rw [Bool.not_eq_true', ← Bool.not_eq_true, Bool.and_eq_true, decide_eq_true_iff]
    exact hbad
  obtain ⟨cause, hcause⟩ : ∃ cause, s.fault? = some cause := by
    unfold fault?
    rw [if_pos hmargin]
    split_ifs <;> first | exact ⟨_, rfl⟩ | (cases s.burstPhases.find? _ <;> exact ⟨_, rfl⟩)
  rw [validate, hcause] at h
  cases h

/-- The limit of a call of an accepted scenario under accepted settings: it is what the call may
    take, rounded to whole nanoseconds; it is positive unless this is half a nanosecond or less; and
    it covers the delay of the call, if the delay with the margin on top is less than `2 ^ 64`
    seconds. -/
theorem timeLimit_spec {plan : Scenario} (hs : s.validate = .ok ()) (hplan : plan.validate = .ok ())
    (hc : c ∈ plan.calls) :
    IsNearestEven (s.timeLimit c) (s.limitSeconds c * 10 ^ 9) ∧
    (0 < s.timeLimit c ↔ 1 / 2 < s.limitSeconds c * 10 ^ 9) ∧
    ∀ t, c.timeoutSecs = some t → t + s.timeoutMarginSecs < 18446744073709551616.0 →
      ∃ q, span? t = some q ∧ ∀ n, IsNearestEven n (q * 10 ^ 9) → n ≤ s.timeLimit c := by
  have hlimit := isNearestEven_timeLimit s c
  refine ⟨hlimit, hlimit.pos_iff, fun t ht hspan => ?_⟩
  obtain ⟨hmargin, hmargin0⟩ := margin_of_validate hs
  have husable := Scenario.usable_of_validate hplan hc
  obtain ⟨hfinite, hnonneg⟩ := (Call.asksWell_iff.mpr husable).delay t ht
  have ht0 := float_le_of_not_lt (by decide) (isNaN_of_isFinite hfinite) hnonneg
  exact timeLimit_covers ht hfinite ht0 hmargin hmargin0 hspan

/-- A call that asks for a delay of so many seconds, and a scenario of this call alone. -/
def delayed (seconds : Float) : Call :=
  { Call.plain ⟨"wait", "Wait", []⟩ with timeoutSecs := some seconds }

@[inherit_doc delayed]
def delayedOnce (seconds : Float) : Scenario :=
  (Scenario.new "wait" "").addRepeated (delayed seconds) 1

theorem timeLimit_spec_delayed :
    IsNearestEven (standard.timeLimit (delayed 2.5))
      (standard.limitSeconds (delayed 2.5) * 10 ^ 9) ∧
    standard.timeLimit (delayed 2.5) = 12500000000 ∧
    1 / 2 < standard.limitSeconds (delayed 2.5) * 10 ^ 9 ∧
    ∃ q, span? 2.5 = some q ∧
      ∀ n, IsNearestEven n (q * 10 ^ 9) → n ≤ standard.timeLimit (delayed 2.5) := by
  obtain ⟨hnearest, hpos, hcovers⟩ :=
    @timeLimit_spec standard (delayed 2.5) (delayedOnce 2.5) rfl rfl (by decide)
  exact ⟨hnearest, by decide, hpos.mp (by decide), hcovers 2.5 rfl (by decide)⟩

/-- No delay and no margin leave no time for a call, and a margin that makes the sum too long for a
    span leaves a call less than its delay. -/
theorem not_timeLimit_spec :
    (¬ ∀ (s : Settings) (plan : Scenario) (c : Call), s.validate = .ok () →
      plan.validate = .ok () → c ∈ plan.calls → 0 < s.timeLimit c) ∧
    ¬ ∀ (s : Settings) (plan : Scenario) (c : Call), s.validate = .ok () →
      plan.validate = .ok () → c ∈ plan.calls → ∀ t d, c.timeoutSecs = some t → dyad? t = some d →
        ∀ n, IsNearestEven n (d.value * 10 ^ 9) → n ≤ s.timeLimit c := by
  constructor
  · intro h
    have hpos := h { standard with timeoutMarginSecs := 0.0 } (delayedOnce 0.0) (delayed 0.0) rfl
      rfl (by decide)
    revert hpos
    decide
  · intro h
    have hdelay : dyad? 60.0 = some ⟨false, 60 * 2 ^ 47, -47⟩ := by decide
    have hnanos : (Dyad.mk false (60 * 2 ^ 47) (-47)).value * 10 ^ 9 = (60 * 10 ^ 9 : Nat) := by
      norm_num [Dyad.value, Dyad.magnitude]
    have hcovered := h { standard with timeoutMarginSecs := 2e19 } (delayedOnce 60.0)
      (delayed 60.0) rfl rfl (by decide) 60.0 _ rfl hdelay (60 * 10 ^ 9) (hnanos ▸ .natCast _)
    revert hcovered
    decide

end Settings

end LoadBench
