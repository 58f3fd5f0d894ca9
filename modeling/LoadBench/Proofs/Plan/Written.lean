import LoadBench.Plan.Mix
import LoadBench.Plan.Scenario
import LoadBench.Proofs.Data.Restores
import LoadBench.Settings

/-!
# Written plans and settings are restored

What stands for the written form of a plan or of settings, its reader takes back to what was
written, whatever the form of data is, as long as it is faithful. The counts must be ones that a
counter can hold.

Results:
* `Endpoint.restores`, `Complexity.restores`, `Call.restores`: an optional field is found where it
  was written, and missed where it was left out.
* `Scenario.restores`, `Mix.restores`, `Settings.restores`: no default is used in the place of what
  was written.
-/

namespace LoadBench

open Source

variable {δ : Type} [Source δ] {R : δ → Data → Prop}

/-! ## Endpoints and calls -/

theorem Endpoint.restores (hR : Faithful R) (e : Endpoint) :
    Restores R Endpoint.read? e.data e := by
  unfold Endpoint.read? Endpoint.data
  refine restores_record hR (by simp) ?_
  refine (gives_required (by simp) (restores_text hR e.path)).bind ?_
  refine (gives_required (by simp) (restores_text hR e.label)).bind ?_
  have hparams := restores_listOf hR e.params fun s _ => restores_text hR s
  refine (gives_defaulted (by simp) [] hparams).bind ?_
  exact gives_pure e

theorem Complexity.restores (hR : Faithful R) (c : Complexity) :
    Restores R Complexity.read? c.data c := by
  apply restores_choice hR
  cases c <;> rfl

namespace Call

/-- The counts of the call can be held. -/
def Fits (c : Call) : Prop := ∀ n ∈ c.queryCount, n < Nat.pow 2 32

instance (c : Call) : Decidable c.Fits := by
  unfold Fits
  infer_instance

/-- The fields of the written form. -/
def entries (c : Call) : List (String × Data) :=
  ("endpoint", c.endpoint.data) :: Data.optionalField "timeout_secs" .real c.timeoutSecs
    ++ Data.optionalField "query_count" Data.natural c.queryCount
    ++ Data.optionalField "operation" .text c.operation
    ++ Data.optionalField "complexity" Complexity.data c.complexity

theorem nodup_keys_entries (c : Call) : (Data.keys c.entries).Nodup := by
  unfold entries
  simp [List.nodup_append]
  grind

theorem restores (hR : Faithful R) {c : Call} (hfits : c.Fits) :
    Restores R Call.read? c.data c := by
  unfold Call.read? readWith?
  refine restores_record hR c.nodup_keys_entries ?_
  refine (gives_required (by simp) (Endpoint.restores hR c.endpoint)).bind ?_
  refine (gives_optionalField hR .real c.timeoutSecs ?_ ?_ fun x _ =>
    ⟨Data.noConfusion, restores_real hR x⟩).bind ?_
  · intro f hf
    simp [hf]
  · simp
  refine (gives_optionalField hR Data.natural c.queryCount ?_ ?_ fun n hn =>
    ⟨Data.noConfusion, restores_smallCount hR (hfits n hn)⟩).bind ?_
  · intro f hf
    simp [hf]
  · simp
  refine (gives_optionalField hR .text c.operation ?_ ?_ fun s _ =>
    ⟨Data.noConfusion, restores_text hR s⟩).bind ?_
  · intro f hf
    simp [hf]
  · simp
  refine (gives_optionalField hR Complexity.data c.complexity ?_ ?_ fun x _ =>
    ⟨Data.noConfusion, Complexity.restores hR x⟩).bind ?_
  · intro f hf
    simp [hf]
  · simp
  exact gives_pure c

end Call

namespace Scenario

/-- The counts of the scenario can be held. -/
def Fits (s : Scenario) : Prop := s.iterations < Counter.size ∧ ∀ c ∈ s.calls, c.Fits

instance (s : Scenario) : Decidable s.Fits := by
  unfold Fits
  infer_instance

theorem restores (hR : Faithful R) {s : Scenario} (hfits : s.Fits) :
    Restores R Scenario.read? s.data s := by
  obtain ⟨hiterations, hcalls⟩ := hfits
  unfold Scenario.read? Scenario.data
  refine restores_record hR (by simp) ?_
  refine (gives_required (by simp) (restores_text hR s.name)).bind ?_
  refine (gives_defaulted (by simp) "" (restores_text hR s.description)).bind ?_
  have hlist := restores_listOf hR _ fun c hc => Call.restores hR (hcalls c hc)
  refine (gives_required (by simp) hlist).bind ?_
  refine (gives_defaulted (by simp) 1 (restores_count hR hiterations)).bind ?_
  refine (gives_defaulted (by simp) false (restores_flag hR s.triggersStream)).bind ?_
  exact gives_pure s

end Scenario

/-! ## Mixes -/

namespace RequestKind

/-- The counts of the kind of request can be held. -/
def Fits (k : RequestKind) : Prop :=
  (∀ n ∈ k.queryCount, n < Nat.pow 2 32) ∧ k.expectedMs < Counter.size

instance (k : RequestKind) : Decidable k.Fits := by
  unfold Fits
  infer_instance

theorem restores (hR : Faithful R) {k : RequestKind} (hfits : k.Fits) :
    Restores R RequestKind.read? k.data k := by
  obtain ⟨hqueries, hexpected⟩ := hfits
  unfold RequestKind.read? RequestKind.data
  refine restores_record hR (by simp) ?_
  refine (gives_required (by simp) (Endpoint.restores hR k.endpoint)).bind ?_
  have hcount := restores_optional hR Data.natural _ fun n hn =>
    ⟨Data.noConfusion, restores_smallCount hR (hqueries n hn)⟩
  refine (gives_defaulted (by simp) none hcount).bind ?_
  have hdelay := restores_optional hR Data.real k.timeoutSecs fun x _ =>
    ⟨Data.noConfusion, restores_real hR x⟩
  refine (gives_defaulted (by simp) none hdelay).bind ?_
  refine (gives_defaulted (by simp) 0 (restores_count hR hexpected)).bind ?_
  refine (gives_required (by simp) (Complexity.restores hR k.complexity)).bind ?_
  exact gives_pure k

end RequestKind

theorem Weighted.restores {α : Type} (hR : Faithful R) (name : String) {write : α → Data}
    {read : δ → Option α} {w : Weighted α} (hname : name ≠ "weight")
    (hitem : Restores R read (write w.item) w.item) :
    Restores R (Weighted.read? name read) (w.data name write) w := by
  unfold Weighted.read? Weighted.data
  refine restores_record hR (by simp [hname]) ?_
  refine (gives_required (by simp) hitem).bind ?_
  refine (gives_defaulted (by simp) 1.0 (restores_real hR w.weight)).bind ?_
  exact gives_pure w

namespace Page

/-- The counts of the page can be held. -/
def Fits (p : Page) : Prop := ∀ w ∈ p.requests, w.item.Fits

instance (p : Page) : Decidable p.Fits := by
  unfold Fits
  infer_instance

theorem restores (hR : Faithful R) {p : Page} (hfits : p.Fits) :
    Restores R Page.read? p.data p := by
  unfold Page.read? Page.data
  refine restores_record hR (by simp) ?_
  refine (gives_required (by simp) (restores_text hR p.name)).bind ?_
  refine (gives_defaulted (by simp) "" (restores_text hR p.description)).bind ?_
  have hlist := restores_listOf hR _ fun w hw =>
    Weighted.restores hR "request" (by decide) (RequestKind.restores hR (hfits w hw))
  refine (gives_required (by simp) hlist).bind ?_
  exact gives_pure p

end Page

namespace UserAction

/-- The counts of the action can be held. -/
def Fits (a : UserAction) : Prop := ∀ p ∈ a.pages, p.Fits

instance (a : UserAction) : Decidable a.Fits := by
  unfold Fits
  infer_instance

theorem restores (hR : Faithful R) {a : UserAction} (hfits : a.Fits) :
    Restores R UserAction.read? a.data a := by
  unfold UserAction.read? UserAction.data
  refine restores_record hR (by simp) ?_
  refine (gives_required (by simp) (restores_text hR a.name)).bind ?_
  refine (gives_defaulted (by simp) "" (restores_text hR a.description)).bind ?_
  have hlist := restores_listOf hR _ fun p hp => Page.restores hR (hfits p hp)
  refine (gives_required (by simp) hlist).bind ?_
  exact gives_pure a

end UserAction

namespace Mix

/-- The counts of the mix can be held. -/
def Fits (m : Mix) : Prop := m.users < Counter.size ∧ ∀ w ∈ m.actions, w.item.Fits

instance (m : Mix) : Decidable m.Fits := by
  unfold Fits
  infer_instance

theorem restores (hR : Faithful R) {m : Mix} (hfits : m.Fits) :
    Restores R Mix.read? m.data m := by
  obtain ⟨husers, hactions⟩ := hfits
  unfold Mix.read? Mix.data
  refine restores_record hR (by simp) ?_
  refine (gives_required (by simp) (restores_text hR m.name)).bind ?_
  refine (gives_defaulted (by simp) "" (restores_text hR m.description)).bind ?_
  refine (gives_required (by simp) (restores_count hR husers)).bind ?_
  have hlist := restores_listOf hR _ fun w hw =>
    Weighted.restores hR "action" (by decide) (UserAction.restores hR (hactions w hw))
  refine (gives_required (by simp) hlist).bind ?_
  exact gives_pure m

end Mix

/-! ## Settings -/

theorem StatusPolicy.restores (hR : Faithful R) (p : StatusPolicy) :
    Restores R StatusPolicy.read? p.data p := by
  apply restores_choice hR
  cases p <;> rfl

theorem Verbosity.restores (hR : Faithful R) (v : Verbosity) :
    Restores R Verbosity.read? v.data v := by
  apply restores_choice hR
  cases v <;> rfl

theorem BurstPhase.restores (hR : Faithful R) (p : BurstPhase) :
    Restores R BurstPhase.read? p.data p := by
  unfold BurstPhase.read? readWith? BurstPhase.data
  refine restores_record hR (by simp) ?_
  refine (gives_required (by simp) (restores_text hR p.name)).bind ?_
  refine (gives_required (by simp) (restores_real hR p.fraction)).bind ?_
  exact gives_pure p

namespace Settings

/-- The counts of the settings can be held. -/
def Fits (s : Settings) : Prop := s.rampStages < Counter.size ∧ s.maxIdlePerHost < Counter.size

instance (s : Settings) : Decidable s.Fits := by
  unfold Fits
  infer_instance

theorem restores (hR : Faithful R) {s : Settings} (hfits : s.Fits) :
    Restores R Settings.read? s.data s := by
  obtain ⟨hstages, hidle⟩ := hfits
  unfold Settings.read? Settings.data
  refine restores_record hR (by simp) ?_
  refine (gives_defaulted (by simp) _ (restores_text hR s.baseUrl)).bind ?_
  refine (gives_defaulted (by simp) _ (restores_text hR s.apiPrefix)).bind ?_
  refine (gives_defaulted (by simp) _ (StatusPolicy.restores hR s.statusPolicy)).bind ?_
  refine (gives_defaulted (by simp) _ (restores_real hR s.timeoutMarginSecs)).bind ?_
  refine (gives_defaulted (by simp) _ (restores_real hR s.defaultTimeoutSecs)).bind ?_
  refine (gives_defaulted (by simp) _ (restores_count hR hstages)).bind ?_
  have hphases := restores_listOf hR s.burstPhases fun p _ => BurstPhase.restores hR p
  refine (gives_defaulted (by simp) _ hphases).bind ?_
  refine (gives_defaulted (by simp) _ (restores_count hR hidle)).bind ?_
  refine (gives_defaulted (by simp) _ (Verbosity.restores hR s.verbosity)).bind ?_
  exact gives_pure s

end Settings

end LoadBench
