import LoadBench.Proofs.Text.Trimming
import LoadBench.Settings

/-!
# Settings under an environment

An environment may name another service and another policy. A blank address is passed over; any
other one is taken as it is, blanks around it included. A policy may be spelled in several ways,
with blanks around it and in capitals, but a text that spells none is a fault. Nothing else of the
settings changes, and what was accepted stays so, since an address that is taken is not blank.

Results:
* `StatusPolicy.parse_eq_ok_iff`, `StatusPolicy.parse_eq_error_iff`: which texts spell a policy.
* `Settings.withEnvironment_eq_ok_iff`, `Settings.withEnvironment_eq_error_iff`: what the settings
  are under an environment, and for which there are none.
* `Settings.environment_overrides`: all of this, and that it is done once and for all.
-/

namespace LoadBench

open Text (IsBlank Trims)

/-! ## Spellings of a policy -/

namespace StatusPolicy

variable {text : String} {p : StatusPolicy} {fault : Fault}

/-- The spellings of a policy. -/
def spellings : StatusPolicy → List String
  | ignore => ["ignore"]
  | requireSuccess => ["require_success", "require-success", "strict"]

/-- A text spells a policy: without the blanks around it, and with its ASCII capitals lowered, it is
    one of the spellings. -/
def Spells (text : String) (p : StatusPolicy) : Prop :=
  ∃ word, Trims text word ∧ Text.lowerAscii word ∈ p.spellings

theorem spells_iff : Spells text p ↔ Text.lowerAscii (Text.trim text) ∈ p.spellings := by
  constructor
  · rintro ⟨word, hword, hspelling⟩
    rwa [hword.trim_eq]
  · exact fun h => ⟨_, Text.trims_trim text, h⟩

/-- What is read of a word in lower case. -/
theorem parse_cases (text : String) :
    (∃ p, Spells text p ∧ parse text = .ok p) ∨
      (∀ p, ¬ Spells text p) ∧ parse text =
        .error (.settings (.unknownStatusPolicy (Text.lowerAscii (Text.trim text)))) := by
  simp only [spells_iff, parse]
  generalize Text.lowerAscii (Text.trim text) = word
  by_cases hignore : word = "ignore"
  · exact .inl ⟨ignore, by simp [spellings, hignore], by simp [hignore]⟩
  by_cases hsuccess : word ∈ requireSuccess.spellings
  · refine .inl ⟨requireSuccess, hsuccess, ?_⟩
    simp only [spellings, List.mem_cons, List.not_mem_nil, or_false] at hsuccess
    rcases hsuccess with rfl | rfl | rfl <;> rfl
  · refine .inr ⟨fun p => ?_, ?_⟩
    · cases p with
      | ignore => simpa [spellings] using hignore
      | requireSuccess => exact hsuccess
    · simp only [spellings, List.mem_cons, List.not_mem_nil, or_false, not_or] at hsuccess
      simp [hignore, hsuccess]

/-- No text spells two policies. -/
theorem Spells.unique {p' : StatusPolicy} (h : Spells text p) (h' : Spells text p') : p = p' := by
  have hdisjoint : ∀ word ∈ p.spellings, word ∈ p'.spellings → p = p' := by
    cases p <;> cases p' <;> decide
  exact hdisjoint _ (spells_iff.mp h) (spells_iff.mp h')

theorem parse_eq_ok_iff : parse text = .ok p ↔ Spells text p := by
  rcases parse_cases text with ⟨p', hp', hparse⟩ | ⟨hnone, hparse⟩
  · rw [hparse, Except.ok.injEq]
    exact ⟨fun h => h ▸ hp', fun h => hp'.unique h⟩
  · rw [hparse]
    exact iff_of_false (fun h => nomatch h) (hnone p)

theorem parse_eq_error_iff : parse text = .error fault ↔ (∀ p, ¬ Spells text p) ∧
    ∃ word, Trims text word ∧
      fault = .settings (.unknownStatusPolicy (Text.lowerAscii word)) := by
  rcases parse_cases text with ⟨p', hp', hparse⟩ | ⟨hnone, hparse⟩
  · rw [hparse]
    exact iff_of_false (fun h => nomatch h) fun h => h.1 p' hp'
  · rw [hparse, Except.error.injEq]
    constructor
    · rintro rfl
      exact ⟨hnone, _, Text.trims_trim text, rfl⟩
    · rintro ⟨-, word, hword, rfl⟩
      rw [hword.trim_eq]

end StatusPolicy

/-! ## Overrides -/

namespace Settings

variable {s s' : Settings} {env : String → Option String} {fault : Fault}

/-- What an environment makes of settings: an address that is not blank and a policy are taken from
    it, and all else stays as it is. -/
structure Overrides (env : String → Option String) (s s' : Settings) : Prop where
  rest : s' = { s with baseUrl := s'.baseUrl, statusPolicy := s'.statusPolicy }
  baseUrl : ∀ url, env baseUrlVariable = some url → ¬ IsBlank url → s'.baseUrl = url
  baseUrl_kept : (∀ url, env baseUrlVariable = some url → IsBlank url) → s'.baseUrl = s.baseUrl
  policy : ∀ text, env statusPolicyVariable = some text →
    StatusPolicy.Spells text s'.statusPolicy
  policy_kept : env statusPolicyVariable = none → s'.statusPolicy = s.statusPolicy

/-- The address under an environment. -/
def addressUnder (env : String → Option String) (s : Settings) : String :=
  match env baseUrlVariable with
  | some url => if IsBlank url then s.baseUrl else url
  | none => s.baseUrl

theorem withEnvironment_eq (s : Settings) (env : String → Option String) :
    s.withEnvironment env =
      match env statusPolicyVariable with
      | some text => (StatusPolicy.parse text).map fun p =>
          { s with baseUrl := addressUnder env s, statusPolicy := p }
      | none => .ok { s with baseUrl := addressUnder env s } := by
  unfold withEnvironment addressUnder
  generalize StatusPolicy.parse = parse
  cases env baseUrlVariable with
  | none =>
    cases env statusPolicyVariable with
    | none => rfl
    | some text => cases parse text <;> rfl
  | some url =>
    simp only [Text.isEmpty_trim_iff]
    split_ifs <;>
      cases env statusPolicyVariable with
      | none => rfl
      | some text => cases parse text <;> rfl

theorem addressUnder_of_some {url : String} (h : env baseUrlVariable = some url) :
    addressUnder env s = if IsBlank url then s.baseUrl else url := by
  rw [addressUnder, h]

theorem addressUnder_of_forall_blank
    (h : ∀ url, env baseUrlVariable = some url → IsBlank url) :
    addressUnder env s = s.baseUrl := by
  unfold addressUnder
  cases hurl : env baseUrlVariable with
  | none => rfl
  | some url => exact if_pos (h url hurl)

/-- Settings under an environment differ in the address and the policy at most. -/
theorem overrides_of_policy {p : StatusPolicy}
    (hpolicy : ∀ text, env statusPolicyVariable = some text → StatusPolicy.Spells text p)
    (hkept : env statusPolicyVariable = none → p = s.statusPolicy) :
    Overrides env s { s with baseUrl := addressUnder env s, statusPolicy := p } where
  rest := rfl
  baseUrl url hurl hblank := by
    rw [addressUnder_of_some hurl, if_neg hblank]
  baseUrl_kept := addressUnder_of_forall_blank
  policy := hpolicy
  policy_kept := hkept

theorem Overrides.baseUrl_eq (h : Overrides env s s') : s'.baseUrl = addressUnder env s := by
  by_cases hall : ∀ url, env baseUrlVariable = some url → IsBlank url
  · rw [h.baseUrl_kept hall, addressUnder_of_forall_blank hall]
  · push Not at hall
    obtain ⟨url, henv, hblank⟩ := hall
    rw [h.baseUrl url henv hblank, addressUnder_of_some henv, if_neg hblank]

/-- An environment makes one thing of settings. -/
theorem Overrides.unique {s'' : Settings} (h : Overrides env s s') (h' : Overrides env s s'') :
    s' = s'' := by
  have hurl : s'.baseUrl = s''.baseUrl := h.baseUrl_eq.trans h'.baseUrl_eq.symm
  have hpolicy : s'.statusPolicy = s''.statusPolicy := by
    cases henv : env statusPolicyVariable with
    | none => rw [h.policy_kept henv, h'.policy_kept henv]
    | some text => exact (h.policy text henv).unique (h'.policy text henv)
  rw [h.rest, h'.rest, hurl, hpolicy]

theorem withEnvironment_eq_error_iff : s.withEnvironment env = .error fault ↔
    ∃ text, env statusPolicyVariable = some text ∧ StatusPolicy.parse text = .error fault := by
  rw [withEnvironment_eq]
  cases env statusPolicyVariable with
  | none => simp
  | some text => cases hparse : StatusPolicy.parse text <;> simp [Except.map, hparse]

theorem withEnvironment_eq_ok_iff :
    s.withEnvironment env = .ok s' ↔ Overrides env s s' := by
  have hok {p : StatusPolicy}
      (hp : s.withEnvironment env =
        .ok { s with baseUrl := addressUnder env s, statusPolicy := p })
      (hoverrides : Overrides env s { s with baseUrl := addressUnder env s, statusPolicy := p }) :
      s.withEnvironment env = .ok s' ↔ Overrides env s s' := by
    rw [hp, Except.ok.injEq]
    exact ⟨fun h => h ▸ hoverrides, fun h => hoverrides.unique h⟩
  cases henv : env statusPolicyVariable with
  | none =>
    refine hok (p := s.statusPolicy) (by rw [withEnvironment_eq, henv]) ?_
    exact overrides_of_policy (by simp [henv]) fun _ => rfl
  | some text =>
    cases hparse : StatusPolicy.parse text with
    | ok p =>
      refine hok (p := p) (by rw [withEnvironment_eq, henv]; simp only [hparse]; rfl) ?_
      refine overrides_of_policy ?_ (by simp [henv])
      intro text' htext'
      obtain rfl : text = text' := Option.some_inj.mp (henv.symm.trans htext')
      exact StatusPolicy.parse_eq_ok_iff.mp hparse
    | error fault =>
      have herror : s.withEnvironment env = .error fault :=
        withEnvironment_eq_error_iff.mpr ⟨text, henv, hparse⟩
      rw [herror]
      refine iff_of_false (fun h => nomatch h) fun h => ?_
      exact (StatusPolicy.parse_eq_error_iff.mp hparse).1 _ (h.policy text henv)

/-! ## What follows for settings under an environment -/

/-- The same environment once more changes nothing. -/
theorem Overrides.again (h : Overrides env s s') : Overrides env s' s' where
  rest := rfl
  baseUrl := h.baseUrl
  baseUrl_kept _ := rfl
  policy := h.policy
  policy_kept _ := rfl

/-- An address that was not blank is not made so. -/
theorem Overrides.not_isBlank (h : Overrides env s s') (hs : ¬ IsBlank s.baseUrl) :
    ¬ IsBlank s'.baseUrl := by
  rw [h.baseUrl_eq]
  cases henv : env baseUrlVariable with
  | none => rwa [addressUnder, henv]
  | some url =>
    rw [addressUnder_of_some henv]
    split_ifs with hblank
    · exact hs
    · exact hblank

/-- Settings with addresses that are not blank are accepted alike. -/
theorem fault?_congr (hs : ¬ IsBlank s.baseUrl) (hs' : ¬ IsBlank s'.baseUrl)
    (h : s' = { s with baseUrl := s'.baseUrl, statusPolicy := s'.statusPolicy }) :
    s'.fault? = s.fault? := by
  have hempty : (Text.trim s.baseUrl).isEmpty = false :=
    Bool.eq_false_iff.mpr (mt Text.isEmpty_trim_iff.mp hs)
  have hempty' : (Text.trim s'.baseUrl).isEmpty = false :=
    Bool.eq_false_iff.mpr (mt Text.isEmpty_trim_iff.mp hs')
  unfold fault?
  rw [hempty, hempty']
  rw [h]

theorem not_isBlank_of_validate (h : s.validate = .ok ()) : ¬ IsBlank s.baseUrl := by
  intro hblank
  rw [validate, fault?, if_pos (Text.isEmpty_trim_iff.mpr hblank)] at h
  cases h

theorem Overrides.validate (h : Overrides env s s') (hs : s.validate = .ok ()) :
    s'.validate = .ok () := by
  have hblank := not_isBlank_of_validate hs
  rw [Settings.validate, fault?_congr hblank (h.not_isBlank hblank) h.rest]
  exact hs

/-- There are no settings under an environment if, and only if, it names a policy by a text that
    spells none. Otherwise they differ from the given ones in an address that is not blank and in a
    policy at most, the same environment once more changes nothing, and what was accepted stays
    so. -/
theorem environment_overrides (s : Settings) (env : String → Option String) :
    (∀ fault, s.withEnvironment env = .error fault ↔
      ∃ text, env statusPolicyVariable = some text ∧ (∀ p, ¬ StatusPolicy.Spells text p) ∧
        ∃ word, Trims text word ∧
          fault = .settings (.unknownStatusPolicy (Text.lowerAscii word))) ∧
    ∀ s', s.withEnvironment env = .ok s' →
      Overrides env s s' ∧ s'.withEnvironment env = .ok s' ∧
        (s.validate = .ok () → s'.validate = .ok ()) := by
  refine ⟨fun fault => ?_, fun s' hs' => ?_⟩
  · simp only [withEnvironment_eq_error_iff, StatusPolicy.parse_eq_error_iff]
  · have hoverrides := withEnvironment_eq_ok_iff.mp hs'
    exact ⟨hoverrides, withEnvironment_eq_ok_iff.mpr hoverrides.again, hoverrides.validate⟩

/-- An environment with an address and a policy. -/
def environment (url policy : String) : String → Option String := fun name =>
  if name == baseUrlVariable then some url
  else if name == statusPolicyVariable then some policy
  else none

/-- The standard settings for a service that is being staged. -/
def staged : Settings :=
  { standard with baseUrl := " http://staging:8080", statusPolicy := .requireSuccess }

theorem environment_overrides_staged :
    standard.withEnvironment (environment " http://staging:8080" "\tRequire-SUCCESS\n") =
      .ok staged ∧
    staged.withEnvironment (environment " http://staging:8080" "\tRequire-SUCCESS\n") =
      .ok staged ∧
    staged.validate = .ok () ∧
    ∀ p, ¬ StatusPolicy.Spells "sometimes" p := by
  have hstaged : standard.withEnvironment
      (environment " http://staging:8080" "\tRequire-SUCCESS\n") = .ok staged := by rfl
  obtain ⟨-, hagain, hvalid⟩ := (environment_overrides _ _).2 staged hstaged
  obtain ⟨text, htext, hnone, -⟩ :=
    ((environment_overrides standard (environment "~" "sometimes")).1 _).mp rfl
  obtain rfl : "sometimes" = text := Option.some_inj.mp htext
  exact ⟨hstaged, hagain, hvalid rfl, hnone⟩

end Settings

end LoadBench
