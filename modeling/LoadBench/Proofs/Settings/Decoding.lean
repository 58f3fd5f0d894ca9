import LoadBench.Proofs.Yaml.Records
import LoadBench.Settings

/-!
# Settings in documents

A document of settings gives some fields, in any order and among any others. A field that is given
has the value that is written there, and one that is not has the standard one; a value of the wrong
type is a fault of the whole document. Where nothing is written, the settings are the standard ones.

Results:
* `Settings.Field.read?_eq_some_iff`: what is read of a field is what is written there.
* `Settings.read?_eq_some_iff`: what is read of a record, field by field.
* `Settings.read?_eq_some_iff_follows`, `Settings.exists_follows_iff`: the settings that a record
  describes, and which records describe some.
* `Settings.document_overrides`: what is read of a text.
-/

namespace LoadBench

open Source (Only ComesTo)
open Yaml (Value)

/-! ## Written values -/

/-- A value is a wave: a record with a text and a number, each alone under its name. -/
def BurstPhase.Says (v : Value) (p : BurstPhase) : Prop :=
  ∃ entries name fraction, v.fields? = some entries ∧
    Only entries "name" name ∧ name.text? = some p.name ∧
    Only entries "fraction" fraction ∧ Source.real? fraction = some p.fraction

namespace Settings

/-- The fields of settings. -/
inductive Field
  | baseUrl
  | apiPrefix
  | statusPolicy
  | timeoutMarginSecs
  | defaultTimeoutSecs
  | rampStages
  | burstPhases
  | maxIdlePerHost
  | verbosity
deriving DecidableEq

namespace Field

/-- The name in documents. -/
def name : Field → String
  | baseUrl => "base_url"
  | apiPrefix => "api_prefix"
  | statusPolicy => "status_policy"
  | timeoutMarginSecs => "timeout_margin_secs"
  | defaultTimeoutSecs => "default_timeout_secs"
  | rampStages => "ramp_stages"
  | burstPhases => "burst_phases"
  | maxIdlePerHost => "max_idle_per_host"
  | verbosity => "verbosity"

/-- The type of a field. -/
abbrev Kind : Field → Type
  | baseUrl => String
  | apiPrefix => String
  | statusPolicy => StatusPolicy
  | timeoutMarginSecs => Float
  | defaultTimeoutSecs => Float
  | rampStages => Nat
  | burstPhases => List BurstPhase
  | maxIdlePerHost => Nat
  | verbosity => Verbosity

/-- The value of a field. -/
def get (s : Settings) : (f : Field) → f.Kind
  | baseUrl => s.baseUrl
  | apiPrefix => s.apiPrefix
  | statusPolicy => s.statusPolicy
  | timeoutMarginSecs => s.timeoutMarginSecs
  | defaultTimeoutSecs => s.defaultTimeoutSecs
  | rampStages => s.rampStages
  | burstPhases => s.burstPhases
  | maxIdlePerHost => s.maxIdlePerHost
  | verbosity => s.verbosity

/-- What is written is a value of a field: a text, a name, a number, or waves. -/
def Says (v : Value) : (f : Field) → f.Kind → Prop
  | baseUrl, text => v.text? = some text
  | apiPrefix, text => v.text? = some text
  | statusPolicy, policy => v.choice? = some policy.name
  | timeoutMarginSecs, secs => Source.real? v = some secs
  | defaultTimeoutSecs, secs => Source.real? v = some secs
  | rampStages, n => Source.natural? v = some n ∧ n < Counter.size
  | burstPhases, phases =>
    ∃ items, v.items? = some items ∧ List.Forall₂ BurstPhase.Says items phases
  | maxIdlePerHost, n => Source.natural? v = some n ∧ n < Counter.size
  | verbosity, level => v.choice? = some level.name

/-- What is written is some value of a field. -/
def WellTyped (f : Field) (v : Value) : Prop := ∃ a, f.Says v a

/-- The reader of a field. -/
def read? : (f : Field) → Value → Option f.Kind
  | baseUrl => Source.text
  | apiPrefix => Source.text
  | statusPolicy => StatusPolicy.read?
  | timeoutMarginSecs => Source.real
  | defaultTimeoutSecs => Source.real
  | rampStages => Source.count
  | burstPhases => Source.listOf BurstPhase.read?
  | maxIdlePerHost => Source.count
  | verbosity => Verbosity.read?

theorem forall_iff {P : Field → Prop} :
    (∀ f, P f) ↔ P baseUrl ∧ P apiPrefix ∧ P statusPolicy ∧ P timeoutMarginSecs ∧
      P defaultTimeoutSecs ∧ P rampStages ∧ P burstPhases ∧ P maxIdlePerHost ∧ P verbosity := by
  constructor
  · intro h
    exact ⟨h _, h _, h _, h _, h _, h _, h _, h _, h _⟩
  · rintro ⟨h₁, h₂, h₃, h₄, h₅, h₆, h₇, h₈, h₉⟩ f
    cases f <;> assumption

/-- There are settings with any values. -/
theorem exists_get_eq (value : (f : Field) → f.Kind) : ∃ s, ∀ f, get s f = value f :=
  ⟨⟨value baseUrl, value apiPrefix, value statusPolicy, value timeoutMarginSecs,
    value defaultTimeoutSecs, value rampStages, value burstPhases, value maxIdlePerHost,
    value verbosity⟩, forall_iff.mpr ⟨rfl, rfl, rfl, rfl, rfl, rfl, rfl, rfl, rfl⟩⟩

end Field

end Settings

/-! ## What is read -/

theorem StatusPolicy.named?_eq_some_iff {word : String} {p : StatusPolicy} :
    named? word = some p ↔ word = p.name :=
  Source.find?_eq_some_iff (by rintro ⟨⟩ <;> decide) (by rintro ⟨⟩ ⟨⟩ <;> decide)

theorem Verbosity.named?_eq_some_iff {word : String} {v : Verbosity} :
    named? word = some v ↔ word = v.name :=
  Source.find?_eq_some_iff (by rintro ⟨⟩ <;> decide) (by rintro ⟨⟩ ⟨⟩ <;> decide)

theorem BurstPhase.read?_eq_some_iff {v : Value} {p : BurstPhase} :
    read? v = some p ↔ Says v p := by
  unfold Says
  cases hfields : v.fields? with
  | none =>
    have hnone : read? v = none := by
      unfold read? readWith? Source.record
      rw [show Source.fields? v = none from hfields]
      rfl
    simp [hnone]
  | some entries =>
    unfold read? readWith?
    rw [Source.record_eq_some_iff hfields]
    simp only [Source.required_bind_eq_some_iff]
    constructor
    · rintro ⟨left, -, name, _, hname, htext, fraction, _, hfraction, hreal, hp⟩
      cases hp
      exact ⟨entries, name, fraction, rfl, hname, htext, hfraction, hreal⟩
    · rintro ⟨_, name, fraction, hentries, hname, htext, hfraction, hreal⟩
      cases hentries
      exact ⟨.named entries, trivial, name, _, hname, htext, fraction, _, hfraction, hreal, rfl⟩

namespace Settings

theorem Field.read?_eq_some_iff {f : Field} {v : Value} {a : f.Kind} :
    f.read? v = some a ↔ f.Says v a := by
  cases f with
  | baseUrl => exact Iff.rfl
  | apiPrefix => exact Iff.rfl
  | statusPolicy => exact Source.choice_eq_some_iff StatusPolicy.named?_eq_some_iff
  | timeoutMarginSecs => exact Iff.rfl
  | defaultTimeoutSecs => exact Iff.rfl
  | rampStages => exact Source.count_eq_some_iff
  | burstPhases =>
    show Source.listOf BurstPhase.read? v = some a ↔ _
    simp only [Source.listOf_eq_some_iff, BurstPhase.read?_eq_some_iff]
    exact Iff.rfl
  | maxIdlePerHost => exact Source.count_eq_some_iff
  | verbosity => exact Source.choice_eq_some_iff Verbosity.named?_eq_some_iff

/-- What is read of a record comes, field by field, to what stands there or to the standard. -/
theorem read?_eq_some_iff {v : Value} {entries : List (String × Value)} {s : Settings}
    (h : v.fields? = some entries) :
    read? v = some s ↔
      ∀ f : Field, ComesTo entries f.name (f.get standard) f.read? (f.get s) := by
  unfold read?
  rw [Source.record_eq_some_iff h, Field.forall_iff]
  simp only [Source.defaulted_bind_eq_some_iff]
  constructor
  · rintro ⟨left, -, _, h₁, _, h₂, _, h₃, _, h₄, _, h₅, _, h₆, _, h₇, _, h₈, _, h₉, hs⟩
    cases hs
    exact ⟨h₁, h₂, h₃, h₄, h₅, h₆, h₇, h₈, h₉⟩
  · rintro ⟨h₁, h₂, h₃, h₄, h₅, h₆, h₇, h₈, h₉⟩
    exact ⟨.named entries, trivial, _, h₁, _, h₂, _, h₃, _, h₄, _, h₅, _, h₆, _, h₇, _, h₈, _, h₉,
      rfl⟩

/-! ## Settings that a record describes -/

/-- The settings that a record describes: what is given is what is written, and what is not is the
    standard. -/
structure Follows (entries : List (String × Value)) (s : Settings) : Prop where
  given : ∀ (f : Field) v, (f.name, v) ∈ entries → f.Says v (f.get s)
  missing : ∀ f : Field, f.name ∉ entries.map Prod.fst → f.get s = f.get standard

/-- Two records give the same fields and say the same of each, maybe in another order, and among
    other fields that settings do not have. -/
structure SaysSame (entries entries' : List (String × Value)) : Prop where
  left : ∀ (f : Field) v, (f.name, v) ∈ entries →
    ∃ v', (f.name, v') ∈ entries' ∧ ∀ a, f.Says v a ↔ f.Says v' a
  right : ∀ (f : Field) v', (f.name, v') ∈ entries' →
    ∃ v, (f.name, v) ∈ entries ∧ ∀ a, f.Says v a ↔ f.Says v' a

variable {entries entries' : List (String × Value)} {v : Value} {s : Settings}

theorem read?_eq_some_iff_follows (h : v.fields? = some entries)
    (hnames : (entries.map Prod.fst).Nodup) : read? v = some s ↔ Follows entries s := by
  have honly {f : Field} {v : Value} : Only entries f.name v ↔ (f.name, v) ∈ entries :=
    Source.only_iff_mem hnames
  rw [read?_eq_some_iff h]
  constructor
  · intro hcomes
    constructor
    · intro f w hw
      rcases hcomes f with ⟨w', hw', hread⟩ | ⟨hmissing, -⟩
      · obtain ⟨-, rfl⟩ := Prod.mk.inj (List.inj_on_of_nodup_map hnames hw (honly.mp hw') rfl)
        exact Field.read?_eq_some_iff.mp hread
      · exact absurd (List.mem_map_of_mem hw) hmissing
    · intro f hmissing
      rcases hcomes f with ⟨w, hw, -⟩ | ⟨-, hstandard⟩
      · exact absurd (List.mem_map_of_mem (honly.mp hw)) hmissing
      · exact hstandard
  · rintro ⟨given, missing⟩ f
    by_cases hmem : f.name ∈ entries.map Prod.fst
    · obtain ⟨⟨_, w⟩, hw, rfl⟩ := List.mem_map.mp hmem
      exact .inl ⟨w, honly.mpr hw, Field.read?_eq_some_iff.mpr (given f w hw)⟩
    · exact .inr ⟨hmem, missing f hmem⟩

/-- A record describes settings if, and only if, every value is of the type of its field. -/
theorem exists_follows_iff (hnames : (entries.map Prod.fst).Nodup) :
    (∃ s, Follows entries s) ↔ ∀ (f : Field) v, (f.name, v) ∈ entries → f.WellTyped v := by
  constructor
  · rintro ⟨s, hs⟩ f v hv
    exact ⟨_, hs.given f v hv⟩
  · intro htyped
    -- a value for every field, from the record or from the standard
    have hvalue : ∀ f : Field, ∃ a, (∀ v, (f.name, v) ∈ entries → f.Says v a) ∧
        (f.name ∉ entries.map Prod.fst → a = f.get standard) := by
      intro f
      by_cases hmem : f.name ∈ entries.map Prod.fst
      · obtain ⟨⟨_, v⟩, hv, rfl⟩ := List.mem_map.mp hmem
        obtain ⟨a, ha⟩ := htyped f v hv
        refine ⟨a, fun w hw => ?_, fun hf => absurd hmem hf⟩
        obtain ⟨-, rfl⟩ := Prod.mk.inj (List.inj_on_of_nodup_map hnames hw hv rfl)
        exact ha
      · exact ⟨f.get standard, fun v hv => absurd (List.mem_map_of_mem hv) hmem, fun _ => rfl⟩
    choose value hgiven hmissing using hvalue
    obtain ⟨s, hs⟩ := Field.exists_get_eq value
    refine ⟨s, ?_, ?_⟩
    · intro f v hv
      rw [hs f]
      exact hgiven f v hv
    · intro f hf
      rw [hs f]
      exact hmissing f hf

theorem SaysSame.symm (h : SaysSame entries entries') : SaysSame entries' entries where
  left f v' hv' := by
    obtain ⟨v, hv, hsame⟩ := h.right f v' hv'
    exact ⟨v, hv, fun a => (hsame a).symm⟩
  right f v hv := by
    obtain ⟨v', hv', hsame⟩ := h.left f v hv
    exact ⟨v', hv', fun a => (hsame a).symm⟩

/-- The order of the fields, and what stands under other names, does not matter. -/
theorem saysSame_of_mem_iff
    (h : ∀ (f : Field) v, (f.name, v) ∈ entries ↔ (f.name, v) ∈ entries') :
    SaysSame entries entries' where
  left f v hv := ⟨v, (h f v).mp hv, fun _ => Iff.rfl⟩
  right f v hv := ⟨v, (h f v).mpr hv, fun _ => Iff.rfl⟩

theorem Follows.of_saysSame (hs : Follows entries s) (h : SaysSame entries entries') :
    Follows entries' s where
  given f v' hv' := by
    obtain ⟨v, hv, hsame⟩ := h.right f v' hv'
    exact (hsame _).mp (hs.given f v hv)
  missing f hf := by
    apply hs.missing f
    intro hmem
    obtain ⟨⟨_, v⟩, hv, rfl⟩ := List.mem_map.mp hmem
    obtain ⟨v', hv', -⟩ := h.left f v hv
    exact hf (List.mem_map_of_mem hv')

/-! ## Settings in texts -/

variable {text text' : String}

/-- The settings that are read of a text that is a record are those that the record describes. -/
theorem readText_eq_ok_iff (h : Yaml.IsRecord outline text entries) :
    Yaml.readText outline read? text = .ok s ↔ Follows entries s := by
  obtain ⟨v, hfields, hread⟩ := h.readText_eq read?
  rw [hread, ← read?_eq_some_iff_follows hfields h.nodup_names]
  cases read? v <;> simp

/-- A text that is a record of no settings is not a document of settings. -/
theorem readText_eq_error_iff (h : Yaml.IsRecord outline text entries) :
    Yaml.readText outline read? text = .error .document ↔ ∀ s, ¬ Follows entries s := by
  obtain ⟨v, hfields, hread⟩ := h.readText_eq read?
  simp only [hread, ← read?_eq_some_iff_follows hfields h.nodup_names]
  cases read? v <;> simp

theorem readText_congr (h : Yaml.IsRecord outline text entries)
    (h' : Yaml.IsRecord outline text' entries') (hsame : SaysSame entries entries') :
    Yaml.readText outline read? text = Yaml.readText outline read? text' := by
  by_cases hsome : ∃ s, Follows entries s
  · obtain ⟨s, hs⟩ := hsome
    rw [(readText_eq_ok_iff h).mpr hs, (readText_eq_ok_iff h').mpr (hs.of_saysSame hsame)]
  · push Not at hsome
    rw [(readText_eq_error_iff h).mpr hsome, (readText_eq_error_iff h').mpr]
    exact fun s hs => hsome s (hs.of_saysSame hsame.symm)

/-- Settings are read of every text that gives any of the fields, in any order and among any others,
    if the value of each is of the right type. They have the given values, and the standard ones
    elsewhere; one value of the wrong type is a fault of the document. Texts that say the same of
    the same fields are read as the same, and of a text on which nothing is written the standard
    settings are read. -/
theorem document_overrides (text : String) :
    (∀ entries, Yaml.IsRecord outline text entries →
      (∀ s, Yaml.readText outline read? text = .ok s ↔ Follows entries s) ∧
      ((∃ s, Yaml.readText outline read? text = .ok s) ↔
        ∀ (f : Field) v, (f.name, v) ∈ entries → f.WellTyped v) ∧
      (∀ (f : Field) v, (f.name, v) ∈ entries → ¬ f.WellTyped v →
        Yaml.readText outline read? text = .error .document) ∧
      ∀ text' entries', Yaml.IsRecord outline text' entries' → SaysSame entries entries' →
        Yaml.readText outline read? text' = Yaml.readText outline read? text) ∧
    (Yaml.document? text = some (.empty .none, []) →
      Yaml.readText outline read? text = .ok standard) := by
  constructor
  · intro entries h
    have hsome := exists_follows_iff h.nodup_names
    refine ⟨fun s => readText_eq_ok_iff h, ?_, ?_, ?_⟩
    · simp only [readText_eq_ok_iff h, hsome]
    · intro f v hv hill
      rw [readText_eq_error_iff h, ← not_exists, hsome]
      exact fun htyped => hill (htyped f v hv)
    · exact fun _ _ h' hsame => (readText_congr h h' hsame).symm
  · intro hempty
    rw [readText_eq_ok_iff (Yaml.isRecord_of_empty hempty)]
    exact ⟨fun _ _ h => (List.not_mem_nil h).elim, fun _ _ => rfl⟩

/-- Settings for a run in more stages that logs everything. -/
def explained : Settings := { standard with rampStages := 7, verbosity := .debug }

/-- The fields that are not standard, with one that settings do not have. -/
def explainedFields : List (String × String) :=
  [("verbosity", "debug"), ("colour", "blue"), ("ramp_stages", "7")]

theorem follows_explained :
    Follows (explainedFields.map fun f => (f.1, .plain f.2)) explained where
  given f v hv := by
    cases f with
    | rampStages =>
      obtain rfl : v = .plain "7" := by simpa [explainedFields, Field.name] using hv
      exact ⟨by decide +kernel, by decide⟩
    | verbosity =>
      obtain rfl : v = .plain "debug" := by simpa [explainedFields, Field.name] using hv
      rfl
    | _ => simp [explainedFields, Field.name] at hv
  missing f hf := by
    cases f with
    | rampStages => simp [explainedFields, Field.name] at hf
    | verbosity => simp [explainedFields, Field.name] at hf
    | _ => rfl

set_option maxRecDepth 100000 in
theorem document_overrides_explained :
    Yaml.readText outline read? "verbosity: debug\ncolour: blue\nramp_stages: 7\n" =
      .ok explained ∧
    Yaml.readText outline read? "ramp_stages: 7\nverbosity: debug\n" = .ok explained ∧
    Yaml.readText outline read? "verbosity: debug\nramp_stages: many\n" = .error .document ∧
    Yaml.readText outline read? "# as it was\n" = .ok standard := by
  have hgiven : Yaml.IsRecord outline "verbosity: debug\ncolour: blue\nramp_stages: 7\n" _ :=
    Yaml.isRecord_of_words? (show _ = some explainedFields by decide +kernel) (by decide)
  have hmoved : Yaml.IsRecord outline "ramp_stages: 7\nverbosity: debug\n" _ :=
    Yaml.isRecord_of_words?
      (show _ = some [("ramp_stages", "7"), ("verbosity", "debug")] by decide +kernel) (by decide)
  have hill : Yaml.IsRecord outline "verbosity: debug\nramp_stages: many\n" _ :=
    Yaml.isRecord_of_words?
      (show _ = some [("verbosity", "debug"), ("ramp_stages", "many")] by decide +kernel)
      (by decide)
  obtain ⟨hok, -, -, hsame⟩ := (document_overrides _).1 _ hgiven
  obtain ⟨-, -, herror, -⟩ := (document_overrides _).1 _ hill
  have hread := (hok explained).mpr follows_explained
  refine ⟨hread, ?_, ?_, ?_⟩
  · rw [hsame _ _ hmoved, hread]
    apply saysSame_of_mem_iff
    intro f v
    cases f <;> simp [explainedFields, Field.name]
  · apply herror .rampStages (.plain "many") (by simp [Field.name])
    have hword : Source.natural? (Yaml.Value.plain "many") = none := by decide +kernel
    rintro ⟨n, hn, -⟩
    rw [hword] at hn
    cases hn
  · exact (document_overrides _).2 (Yaml.document?_of_no_tokens (by decide +kernel))

end Settings

end LoadBench
