import LoadBench.Proofs.Plan.Written
import LoadBench.Proofs.Yaml.Documents
import LoadBench.Yaml.Printer

/-!
# Files of settings and plans

Settings and scenarios are saved as documents and loaded again; mixes are only loaded. Whatever is
written in a document that spells the written form of a value is the value that is loaded from it,
field by field.

Results:
* `files_restored`: what was saved is what is loaded.
-/

namespace LoadBench

/-- Settings and scenarios are loaded as they were saved, if the printed document spells what was
    written; so is a mix, from any document that spells its written form. -/
theorem files_restored :
    (∀ s : Settings, s.Fits → Yaml.spells s.data (Yaml.render s.data) = true →
      Yaml.readBytes Settings.outline Settings.read? (some (Yaml.render s.data).toUTF8) = .ok s) ∧
    (∀ s : Scenario, s.Fits → Yaml.spells s.data (Yaml.render s.data) = true →
      Yaml.readBytes Scenario.outline Scenario.read? (some (Yaml.render s.data).toUTF8) = .ok s) ∧
    (∀ m : Mix, m.Fits → ∀ text, Yaml.spells m.data text = true →
      Yaml.readBytes Mix.outline Mix.read? (some text.toUTF8) = .ok m) := by
  refine ⟨?_, ?_, ?_⟩
  · intro s hfits hspells
    exact Yaml.readBytes_of_spells _ (Settings.restores Yaml.Value.faithful hfits) hspells
  · intro s hfits hspells
    exact Yaml.readBytes_of_spells _ (Scenario.restores Yaml.Value.faithful hfits) hspells
  · intro m hfits text hspells
    exact Yaml.readBytes_of_spells _ (Mix.restores Yaml.Value.faithful hfits) hspells

/-- Settings far from the standard ones, with a text that looks like a number. -/
def Settings.oddOnes : Settings where
  baseUrl := "1.5"
  apiPrefix := ""
  statusPolicy := .requireSuccess
  timeoutMarginSecs := 0.5
  defaultTimeoutSecs := Binary64.notANumber
  rampStages := 0
  burstPhases := [⟨"~", 0.25⟩]
  maxIdlePerHost := 7
  verbosity := .debug

/-- A call with all of its fields and one with none of the optional ones. -/
def Scenario.fullAndBare : Scenario where
  name := "null"
  description := "ü"
  calls := [⟨⟨"a", "A", ["timeout"]⟩, some Binary64.infinity, some 3, some "true", some .high⟩,
    .plain ⟨"b", "", []⟩]
  iterations := 2
  triggersStream := true

/-- One user with one request of a kind without a delay. -/
def Mix.oneRequest : Mix where
  name := "m"
  description := ""
  users := 1
  actions := [⟨⟨"a", "", [⟨"p", "", [⟨⟨⟨"b", "B", []⟩, some 2, none, 5, .low⟩, 0.5⟩]⟩]⟩, 1.0⟩]

/-- The mix as it may be written by hand. -/
def Mix.oneRequestText : String :=
  "name: m\ndescription: ''\nconcurrent_users: 1\nactions:\n- action:\n   name: a\n" ++
  "   description: ''\n   pages:\n   - name: p\n     description: ''\n     requests:\n" ++
  "     - request:\n        endpoint:\n         path: b\n         label: B\n" ++
  "         params: []\n        query_count: 2\n        timeout_secs: ~\n" ++
  "        expected_ms: 5\n        complexity: low\n       weight: 0.5\n  weight: 1.0\n"

set_option maxRecDepth 100000 in
theorem files_restored_oddOnes :
    Yaml.readBytes Settings.outline Settings.read?
        (some (Yaml.render Settings.oddOnes.data).toUTF8) = .ok Settings.oddOnes ∧
      Yaml.readBytes Scenario.outline Scenario.read?
        (some (Yaml.render Scenario.fullAndBare.data).toUTF8) = .ok Scenario.fullAndBare ∧
      Yaml.readBytes Mix.outline Mix.read? (some Mix.oneRequestText.toUTF8) =
        .ok Mix.oneRequest := by
  obtain ⟨hsettings, hscenario, hmix⟩ := files_restored
  refine ⟨?_, ?_, ?_⟩
  · exact hsettings _ (by decide) (by decide +kernel)
  · exact hscenario _ (by decide) (by decide +kernel)
  · exact hmix _ (by decide) _ (by decide +kernel)

end LoadBench
