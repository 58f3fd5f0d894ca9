import LoadBench.Counter

/-!
# Faults

Why an operation of the library refuses its input or ends without a result. Every fault is a cause;
its wording is `Fault.message`. All faults but one are handed back to whoever asked for the
operation; one that breaks down takes with it whoever waits for it.
-/

namespace LoadBench

/-- Why settings are refused. -/
inductive SettingsFault
  | emptyBaseUrl
  | noRampStages
  | noBurstPhases
  | burstPhase (name : String)
  | defaultTimeout
  | timeoutMargin
  | unknownStatusPolicy (text : String)
  | noStages
deriving DecidableEq, Repr

/-- Why a plan is refused. -/
inductive PlanFault
  | noIterations (scenario : String)
  | noRequests (scenario : String)
  | timeout (scenario path : String)
  | noActions (scenario : String)
  | actionWeight (scenario : String)
  | noPages (scenario action : String)
  | emptyCustomTest
deriving DecidableEq, Repr

/-- Why a file cannot be used. -/
inductive FileFault
  | missing
  | notText
deriving DecidableEq, Repr

/-- Why an operation ends without a result. -/
inductive Fault
  | settings (cause : SettingsFault)
  | plan (cause : PlanFault)
  | cancelled (scenario : String)
  | file (cause : FileFault)
  /-- A document that is not well formed or does not fit what is read from it. -/
  | document
  /-- The operation breaks down, and nothing is handed back. -/
  | broken (cause : Breakdown)
deriving DecidableEq, Repr

/-- What is wrong with the settings. -/
def SettingsFault.message : SettingsFault → String
  | .emptyBaseUrl => "base_url must not be empty"
  | .noRampStages => "ramp_stages must be at least 1"
  | .noBurstPhases => "at least one burst phase is required"
  | .burstPhase name => s!"burst phase '{name}' must have a positive fraction"
  | .defaultTimeout => "default_timeout_secs must be positive"
  | .timeoutMargin => "timeout_margin_secs must not be negative"
  | .unknownStatusPolicy text => s!"unknown status policy '{text}'"
  | .noStages => "gradual runs need at least one stage"

/-- What is wrong with the plan. -/
def PlanFault.message : PlanFault → String
  | .noIterations scenario => s!"'{scenario}' declares zero iterations"
  | .noRequests scenario => s!"'{scenario}' declares no requests"
  | .timeout scenario path => s!"'{scenario}' has a negative or non-finite timeout for {path}"
  | .noActions scenario => s!"'{scenario}' declares no user actions"
  | .actionWeight scenario => s!"'{scenario}' has a negative or non-finite action weight"
  | .noPages scenario action => s!"action '{action}' in '{scenario}' has no pages"
  | .emptyCustomTest => "custom run needs at least one action"

/-- What is wrong with the file. -/
def FileFault.message : FileFault → String
  | .missing => "No such file or directory (os error 2)"
  | .notText => "stream did not contain valid UTF-8"

/-- The wording of a fault. -/
def Fault.message : Fault → String
  | .settings cause => "Configuration error: " ++ cause.message
  | .plan cause => "Invalid scenario: " ++ cause.message
  | .cancelled scenario => "Run cancelled: " ++ scenario
  | .file cause => "I/O error: " ++ cause.message
  | .document => "unreadable document"
  | .broken cause => cause.message

end LoadBench
