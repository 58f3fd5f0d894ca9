import LoadBench.Fault
import LoadBench.Plan.Call
import LoadBench.Text.Blank

/-!
# Settings

Where the service is, how its answers are judged, how long a call may take, and how staged runs
grow.

* `StatusPolicy.parse`: the spellings of a policy.
* `Settings.withEnvironment`, `Settings.validate`: overrides and checks.
* `Settings.url`: the address of an endpoint.
* `Settings.timeLimit`: how long a call may take, in whole nanoseconds.
* `data`, `read?`: the written forms, which undo each other; what is missing is taken from
  `Settings.standard`.
-/

namespace LoadBench

/-! ## Members -/

/-- How the status of an answer is judged. -/
inductive StatusPolicy
  /-- Any status will do. -/
  | ignore
  /-- Only a status of success will do. -/
  | requireSuccess
deriving DecidableEq, Repr

namespace StatusPolicy

/-- The name in documents. -/
def name : StatusPolicy → String
  | ignore => "ignore"
  | requireSuccess => "require_success"

/-- The policy of a name. -/
def named? (s : String) : Option StatusPolicy := [ignore, requireSuccess].find? (·.name == s)

/-- The policy of a spelling; blanks around it and ASCII case do not matter. -/
def parse (s : String) : Except Fault StatusPolicy :=
  let word := Text.lowerAscii (Text.trim s)
  if word == "ignore" then .ok ignore
  else if word == "require_success" || word == "require-success" || word == "strict" then
    .ok requireSuccess
  else .error (.settings (.unknownStatusPolicy word))

/-- The written form. -/
def data (p : StatusPolicy) : Data := .text p.name

/-- Reads a policy by its name. -/
def read? [Source δ] : δ → Option StatusPolicy := Source.choice named?

end StatusPolicy

/-- How much is logged. -/
inductive Verbosity
  | quiet
  | normal
  | verbose
  | debug
deriving DecidableEq, Repr

namespace Verbosity

/-- The name in documents. -/
def name : Verbosity → String
  | quiet => "quiet"
  | normal => "normal"
  | verbose => "verbose"
  | debug => "debug"

/-- The verbosity of a name. -/
def named? (s : String) : Option Verbosity := [quiet, normal, verbose, debug].find? (·.name == s)

/-- Only warnings are logged. -/
def isQuiet (v : Verbosity) : Bool := v == quiet

/-- More than the course of a run is logged. -/
def isVerbose (v : Verbosity) : Bool := v == verbose || v == debug

/-- What is logged, as a list of levels, some of them for one target only. -/
def directive : Verbosity → String
  | quiet => "warn"
  | normal => "loadscope=info,warn"
  | verbose => "loadscope=debug,info"
  | debug => "debug"

/-- The written form. -/
def data (v : Verbosity) : Data := .text v.name

/-- Reads a verbosity by its name. -/
def read? [Source δ] : δ → Option Verbosity := Source.choice named?

end Verbosity

/-- A wave of a burst run: the share of all users that takes part. -/
structure BurstPhase where
  name : String
  fraction : Float
deriving DecidableEq

namespace BurstPhase

/-- The written form. -/
def data (p : BurstPhase) : Data := .record [("name", .text p.name), ("fraction", .real p.fraction)]

open Source in
/-- Reads a wave, its share by a reader of its own. -/
def readWith? [Source δ] (share : δ → Option Float) : δ → Option BurstPhase :=
  record do
    let name ← required "name" text
    let fraction ← required "fraction" share
    return { name, fraction }

/-- Reads a wave. -/
def read? [Source δ] : δ → Option BurstPhase := readWith? Source.real

/-- The parts of a written wave. -/
def outline : Outline := .ofFields [] ["name", "fraction"]

/-- The share is a finite positive number. -/
def isUsable (p : BurstPhase) : Bool := p.fraction.isFinite && !(p.fraction ≤ 0.0)

end BurstPhase

/-! ## Settings -/

/-- The settings of a run. -/
structure Settings where
  baseUrl : String
  apiPrefix : String
  statusPolicy : StatusPolicy
  /-- What a call may take beyond the delay it asks for, in seconds. -/
  timeoutMarginSecs : Float
  /-- What a call may take that asks for no delay, in seconds. -/
  defaultTimeoutSecs : Float
  rampStages : Nat
  burstPhases : List BurstPhase
  maxIdlePerHost : Nat
  verbosity : Verbosity
deriving DecidableEq

namespace Settings

/-- The settings where nothing else is said. -/
def standard : Settings where
  baseUrl := "http://localhost:7777"
  apiPrefix := "/api/v1/standard"
  statusPolicy := .ignore
  timeoutMarginSecs := 10.0
  defaultTimeoutSecs := 30.0
  rampStages := 4
  burstPhases := [⟨"initial load", 0.25⟩, ⟨"peak load", 1.0⟩, ⟨"cool down", 0.5⟩]
  maxIdlePerHost := 256
  verbosity := .normal

/-- The environment variable that overrides the address of the service. -/
def baseUrlVariable : String := "LOADSCOPE_BASE_URL"

/-- The environment variable that overrides how a status is judged. -/
def statusPolicyVariable : String := "LOADSCOPE_STATUS_POLICY"

/-- The settings with the overrides of an environment: the address if it is not blank, and the
    policy, which must be a known spelling. -/
def withEnvironment (s : Settings) (value? : String → Option String) : Except Fault Settings :=
  let s := match value? baseUrlVariable with
    | some url => if (Text.trim url).isEmpty then s else { s with baseUrl := url }
    | none => s
  match value? statusPolicyVariable with
  | some text => do return { s with statusPolicy := ← StatusPolicy.parse text }
  | none => .ok s

/-- The first thing that is wrong with the settings, if any is. -/
def fault? (s : Settings) : Option SettingsFault :=
  if (Text.trim s.baseUrl).isEmpty then some .emptyBaseUrl
  else if s.rampStages == 0 then some .noRampStages
  else if s.burstPhases.isEmpty then some .noBurstPhases
  else
    match s.burstPhases.find? (!·.isUsable) with
    | some phase => some (.burstPhase phase.name)
    | none =>
      if !(s.defaultTimeoutSecs.isFinite && 0.0 < s.defaultTimeoutSecs) then some .defaultTimeout
      else if !(s.timeoutMarginSecs.isFinite && 0.0 ≤ s.timeoutMarginSecs) then some .timeoutMargin
      else none

/-- The settings can be used. -/
def validate (s : Settings) : Except Fault Unit :=
  match s.fault? with
  | some cause => .error (.settings cause)
  | none => .ok ()

/-- A text without the slashes at its end. -/
def trimSlashes (s : String) : String := String.ofList (Text.dropEndWhile (· == '/') s.toList)

/-- The address of an endpoint: the base and the common part lose the slashes at their ends, the
    path those in front, and one slash stands before the path. -/
def url (s : Settings) (path : String) : String :=
  trimSlashes s.baseUrl ++ trimSlashes s.apiPrefix ++ "/"
    ++ String.ofList (path.toList.dropWhile (· == '/'))

/-- The number of nanoseconds in a second. -/
def nanosPerSecond : Nat := 1000000000

/-- A number of seconds as whole nanoseconds, a half going to the even neighbour; a span is not
    negative and shorter than `2 ^ 64` seconds. -/
def nanoseconds? (secs : Float) : Option Nat :=
  match Binary64.dyad? secs with
  | none => none
  | some d =>
    let nanos := (d.scale nanosPerSecond).wholeEven
    if (d.negative && d.mantissa != 0) || Counter.size * nanosPerSecond ≤ nanos then none
    else some nanos

/-- How long a call may take, in nanoseconds: the delay it asks for and the margin on top, or the
    default; where that is no span the default, and where that is none either half a minute. -/
def timeLimit (s : Settings) (c : Call) : Nat :=
  let secs := match c.timeoutSecs with
    | some t => t + s.timeoutMarginSecs
    | none => s.defaultTimeoutSecs
  match nanoseconds? secs with
  | some n => n
  | none => (nanoseconds? s.defaultTimeoutSecs).getD (30 * nanosPerSecond)

/-! ## Written forms -/

/-- The written form. -/
def data (s : Settings) : Data :=
  .record [("base_url", .text s.baseUrl), ("api_prefix", .text s.apiPrefix),
    ("status_policy", s.statusPolicy.data), ("timeout_margin_secs", .real s.timeoutMarginSecs),
    ("default_timeout_secs", .real s.defaultTimeoutSecs), ("ramp_stages", .natural s.rampStages),
    ("burst_phases", .list (s.burstPhases.map BurstPhase.data)),
    ("max_idle_per_host", .natural s.maxIdlePerHost), ("verbosity", s.verbosity.data)]

open Source in
/-- Reads settings; what is missing is taken from the standard. -/
def read? [Source δ] : δ → Option Settings :=
  record do
    let baseUrl ← defaulted "base_url" standard.baseUrl text
    let apiPrefix ← defaulted "api_prefix" standard.apiPrefix text
    let statusPolicy ← defaulted "status_policy" standard.statusPolicy StatusPolicy.read?
    let timeoutMarginSecs ← defaulted "timeout_margin_secs" standard.timeoutMarginSecs real
    let defaultTimeoutSecs ← defaulted "default_timeout_secs" standard.defaultTimeoutSecs real
    let rampStages ← defaulted "ramp_stages" standard.rampStages count
    let burstPhases ← defaulted "burst_phases" standard.burstPhases (listOf BurstPhase.read?)
    let maxIdlePerHost ← defaulted "max_idle_per_host" standard.maxIdlePerHost count
    let verbosity ← defaulted "verbosity" standard.verbosity Verbosity.read?
    return { baseUrl, apiPrefix, statusPolicy, timeoutMarginSecs, defaultTimeoutSecs, rampStages,
             burstPhases, maxIdlePerHost, verbosity }

/-- The parts of written settings. -/
def outline : Outline :=
  .ofFields [("burst_phases", .list BurstPhase.outline)]
    ["base_url", "api_prefix", "status_policy", "timeout_margin_secs", "default_timeout_secs",
      "ramp_stages", "max_idle_per_host", "verbosity"]

end Settings

end LoadBench
