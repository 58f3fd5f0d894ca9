import LoadBench.Settings

/-!
# Which notes are logged

A filter is a list of directives: a level for all notes, or for those of a target and the targets
below it. The directive with the longest target that fits a note decides, and of two with one target
the later one.

* `Filter.read?`: the filter that a text spells.
* `Filter.admits`: whether a note of a target and a level is logged.
* `Verbosity.filter`: the filter in force, that of the environment first.
-/

namespace LoadBench

/-- How grave a note is, gravest first. -/
inductive Level
  | error
  | warn
  | info
  | debug
  | trace
deriving DecidableEq, Repr

namespace Level

/-- All of them, gravest first. -/
def all : List Level := [error, warn, info, debug, trace]

/-- The place from the gravest, which is one. -/
def depth : Level → Nat
  | error => 1
  | warn => 2
  | info => 3
  | debug => 4
  | trace => 5

/-- The name in the log. -/
def name : Level → String
  | error => "ERROR"
  | warn => "WARN"
  | info => "INFO"
  | debug => "DEBUG"
  | trace => "TRACE"

/-- The depth that a word or a digit names, in any case; `off` is none at all. -/
def depthNamed? (s : String) : Option Nat :=
  let word := Text.lowerAscii s
  if word == "off" || word == "0" then some 0
  else (all.find? fun l => word == Text.lowerAscii l.name || word == toString l.depth).map depth

end Level

/-- Notes of a target are logged up to a depth; the empty target is that of every note. -/
structure Directive where
  target : String
  depth : Nat
deriving DecidableEq, Repr

namespace Directive

/-- The character may stand at the start of a directive. -/
def mayStart (c : Char) : Bool := c.isAlphanum || c == '-' || c == ':' || c == '_' || 0x80 ≤ c.toNat

/-- Reads a directive: a level, a target, or both with an equals sign between them. A target on its
    own, and one without a level behind the sign, admits everything. -/
def read? (s : String) : Option Directive :=
  let cs := s.toList
  let target := String.ofList (cs.takeWhile (· != '='))
  if !cs.head?.any mayStart then none
  else
    match cs.dropWhile (· != '=') with
    | [] => some <| match Level.depthNamed? s with
      | some depth => ⟨"", depth⟩
      | none => ⟨s, Level.trace.depth⟩
    | [_] => some ⟨target, Level.trace.depth⟩
    | _ :: level => (Level.depthNamed? (String.ofList level)).map (⟨target, ·⟩)

/-- The directive is about a target. -/
def isAbout (d : Directive) (target : String) : Bool := d.target.toList.isPrefixOf target.toList

end Directive

/-- Which notes are logged. -/
structure Filter where
  directives : List Directive

namespace Filter

/-- Reads a filter: directives with commas between them. -/
def read? (s : String) : Option Filter :=
  ((s.splitOn ",").filter (· != "")).mapM (fun part => Directive.read? (Text.trim part))
    |>.map Filter.mk

/-- The directive that decides about a target. -/
def deciding? (f : Filter) (target : String) : Option Directive :=
  (f.directives.filter (·.isAbout target)).foldl (fun best d =>
    match best with
    | some b => if d.target.length < b.target.length then some b else some d
    | none => some d) none

/-- A note of a target and a level is logged. -/
def admits (f : Filter) (target : String) (level : Level) : Bool :=
  (f.deciding? target).any fun d => level.depth ≤ d.depth

end Filter

/-- The filter of a text from the environment, or, where there is none that can be read, that of the
    verbosity. -/
def Verbosity.filter (v : Verbosity) (environment : Option String) : Filter :=
  ((environment.bind Filter.read?).or (Filter.read? v.directive)).getD ⟨[]⟩

end LoadBench
