/-!
# Tokens of a document

The pieces that a text is cut into. Indentation has become explicit: the start of a block and its
end are tokens of their own.
-/

namespace LoadBench.Yaml

/-- How a text is set in a document. -/
inductive Style
  | plain
  | singleQuoted
  | doubleQuoted
  | literal
  | folded
deriving DecidableEq, Repr

/-- A tag, as its bytes: they need not spell a text. -/
abbrev Tag := List UInt8

/-- A token of a document. -/
inductive Token
  | version (major minor : Nat)
  | tagShorthand (handle : String) (expansion : Tag)
  | documentStart
  | documentEnd
  | blockList
  | blockRecord
  | blockEnd
  | flowList
  | flowListEnd
  | flowRecord
  | flowRecordEnd
  | flowEntry
  | entry
  | key
  | value
  | reference (name : String)
  | anchor (name : String)
  | tag (handle : String) (suffix : Tag)
  | scalar (text : String) (style : Style)
deriving DecidableEq, Repr

end LoadBench.Yaml
