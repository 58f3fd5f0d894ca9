import LoadBench.Data.Source
import LoadBench.Json.Quoted

/-!
# Identifiers of runs

A run is known by a number of 128 bits, written as 32 digits of base sixteen in five groups.

* `RunId.render`: the written form.
* `RunId.parse?`: reads it with or without the hyphens, in braces, or as a URN.
-/

namespace LoadBench

/-- The identifier of a run. -/
structure RunId where
  bits : BitVec 128
deriving DecidableEq, Repr

namespace RunId

/-- The identifier without a set bit. -/
def zero : RunId := ⟨0⟩

/-- The sizes of the groups of digits. -/
def groups : List Nat := [8, 4, 4, 4, 12]

/-- The digits of a number in base sixteen, the last `width` of them. -/
def hexDigits : Nat → Nat → List Char
  | 0, _ => []
  | width + 1, n => hexDigits width (n / 16) ++ [Json.Quoted.hexDigit (n % 16)]

/-- Cuts digits into groups with hyphens between them. -/
def grouped : List Nat → List Char → List Char
  | [], _ => []
  | [size], cs => cs.take size
  | size :: rest, cs => cs.take size ++ '-' :: grouped rest (cs.drop size)

/-- The written form. -/
def render (r : RunId) : String := String.ofList (grouped groups (hexDigits 32 r.bits.toNat))

/-- The number that digits of base sixteen spell. -/
def hexNumber? (cs : List Char) : Option Nat :=
  cs.foldlM (fun n c => (Json.Quoted.hexValue? c).map (16 * n + ·)) 0

/-- The digits of the five groups, if the hyphens stand between them. -/
def ungrouped? : List Nat → List Char → Option (List Char)
  | [], cs => if cs.isEmpty then some [] else none
  | [size], cs => if cs.length == size then some cs else none
  | size :: rest, cs =>
    match cs.drop size with
    | '-' :: cs' => (ungrouped? rest cs').map (cs.take size ++ ·)
    | _ => none

/-- The hyphenated form, or 32 digits. -/
def parsePlain? (cs : List Char) : Option RunId := do
  let digits ← if cs.length == 32 then some cs else ungrouped? groups cs
  if digits.length != 32 then none
  return ⟨BitVec.ofNat 128 (← hexNumber? digits)⟩

/-- Reads an identifier: plain, or hyphenated within braces or behind `urn:uuid:`. -/
def parse? (text : String) : Option RunId :=
  match text.toList with
  | '\x7b' :: rest =>
    if rest.length == 37 && rest.getLast? == some '\x7d' then parsePlain? rest.dropLast else none
  | cs =>
    if "urn:uuid:".toList.isPrefixOf cs && cs.length == 45 then parsePlain? (cs.drop 9)
    else parsePlain? cs

/-- An identifier in a document. -/
def read? [Source δ] (d : δ) : Option RunId := do parse? (← Source.text d)

/-- An identifier as data. -/
def data (r : RunId) : Data := .text r.render

end RunId

end LoadBench
