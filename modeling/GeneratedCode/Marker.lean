import GeneratedCode.Tree

/-!
Markers: comments by which a code generator signs a file.

A tree carries a marker if one of the first two line comments in front of its first token is one
of three texts, blanks at its end aside. Other trivia are passed over and not counted. `hasMarker`
makes a check before it asks for the root and one before each piece of trivia that it looks at.
-/

namespace GeneratedCode

open Text

namespace Marker

/-- The comments that generators write. -/
def texts : List Text :=
  ["// This file has been generated by the GUI designer. Do not modify.",
    "// <auto-generated>", "// <autogenerated>"].map String.toList

/-- Whether a comment is a marker. -/
def isMarker (comment : Text) : Bool :=
  texts.contains (trimRight comment)

/-- Generators sign at the very top: no more line comments than these are read. -/
def maxComments : Nat := 2

/-- Looks for a marker in trivia of which `seen` line comments have been read. -/
def scan (seen : Nat) : List Trivia → Attempt Call Bool
  | [] => return false
  | t :: rest => do
      check
      if t.kind ≠ .singleLineComment then scan seen rest
      else if isMarker t.text then return true
      else if seen + 1 ≥ maxComments then return false
      else scan (seen + 1) rest

@[simp] theorem outcome_scan_nil (seen : Nat) (call : Call) :
    (scan seen []).outcome call = (.ok false, call) := rfl

/-- In front of a piece of trivia, a scan makes a check, and passes over all but line comments. -/
theorem outcome_scan_cons (seen : Nat) (t : Trivia) (rest : List Trivia) (call : Call) :
    (scan seen (t :: rest)).outcome call =
      if call.spent then (.error .cancelled, call.tick)
      else if t.kind ≠ .singleLineComment then (scan seen rest).outcome call.tick
      else if isMarker t.text then (.ok true, call.tick)
      else if seen + 1 ≥ maxComments then (.ok false, call.tick)
      else (scan (seen + 1) rest).outcome call.tick := by
  rw [scan, outcome_check_bind]
  repeat' split
  all_goals rfl

/-- Whether the first comments of a tree carry a marker. A tree without a root, or without a first
token that says it has trivia in front, carries none. -/
def hasMarker {τ : Type} (getRoot : Attempt (Visit τ) (Option Root)) : Attempt (Visit τ) Bool := do
  Visit.onCall check
  match ← getRoot with
  | none => return false
  | some root =>
      match root.firstToken with
      | none => return false
      | some token => if token.hasLeading then Visit.onCall (scan 0 token.leading) else return false

end Marker

end GeneratedCode
