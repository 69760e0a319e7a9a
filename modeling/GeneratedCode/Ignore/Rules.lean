import GeneratedCode.Ignore.Pattern

/-!
Ignore rules: the lines of ignore files, in order.

Of the patterns that match a path, the last one decides (`Rules.verdict?`): the path is ignored, or
it is kept although an earlier pattern would have it ignored. A path may start with `/` or `./`,
which says nothing.
-/

namespace GeneratedCode

namespace Ignore

/-- What a pattern decides about a path. -/
inductive Verdict where
  | ignored
  | kept
  deriving DecidableEq, Repr

/-- Lines of ignore files, and the patterns that they hold, in the same order. -/
structure Rules where
  lines : List Text
  patterns : List Pattern
  deriving Repr

/-- The path without the slash, or the dot and slash, that it may start with. -/
def relative : Text → Text
  | '/' :: path => path
  | '.' :: '/' :: path => path
  | path => path

/-- What a pattern decides about the paths that it matches. -/
def Pattern.verdict (pattern : Pattern) : Verdict :=
  if pattern.negated then .kept else .ignored

namespace Rules

/-- Reads the patterns of some lines, up to the first line that holds none and should. -/
def readPatterns : List Text → Except Failure (List Pattern)
  | [] => .ok []
  | line :: lines => do
      let pattern? ← Pattern.ofLine? line
      let patterns ← readPatterns lines
      return pattern?.toList ++ patterns

/-- The rules of some lines; empty lines are dropped. -/
def ofLines (lines : List Text) : Except Failure Rules := do
  let lines := lines.filter (!·.isEmpty)
  return ⟨lines, ← readPatterns lines⟩

/-- What the rules decide about a path, if any pattern matches it. -/
def verdict? (rules : Rules) (path : Text) : Option Verdict :=
  (rules.patterns.reverse.find? (·.shape.matches (relative path))).map (·.verdict)

/-- Whether a path is ignored. -/
def ignores (rules : Rules) (path : Text) : Bool :=
  rules.verdict? path = some .ignored

end Rules

end Ignore

end GeneratedCode
