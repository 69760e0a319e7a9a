import GeneratedCode.Failure
import GeneratedCode.Ignore.Glob
import GeneratedCode.Path
import GeneratedCode.Text.Blank

/-!
Patterns: what one line of an ignore file says.

A pattern names paths. It is a row of segments (`Segment`), one for each name of a path, where
`**` stands for any number of directories; it matches a path if it matches the path itself or one
of the directories that lead to it. A few patterns say less: that there is a path at all, or that
it lies in some directory (`Shape`). A line that starts with `!` takes back what earlier lines
say.

* `Pattern.ofLine?` reads a line; blank lines and comments hold no pattern.
* `Shape.matches` says whether a pattern matches a path. A path may hold line feeds: the
  directories passed by `**` may not, and one at the very end of a path does not count.
-/

namespace GeneratedCode

namespace Ignore

open Text

/-! ### Patterns -/

/-- A pattern for one name of a path, or for any number of directories. -/
inductive Segment where
  /-- Any number of directories. -/
  | deep
  /-- Any name that is not empty. -/
  | anyName
  | glob (glob : Glob)
  deriving DecidableEq, Repr

/-- Which paths a pattern names. -/
inductive Shape where
  /-- Every path. -/
  | everything
  /-- Every path in some directory. -/
  | inDirectory
  | segments (row : List Segment)
  deriving DecidableEq, Repr

/-- What one line of an ignore file says: that paths are ignored, or that they are not after all.
-/
structure Pattern where
  negated : Bool
  shape : Shape
  deriving DecidableEq, Repr

/-! ### Matching -/

/-- The places behind no directory or any number of them, from the start of a path. -/
def behindDirectories (t : Marked) : Marked :=
  t.union (((t.one (· ≠ '\n')).run (· ≠ '\n')).one (· = '/'))

/-- The places behind nothing, or behind a slash and one or more characters. -/
def behindDeeper (t : Marked) : Marked :=
  t.union (((t.one (· = '/')).one (· ≠ '\n')).run (· ≠ '\n'))

/-- Moves each mark over a name that the segment spells. -/
def Segment.pass (segment : Segment) (t : Marked) : Marked :=
  match segment with
  | deep => t
  | anyName => (t.one (· ≠ '/')).run (· ≠ '/')
  | glob g => g.pass t

/-- Whether a path may end at a mark behind the segment, or a directory's path go on there. -/
def Segment.closes (segment : Segment) (t : Marked) : Bool :=
  match segment with
  | deep => true
  | anyName => t.reachesEnd || (t.one (· = '/')).reachesEnd
  | glob _ => (t.one (· = '/')).isMarked || t.reachesEnd

/-- Whether a row of segments matches at a mark; `slash` says that the next name has to stand
behind a slash. -/
def matchRow (slash : Bool) : List Segment → Marked → Bool
  | [], t => t.isMarked
  | segment :: row, t =>
      if segment = .deep then
        if row.isEmpty then (t.one (· = '/')).isMarked
        else matchRow true row (behindDeeper t)
      else
        let behind := segment.pass (if slash then t.one (· = '/') else t)
        if row.isEmpty then segment.closes behind else matchRow true row behind

/-- Whether a row of segments matches a path. -/
def matchPath (row : List Segment) (path : Text) : Bool :=
  match row with
  | .deep :: next :: row => matchRow false (next :: row) (behindDirectories (Marked.ofText path))
  | row => matchRow false row (Marked.ofText path)

/-- Whether a pattern of this shape matches a path. -/
def Shape.matches : Shape → Text → Bool
  | everything, path => path.any (· != '\n')
  | inDirectory, path => path.contains '/'
  | segments row, path => matchPath row path

/-! ### Reading a line -/

/-- What `**` is written as. -/
def deepText : Text := ['*', '*']

/-- Drops each `**` that stands behind another. -/
def collapseDeep : List Text → List Text
  | [] => []
  | piece :: pieces =>
      if piece = deepText && pieces.head? = some deepText then collapseDeep pieces
      else piece :: collapseDeep pieces

/-- The pieces of a pattern, with what its slashes mean put into words: one in front ties it to the
top, and so does one inside; without either, it may match in any directory; one at the end asks for
something inside. A pattern may have no pieces. -/
def normalise (pieces : List Text) : List Text :=
  let pieces :=
    match pieces with
    | [] :: rest => rest
    | [piece] => if piece = deepText then [piece] else [deepText, piece]
    | [piece, []] => if piece = deepText then [piece, []] else [deepText, piece, []]
    | rest => rest
  collapseDeep <|
    if pieces.getLast? = some [] then pieces.dropLast ++ [deepText] else pieces

/-- Reads one piece; none is read if it ends in a lone backslash. -/
def Segment.ofText? (piece : Text) : Option Segment :=
  if piece = deepText then some .deep
  else if piece = ['*'] then some .anyName
  else (Glob.ofText? piece).map .glob

/-- Reads the body of a pattern, behind the sign that negates it. -/
def Shape.ofBody? (body : Text) : Option Shape :=
  let pieces := Path.splitSlash body
  let asksInside := pieces.getLast? = some [] && body ≠ ['/']
  match normalise pieces with
  | [] => none
  | row =>
      if row = [deepText] then some (if asksInside then .inDirectory else .everything)
      else if row = [deepText, ['*']] then some .everything
      else if row = [deepText, ['*'], deepText] then some .inDirectory
      else (row.mapM Segment.ofText?).map .segments

/-- Whether a set of some segment has a range that ends before it starts. -/
def Shape.isReversed : Shape → Bool
  | segments row => row.any fun
      | .glob g => g.isReversed
      | _ => false
  | _ => false

/-- A line without the blanks at its end, unless the last of them is a space that a backslash
keeps. -/
def dropBlanks (line : Text) : Text :=
  if "\\ ".toList.isSuffixOf line then line else trimRight line

/-- Reads a line of an ignore file; a blank line or a comment holds no pattern. -/
def Pattern.ofLine? (line : Text) : Except Failure (Option Pattern) :=
  let text := dropBlanks line
  match text with
  | [] => .ok none
  | '#' :: _ => .ok none
  | c :: rest =>
      let negated := c = '!'
      match Shape.ofBody? (if negated then rest else text) with
      | none => .error (.invalidPattern line)
      | some shape =>
          if shape.isReversed then .error .reversedRange else .ok (some ⟨negated, shape⟩)

end Ignore

end GeneratedCode
