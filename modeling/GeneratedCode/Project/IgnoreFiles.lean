import GeneratedCode.Ignore.Nested
import GeneratedCode.Ignore.Rules
import GeneratedCode.Project.Walk
import GeneratedCode.Text.Line
import GeneratedCode.Text.Utf8

/-!
The ignore files of a project.

A project's own ignore file, or a fixed list where there is none, comes first (`ownLines`). Behind
it come the lines of the `.gitignore` in every directory that a walk reaches which skips what the
first lines ignore, written for the top of the project (`nestedLines`). Together they are the
rules of the project (`rules`).
-/

namespace GeneratedCode

namespace Project

open Ignore

/-- The name of a project's own ignore file. -/
def ownFile : Text := ".genrecogignore".toList

/-- The name of the ignore file of a directory. -/
def nestedFile : Text := ".gitignore".toList

/-- What a project without an ignore file of its own ignores. -/
def defaultLines : List Text :=
  [".git/", ".hg/", ".svn/", ".vs/", ".idea/", ".vscode/", "bin/", "obj/", "packages/",
    "node_modules/", "__pycache__/", ".venv/", "venv/"].map String.toList

/-- The lines of an ignore file, which is read to its end before it is decoded. -/
def readLines (file : OpenFile) : Except Failure (List Text) :=
  match file.whole with
  | .error why => .error (.cannotRead why)
  | .ok bytes =>
      match Text.Utf8.decode bytes with
      | .ok text => .ok (Text.lines (Text.unifyBreaks text))
      | .error what => .error (.malformed what)

/-- The lines of a project's own ignore file. A link that leads nowhere is no file, unless it does
so by a name that is too long; a directory of that name cannot be read, nor can a file that is
refused. -/
def ownLines (entries : List Entry) : Except Failure (List Text) :=
  match entries.find? (·.name = ownFile) with
  | some (.file _ (.ok file)) => readLines file
  | some (.file _ (.error why)) =>
      if why.isAbsence then .ok defaultLines else .error (.cannotRead why)
  | some _ => .error (.cannotRead .isDirectory)
  | none => .ok defaultLines

/-- The lines of the ignore file in a directory, written for the top of the project. -/
def nestedLinesOf (stop : Stop) : Except Failure (List Text) :=
  match stop.files.lookup nestedFile with
  | none => .ok []
  | some (.error why) => .error (.cannotRead why)
  | some (.ok file) => (readLines file).map (·.map (rebase stop.directory))

/-- The lines of the ignore files in some directories, in order. -/
def linesOfStops : List Stop → Except Failure (List Text)
  | [] => .ok []
  | stop :: stops => do
      let lines ← nestedLinesOf stop
      return lines ++ (← linesOfStops stops)

/-- The lines of the ignore files in the directories of a project that `rules` do not ignore. -/
def nestedLines (rules : Rules) (entries : List Entry) : Except Failure (List Text) :=
  linesOfStops (walk rules.ignores entries)

/-- The rules of a project, with or without those of the ignore files in its directories. -/
def rules (entries : List Entry) (nested : Bool) : Except Failure Rules := do
  let own ← ownLines entries
  let base ← Rules.ofLines own
  if nested then Rules.ofLines (own ++ (← nestedLines base entries)) else return base

end Project

end GeneratedCode
