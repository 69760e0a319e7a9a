import GeneratedCode.Project.IgnoreFiles
import GeneratedCode.Text.Case

/-!
Source files: the files of a project that have a wanted extension and are not ignored.

Extensions are compared in small letters. The files come in the order of the walk, those of a
directory before those of the directories in it.
-/

namespace GeneratedCode

namespace Project

open Ignore Text

/-- A source file: its path from the top of the project, its name, and what opening it gives. -/
structure SourceFile where
  path : Text
  name : Text
  content : Content

/-- The extensions of source files, unless others are asked for. -/
def defaultExtensions : List Text := [".cs".toList]

/-- Whether the extension of a file name is one of those given. -/
def isWanted (extensions : List Text) (name : Text) : Bool :=
  (extensions.map lower).contains (lower (Path.suffix name))

/-- The source files that lie in a directory itself. -/
def sourceFilesOf (extensions : List Text) (skips : Text → Bool) (stop : Stop) : List SourceFile :=
  stop.files.filterMap fun (name, content) =>
    let path := Path.entryOf stop.directory name
    if isWanted extensions name && !skips path then some ⟨path, name, content⟩ else none

/-- The source files of a project, but for those that lie in a skipped directory or are skipped
themselves. -/
def sourceFiles (extensions : List Text) (skips : Text → Bool) (entries : List Entry) :
    List SourceFile :=
  (walk skips entries).flatMap (sourceFilesOf extensions skips)

/-- The source files of a project that its own rules do not ignore. -/
def keptSourceFiles (extensions : List Text) (entries : List Entry) :
    Except Failure (List SourceFile) :=
  return sourceFiles extensions (← rules entries true).ignores entries

end Project

end GeneratedCode
