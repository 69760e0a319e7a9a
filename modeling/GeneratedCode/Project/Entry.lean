import GeneratedCode.Failure

/-!
Project trees: what a directory holds, as a scan sees it.

An entry is a file, a directory, or a closed directory: one that is known to be there, but is not
looked into, because it is a link to another or its path is too long. A link to anything else
counts as a file: opening it gives the file that it leads to, or fails if it leads nowhere.
-/

namespace GeneratedCode

namespace Project

/-- An entry of a directory. -/
inductive Entry where
  | file (name : Text) (content : Content)
  | directory (name : Text) (entries : List Entry)
  | closedDirectory (name : Text)

namespace Entry

/-- The name of an entry. -/
def name : Entry → Text
  | file name _ => name
  | directory name _ => name
  | closedDirectory name => name

/-- The name and the content of a file. -/
def file? : Entry → Option (Text × Content)
  | file name content => some (name, content)
  | _ => none

end Entry

end Project

end GeneratedCode
