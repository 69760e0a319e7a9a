import GeneratedCode.Path
import GeneratedCode.Project.Entry
import GeneratedCode.Text.Order

/-!
Walks: the directories of a project, one after another.

A walk stops at every directory that it reaches (`Stop`): first at the project itself, then, in the
order of their names, at the directories in it that it does not skip, each followed by what lies
below it. Whether a directory is skipped is asked of its path with a slash at the end. Names are
compared character by character, by code point.
-/

namespace GeneratedCode

namespace Project

/-- A directory that a walk reaches: its path from the top, which has an empty one, and its files
in the order of their names. -/
structure Stop where
  directory : Text
  files : List (Text × Content)

/-- Things with names, in the order of their names. -/
def byName {α : Type} (named : List (Text × α)) : List (Text × α) :=
  named.mergeSort fun a b => Text.precedes a.1 b.1

theorem perm_byName {α : Type} (named : List (Text × α)) : (byName named).Perm named :=
  List.mergeSort_perm _ _

theorem pairwise_byName {α : Type} (named : List (Text × α)) :
    (byName named).Pairwise fun a b => Text.precedes a.1 b.1 = true := by
  unfold byName
  refine List.pairwise_mergeSort ?_ ?_ named
  · intro a b c hab hbc
    exact Text.precedes_trans hab hbc
  · intro a b
    simpa using Text.precedes_total a.1 b.1

/-- The files among some entries, in the order of their names. -/
def files (entries : List Entry) : List (Text × Content) :=
  byName (entries.filterMap Entry.file?)

/-- Blocks of stops in the order of their names. -/
def inOrder (blocks : List (Text × List Stop)) : List Stop :=
  (byName blocks).flatMap (·.2)

mutual

/-- The stops at an entry of `directory` and below it. -/
def Entry.stops (skips : Text → Bool) (directory : Text) : Entry → List Stop
  | .directory name entries =>
      let path := Path.entryOf directory name
      if skips (path ++ ['/']) then []
      else ⟨path, files entries⟩ :: inOrder (blocks skips path entries)
  | _ => []

/-- The stops at each entry of `directory`, with the name of the entry. -/
def blocks (skips : Text → Bool) (directory : Text) : List Entry → List (Text × List Stop)
  | [] => []
  | entry :: entries => (entry.name, entry.stops skips directory) :: blocks skips directory entries

end

/-- The stops of a walk through a project. -/
def walk (skips : Text → Bool) (entries : List Entry) : List Stop :=
  ⟨[], files entries⟩ :: inOrder (blocks skips [] entries)

end Project

end GeneratedCode
