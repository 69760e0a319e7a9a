import GeneratedCode.Cache.Slot
import GeneratedCode.FileName
import GeneratedCode.Marker

/-!
Classifiers: the two tests that a cache works its answers out by.

They are the test of the file name and the scan of the comments, but a host may put tests of its
own in their place, which answer or fail without a look at the tree.
-/

namespace GeneratedCode

namespace Cache

/-- What a test of the host's says. -/
inductive Ruling where
  | answers (generated : Bool)
  | raises (message : String)
  deriving DecidableEq, Repr

/-- The outcome of a test of the host's. -/
def Ruling.outcome : Ruling → Except Failure Bool
  | answers generated => .ok generated
  | raises message => .error (.raised message)

/-- The tests of a cache, as far as the host puts its own in their place. -/
structure Classifier where
  name : Option Ruling := none
  comments : Option Ruling := none
  deriving Repr

namespace Classifier

/-- The test of the file name. -/
def byName (classifier : Classifier) (path : Text) : Except Failure Bool :=
  match classifier.name with
  | some ruling => ruling.outcome
  | none => .ok (FileName.isGenerated path)

/-- The scan of the comments. -/
def byComment (classifier : Classifier) (disk : Reader) : Attempt (Visit Tree) Bool :=
  match classifier.comments with
  | some ruling => Attempt.ofExcept ruling.outcome
  | none => Marker.hasMarker (Tree.getRoot disk)

end Classifier

end Cache

end GeneratedCode
