import GeneratedCode.Text.Range

/-!
Paths: names with slashes between them.

* `splitSlash` cuts a path at its slashes, and `joinSlash` puts slashes back;
  `joinSlash_splitSlash` says that nothing is lost.
* `names` leaves out the pieces that say nothing, and `collapse` those that `..` takes back.
* `hasNul` says which texts are no path at all.
* `suffix` is the extension of a file name, from its last dot, if that is neither its first nor
  its last character.
-/

namespace GeneratedCode

namespace Path

/-- The pieces of a path between its slashes, empty ones included. -/
def splitSlash : Text → List Text
  | [] => [[]]
  | c :: rest =>
      if c = '/' then [] :: splitSlash rest
      else
        match splitSlash rest with
        | [] => [[c]]
        | piece :: pieces => (c :: piece) :: pieces

/-- The pieces with a slash between each two. -/
def joinSlash : List Text → Text
  | [] => []
  | [piece] => piece
  | piece :: pieces => piece ++ '/' :: joinSlash pieces

/-- The path of an entry of that name in a directory; the top directory has an empty path. -/
def entryOf (directory name : Text) : Text :=
  if directory.isEmpty then name else directory ++ '/' :: name

/-- The names of a path, without those that say nothing. -/
def names (path : Text) : List Text :=
  (splitSlash path).filter fun name => name ≠ [] && name ≠ ['.']

/-- Whether there is a NUL in a text, which no name on a disk can have. -/
def hasNul (text : Text) : Bool :=
  text.contains '\x00'

/-- Takes back the last of some names, which comes first here; where none is left, `..` stays. -/
def goUp : List Text → List Text
  | [] => [['.', '.']]
  | last :: before => if last = ['.', '.'] then last :: last :: before else before

/-- Goes on from some names, the last one first, to the next one. -/
def goOn (done : List Text) (name : Text) : List Text :=
  if name = ['.', '.'] then goUp done else name :: done

/-- The names of a path with each `..` taken back together with the name in front of it, as if no
name were a link. -/
def collapse (names : List Text) : List Text :=
  (names.foldl goOn []).reverse

/-- The extension of a file name, with its dot. -/
def suffix (name : Text) : Text :=
  match name.reverse.dropWhile (· != '.') with
  | [] => []
  | _ :: stem =>
      if stem.isEmpty || stem.length + 1 = name.length then [] else name.drop stem.length

theorem splitSlash_ne_nil (s : Text) : splitSlash s ≠ [] := by
  cases s with
  | nil => simp [splitSlash]
  | cons c rest =>
      rw [splitSlash]
      split
      · simp
      · split <;> simp

theorem joinSlash_splitSlash (s : Text) : joinSlash (splitSlash s) = s := by
  induction s with
  | nil => rfl
  | cons c rest ih =>
      rw [splitSlash]
      split
      · next hc =>
          obtain ⟨piece, pieces, h⟩ := List.exists_cons_of_ne_nil (splitSlash_ne_nil rest)
          rw [h] at ih ⊢
          simp [joinSlash, hc, ih]
      · split
        · next h => exact absurd h (splitSlash_ne_nil rest)
        · next piece pieces h =>
            rw [h] at ih
            cases pieces <;> simp_all [joinSlash]

theorem foldl_goOn_of_notMem {names done : List Text} (h : ['.', '.'] ∉ names) :
    names.foldl goOn done = names.reverse ++ done := by
  induction names generalizing done with
  | nil => rfl
  | cons name rest ih =>
      simp only [List.mem_cons, not_or] at h
      rw [List.foldl_cons, goOn, if_neg (Ne.symm h.1), ih h.2]
      simp

/-- Nothing is taken back where there is no `..`. -/
theorem collapse_of_notMem {names : List Text} (h : ['.', '.'] ∉ names) :
    collapse names = names := by
  rw [collapse, foldl_goOn_of_notMem h]
  simp

example : collapse (names "./p//q/../../../r".toList) = ["..".toList, "r".toList] := by decide

example : suffix "a.b.cs".toList = ".cs".toList ∧ suffix ".cs".toList = [] := by decide

example : suffix "a.".toList = [] ∧ suffix "a".toList = [] := by decide

end Path

end GeneratedCode
