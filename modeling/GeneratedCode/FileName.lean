import GeneratedCode.Text.Range

/-!
Names that code generators give to their files.

A name is generated if it begins with `TemporaryGeneratedFile_` and goes on, or if one of six
known endings stands right before its last dot. Letters are compared without regard to case, and
only the letters `a` to `z` have one.

* `hasTemporaryStart` is the first rule, `stem?` the text before the last dot, and
  `hasGeneratedEnding` the second rule.
* `stem?_eq_some_iff` says what the stem is: what stands before a dot behind which there is no
  other.
-/

namespace GeneratedCode

namespace FileName

/-- The start of a temporary file's name. -/
def temporaryStart : Text :=
  "TemporaryGeneratedFile_".toList

/-- What a generator puts right before the extension. -/
def endings : List Text :=
  ["AssemblyInfo", ".designer", ".generated", ".g", ".g.i", ".AssemblyAttributes"].map String.toList

/-- A text with the letters `a` to `z` as capitals. -/
def fold (s : Text) : Text :=
  s.map Char.toUpper

/-- Whether the name is longer than the start of a temporary file's name, and begins with it. -/
def hasTemporaryStart (path : Text) : Bool :=
  temporaryStart.length < path.length &&
    fold (path.take temporaryStart.length) == fold temporaryStart

/-- What stands before the last dot, if there is a dot. -/
def stem? (path : Text) : Option Text :=
  match path.reverse.dropWhile (· != '.') with
  | [] => none
  | _ :: stem => some stem.reverse

/-- Whether one of the known endings stands right before the last dot. -/
def hasGeneratedEnding (path : Text) : Bool :=
  match stem? path with
  | none => false
  | some stem => endings.any fun ending => (fold ending).isSuffixOf (fold stem)

/-- Whether a code generator would have given this name. -/
def isGenerated (path : Text) : Bool :=
  hasTemporaryStart path || hasGeneratedEnding path

/-- A file without a name is not a generated one. -/
def isGenerated? (path : Option Text) : Bool :=
  path.any isGenerated

theorem stem?_eq_some_iff {path stem : Text} :
    stem? path = some stem ↔ ∃ ext, '.' ∉ ext ∧ path = stem ++ '.' :: ext := by
  have split := List.takeWhile_append_dropWhile (p := (· != '.')) (l := path.reverse)
  constructor
  · intro h
    unfold stem? at h
    split at h
    · simp at h
    · rename_i c front hdrop
      have hdot : c = '.' := by
        have := List.head?_dropWhile_not (· != '.') path.reverse
        simpa [hdrop] using this
      refine ⟨(path.reverse.takeWhile (· != '.')).reverse, ?_, ?_⟩
      · intro hmem
        have := List.all_eq_true.1 List.all_takeWhile _ (List.mem_reverse.1 hmem)
        simp at this
      · have := congrArg List.reverse split
        rw [hdrop, hdot] at this
        simp only [Option.some.injEq] at h
        simpa [← h] using this.symm
  · rintro ⟨ext, hext, rfl⟩
    have hdrop : ((stem ++ '.' :: ext).reverse).dropWhile (· != '.') = '.' :: stem.reverse := by
      have : ∀ c ∈ ext.reverse, (c != '.') = true := by
        intro c hc
        have : c ≠ '.' := fun e => hext (by simpa [e] using hc)
        simpa using this
      simp [List.dropWhile_append_of_pos this]
    rw [stem?, hdrop]; simp

end FileName

end GeneratedCode
