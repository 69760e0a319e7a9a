/-!
Texts, and sets of characters given by ranges of code points.

A text is the list of its characters, so that a length or a position counts characters and nothing
else. A property of characters that no short rule gives is a table of ranges (`Ranges`), looked up
by halving; `Ranges.exists_of_contains` says that the search answers with a range that holds the
character.
-/

namespace GeneratedCode

/-- A text is the list of its characters. -/
abbrev Text := List Char

namespace Text

/-- Ranges of code points, both ends included, disjoint and in rising order. -/
structure Ranges where
  rows : Array (Nat × Nat)

namespace Ranges

/-- Looks for `n` among the rows from `lo` to below `hi`, halving the gap at most `fuel` times. -/
def search (t : Ranges) (n : Nat) : (fuel lo hi : Nat) → Bool
  | 0, _, _ => false
  | fuel + 1, lo, hi =>
      if lo < hi then
        let mid := (lo + hi) / 2
        match t.rows[mid]? with
        | none => false
        | some (first, last) =>
            if n < first then search t n fuel lo mid
            else if last < n then search t n fuel (mid + 1) hi
            else true
      else false

/-- Whether some range of the table holds the character. -/
def contains (t : Ranges) (c : Char) : Bool :=
  t.search c.toNat (t.rows.size + 1) 0 t.rows.size

theorem exists_of_search {t : Ranges} {n : Nat} {fuel lo hi : Nat}
    (h : t.search n fuel lo hi = true) : ∃ r ∈ t.rows, r.1 ≤ n ∧ n ≤ r.2 := by
  induction fuel generalizing lo hi with
  | zero => simp [search] at h
  | succ fuel ih =>
      simp only [search] at h
      split at h
      · split at h
        · simp at h
        · rename_i first last hrow
          split at h
          · exact ih h
          · split at h
            · exact ih h
            · exact ⟨(first, last), Array.mem_of_getElem? hrow, by simp; omega⟩
      · simp at h

/-- A positive answer is owed to a range of the table. -/
theorem exists_of_contains {t : Ranges} {c : Char} (h : t.contains c = true) :
    ∃ r ∈ t.rows, r.1 ≤ c.toNat ∧ c.toNat ≤ r.2 :=
  exists_of_search h

end Ranges

end Text

end GeneratedCode
