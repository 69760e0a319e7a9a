import Mathlib.Tactic
import GeneratedCode.Token
import GeneratedCode.Proofs.Call.Pace
import GeneratedCode.Proofs.Trivia.Extension

/-!
The first token of a text as a function of the text.

`Token.first` is the token that `Token.read` finds for a call that affords the checks, which are
those of the trivia (`outcome_read_eq`). A token that ends before its text does is the first token
of every longer text (`first_append`): this is what makes reading in pieces safe, since it stops
only at such a token, or at the end of the text.
-/

namespace GeneratedCode

namespace Token

open Text Trivia

/-- The first token of a text. -/
def first (s : Text) : Token :=
  ofLeading (leadingOf s)

/-- Reading a text: the first token, for the checks that its trivia take. -/
lemma outcome_read_eq (s : Text) (call : Call) :
    (read s).outcome call =
      if call.affords (leadingTurns s) then (.ok (first s), call.ticks (leadingTurns s))
      else (.error .cancelled, call.overdrawn) := by
  rw [outcome_read, outcome_leading]
  split <;> rfl

/-! ### Longer texts -/

/-- A token that ends before its text does ends there in every longer text. -/
lemma textAt_append {s : Text} (h : (textAt s).length < s.length) (more : Text) :
    textAt (s ++ more) = textAt s := by
  cases s with
  | nil => simp [textAt] at h
  | cons c s =>
      rw [textAt] at h
      rw [List.cons_append, textAt, textAt]
      split
      · next hc =>
          rw [if_pos hc, List.length_cons, List.length_cons] at h
          rw [List.takeWhile_append, if_neg (by omega)]
      · rfl

/-- What ends before the text does is followed by one more character at least. -/
lemma two_le_length_of_textAt {s : Text} (h : (textAt s).length < s.length) : 2 ≤ s.length := by
  cases s with
  | nil => simp [textAt] at h
  | cons c s =>
      rw [textAt] at h
      split at h <;> simp only [List.length_cons, List.length_nil] at h ⊢ <;> omega

lemma endPosition_first (s : Text) :
    (first s).endPosition = (leadingOf s).position + (textAt (leadingOf s).rest).length := rfl

lemma length_rest (s : Text) : (leadingOf s).rest.length = s.length - (leadingOf s).position := by
  rw [leadingOf_rest, List.length_drop]

/-- **More text**: a token that ends before its text does is the first token of every longer text.
-/
lemma first_append {s : Text} (h : (first s).endPosition < s.length) (more : Text) :
    first (s ++ more) = first s := by
  rw [endPosition_first] at h
  have htext : (textAt (leadingOf s).rest).length < (leadingOf s).rest.length := by
    rw [length_rest]
    omega
  have hlength := two_le_length_of_textAt htext
  have hne : (leadingOf s).rest ≠ [] := by
    rintro hnil
    simp [hnil] at hlength
  rw [first, leadingOf_append hlength more, first, ofLeading, ofLeading]
  simp [textAt_append htext more, hne]

/-! ### What it costs -/

/-- Reading the trivia of a text makes their checks and ends in them. -/
lemma costs_leading (s : Text) : Costs (Trivia.leading s) (leadingTurns s) (.ok (leadingOf s)) where
  afforded call _ haffords := by
    refine ⟨call.ticks (leadingTurns s), ?_, rfl, rfl, rfl⟩
    rw [outcome_leading]
    exact if_pos haffords
  overdrawn call _ hpoor := by
    refine ⟨call.overdrawn, ?_, rfl, rfl, rfl⟩
    rw [outcome_leading]
    exact if_neg (Bool.eq_false_iff.1 hpoor)

/-- Reading a text makes the checks of its trivia and ends in its first token. -/
lemma costs_read (s : Text) : Costs (read s) (leadingTurns s) (.ok (first s)) :=
  Costs.bind (m := 0) (costs_leading s) (Paced.pure (first s))

lemma steady_read (s : Text) : Steady (read s) (.ok (first s)) :=
  (costs_read s).steady

/-- Nothing keeps a call without a limit from finding the first token. -/
lemma outcome_read_unlimited (s : Text) : ((read s).outcome .unlimited).1 = .ok (first s) :=
  (steady_read s).unlimited .unlimited rfl

end Token

end GeneratedCode
