import Mathlib.Tactic
import GeneratedCode.Proofs.Trivia.Grammar

/-!
What is read from the front of a text does not change when the text goes on.

One character behind a piece of trivia settles its kind and its end: a carriage return shows
whether a line feed follows it, a run of blanks or a line comment where it stops, and a comment of
several lines that something follows is closed (`next?_append`). Two characters settle that no
trivia start (`next?_append_of_none`), since a lone slash may be the start of a comment.

* `pieces_append`: if two characters follow the pieces of a text, more text adds to what follows
  them and to nothing else.
-/

namespace GeneratedCode

namespace Trivia

open Text

variable {s rest : Text} {lineStart : Bool} {t : Trivia}

lemma WellFormed.append {p : Prop} (h : WellFormed p (rest = []) t) (hrest : rest ≠ [])
    (more : Text) : WellFormed p (rest ++ more = []) t := by
  obtain ⟨kind, text⟩ := t
  cases kind with
  | multiLineComment =>
      obtain ⟨hopen, hclosed | ⟨-, hend⟩⟩ := h
      · exact ⟨hopen, .inl hclosed⟩
      · exact absurd hend hrest
  | _ => exact h

lemma Maximal.append (h : Maximal t rest) (hrest : rest ≠ []) (more : Text) :
    Maximal t (rest ++ more) := by
  obtain ⟨c, rest, rfl⟩ := List.exists_cons_of_ne_nil hrest
  obtain ⟨kind, text⟩ := t
  cases kind <;> exact h

/-- A piece that something follows is the first piece of every longer text. -/
lemma next?_append (h : next? lineStart s = some (t, rest)) (hrest : rest ≠ []) (more : Text) :
    next? lineStart (s ++ more) = some (t, rest ++ more) := by
  obtain ⟨rfl, hwf, hmax⟩ := next?_eq_some_iff.1 h
  exact next?_eq_some_iff.2
    ⟨List.append_assoc _ _ _, hwf.append hrest more, hmax.append hrest more⟩

/-- If no trivia start at two characters, none start there in a longer text. -/
lemma next?_append_of_none (h : next? lineStart s = none) (hlength : 2 ≤ s.length) (more : Text) :
    next? lineStart (s ++ more) = none := by
  obtain ⟨hline, hblock, hhead⟩ := next?_eq_none_iff.1 h
  have hshort (pattern : Text) (hp : pattern.length = 2) (hno : ¬ pattern <+: s) :
      ¬ pattern <+: s ++ more := fun hpre =>
    hno (List.prefix_of_prefix_length_le hpre (List.prefix_append s more) (by omega))
  refine next?_eq_none_iff.2 ⟨hshort _ rfl hline, hshort _ rfl hblock, ?_⟩
  cases s with
  | nil => simp at hlength
  | cons c s => exact hhead

/-- **More text**: if two characters follow the pieces of a text, they are those of every longer
text. -/
lemma pieces_append (hlength : 2 ≤ (pieces lineStart s).2.length) (more : Text) :
    pieces lineStart (s ++ more) = ((pieces lineStart s).1, (pieces lineStart s).2 ++ more) := by
  fun_induction pieces lineStart s with
  | case1 lineStart s h => exact pieces_of_none (next?_append_of_none h hlength more)
  | case2 lineStart s t rest h ts after hrec ih =>
      rw [hrec] at ih
      have hrest : rest ≠ [] := by
        rintro rfl
        simp [pieces_nil] at hrec
        simp [hrec] at hlength
      rw [pieces_of_some (next?_append h hrest more), ih hlength]

/-- A text that does not end with its trivia has the byte order mark of every longer text. -/
lemma markLength_append (hs : s ≠ []) (more : Text) : markLength (s ++ more) = markLength s := by
  cases s with
  | nil => exact absurd rfl hs
  | cons c s => rfl

/-- If two characters follow the trivia of a text, a longer text has the same trivia. -/
lemma leadingOf_append (hlength : 2 ≤ (leadingOf s).rest.length) (more : Text) :
    leadingOf (s ++ more) = { leadingOf s with rest := (leadingOf s).rest ++ more } := by
  have hs : s ≠ [] := by
    rintro rfl
    simp [leadingOf_rest] at hlength
  have hlength' : 2 ≤ (pieces true (s.drop (markLength s))).2.length := hlength
  rw [leadingOf, markLength_append hs, List.drop_append_of_le_length (markLength_le s),
    pieces_append hlength' more]
  rfl

end Trivia

end GeneratedCode
