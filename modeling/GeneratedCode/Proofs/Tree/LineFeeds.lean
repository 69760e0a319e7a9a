import Mathlib.Tactic
import GeneratedCode.Proofs.Marker.Header
import GeneratedCode.Proofs.Trivia.LineFeeds

/-!
The way in which the lines of a file end has no say in its first token.

`Tree.reading_with_line_feeds` is the main result: a text and the same text with line feeds as its
only line ends have the same first token, with the same trivia up to their line ends, and carry a
marker both or neither. It has three ingredients:

* the trivia in front of a token are rewritten one by one (`Trivia.leadingOf_withLineFeeds`);
* no word reaches past the end of its line (`Token.textAt_withLineFeeds`);
* line comments hold no end of a line, so the same ones are markers
  (`Marker.isSigned_leadingOf_withLineFeeds`).
-/

namespace GeneratedCode

open Text Trivia

namespace Token

/-- Words hold no ends of lines. -/
lemma notMem_lineBreaks_of_isWordChar {c : Char} (hc : isWordChar c = true) : c ∉ lineBreaks := by
  have hnone : lineBreaks.all (!isWordChar ·) = true := by decide +kernel
  intro hmem
  simpa [hc] using List.all_eq_true.1 hnone c hmem

/-- The token at the front of a text is the same in the rewritten text. -/
lemma textAt_withLineFeeds {s : Text} (h : ∀ c ∈ s.head?, c ∉ lineBreaks) :
    textAt (Text.withLineFeeds s) = textAt s := by
  cases s with
  | nil => rfl
  | cons c s =>
      rw [withLineFeeds_cons_of_notMem (h c rfl), textAt, textAt,
        takeWhile_withLineFeeds fun d hd => notMem_lineBreaks_of_isWordChar hd]

/-- The first token of a rewritten text. -/
lemma first_withLineFeeds (s : Text) :
    first (Text.withLineFeeds s) =
      { first s with
        position := (Text.withLineFeeds (s.take (first s).position)).length
        leading := (first s).leading.map Trivia.withLineFeeds } := by
  have htext := textAt_withLineFeeds (startsNone_rest s).head?_notMem
  have hempty : (Text.withLineFeeds (leadingOf s).rest).isEmpty = (leadingOf s).rest.isEmpty := by
    rw [Bool.eq_iff_iff, List.isEmpty_iff, List.isEmpty_iff, withLineFeeds_eq_nil_iff]
  simp only [first, ofLeading, leadingOf_withLineFeeds, htext, hempty, List.isEmpty_map]

end Token

namespace Marker

/-- The line comments in front of a token stay as they are. -/
lemma lineComments_map_withLineFeeds {ts : List Trivia}
    (h : ∀ t ∈ ts, t.kind = .singleLineComment → ∀ c ∈ t.text, c ∉ lineBreaks) :
    lineComments (ts.map Trivia.withLineFeeds) = lineComments ts := by
  induction ts with
  | nil => rfl
  | cons t ts ih =>
      have hts := ih fun u hu => h u (by simp [hu])
      rw [List.map_cons]
      by_cases hkind : t.kind = .singleLineComment
      · have hfeeds : t.withLineFeeds.kind = .singleLineComment := hkind
        rw [lineComments_cons_of_eq hkind, lineComments_cons_of_eq hfeeds, hts,
          Trivia.withLineFeeds, withLineFeeds_of_line (h t (by simp) hkind)]
      · have hfeeds : t.withLineFeeds.kind ≠ .singleLineComment := hkind
        rw [lineComments_cons_of_ne hkind, lineComments_cons_of_ne hfeeds, hts]

/-- The trivia of a rewritten text are signed if those of the text are. -/
lemma isSigned_leadingOf_withLineFeeds (s : Text) :
    isSigned (leadingOf (Text.withLineFeeds s)).trivia = isSigned (leadingOf s).trivia := by
  have hread : pieces true (s.drop (markLength s)) = ((leadingOf s).trivia, (leadingOf s).rest) :=
    rfl
  rw [leadingOf_withLineFeeds, isSigned, isSigned, lineComments_map_withLineFeeds]
  intro t ht hkind
  obtain ⟨before, after, hsplit⟩ := List.append_of_mem ht
  obtain ⟨hwf, -⟩ := (pieces_eq_iff.1 hread).2.1 before t after hsplit
  rw [WellFormed, hkind] at hwf
  exact hwf.1

end Marker

namespace Tree

/-- **Other line ends**: with line feeds as its only line ends, a text has a first token of the same
kind and text, with the same trivia in front of it but for their line ends, and at the place where
the text in front of it ends then. A tree over it carries a marker if the one over the text does.
Reading and scanning find all this for every text. -/
theorem reading_with_line_feeds (disk : Reader) (path t : Text) :
    ∃ token token', ((Token.read t).outcome .unlimited).1 = .ok token ∧
      ((Token.read (Text.withLineFeeds t)).outcome .unlimited).1 = .ok token' ∧
      token'.kind = token.kind ∧ token'.text = token.text ∧
      token'.leading = token.leading.map Trivia.withLineFeeds ∧
      token'.position = (Text.withLineFeeds (t.take token.position)).length ∧
      ∃ signed,
        ((Marker.hasMarker (getRoot disk)).outcome ⟨⟨path, .text t, none, 0⟩, .unlimited⟩).1 =
          .ok signed ∧
        ((Marker.hasMarker (getRoot disk)).outcome
          ⟨⟨path, .text (Text.withLineFeeds t), none, 0⟩, .unlimited⟩).1 = .ok signed := by
  refine ⟨_, _, Token.outcome_read_unlimited t, Token.outcome_read_unlimited _, ?_, ?_, ?_, ?_,
    Marker.isSigned (leadingOf t).trivia, ?_, ?_⟩
  · rw [Token.first_withLineFeeds]
  · rw [Token.first_withLineFeeds]
  · rw [Token.first_withLineFeeds]
  · rw [Token.first_withLineFeeds]
  · exact Marker.outcome_hasMarker_text disk path t
  · rw [Marker.outcome_hasMarker_text, Marker.isSigned_leadingOf_withLineFeeds]

end Tree

end GeneratedCode
