import Mathlib.Tactic
import GeneratedCode.Proofs.Marker.Comments
import GeneratedCode.Proofs.Tree.Root
import GeneratedCode.Proofs.Trivia.Joining

/-!
Markers in a text as it stands in a file.

A text carries a marker if it starts with a header (`Marker.IsHeader`), behind which a line follows
that is a marker, blanks at its end aside. `hasMarker_iff_split` is the main result. It needs that
the pieces of trivia in front of a comment are just those of the text up to there
(`Trivia.pieces_texts`), and that behind a header a comment is read as one
(`Trivia.pieces_append_of_ends`).
-/

namespace GeneratedCode

open Text Trivia

namespace Marker

/-- A text of nothing but trivia, behind which a comment can stand that still counts: at most one
line comment is among them, and the last of them ends where it does. -/
structure IsHeader (u : Text) : Prop where
  head?_ne : u.head? ≠ some byteOrderMark
  exists_leading : ∃ l, ((leading u).outcome .unlimited).1 = .ok l ∧ l.position = u.length ∧
    (lineComments l.trivia).length ≤ 1 ∧
    ∀ t ∈ l.trivia.getLast?, t.kind = .endOfLine ∨ t.kind = .whitespace ∨
      t.kind = .multiLineComment ∧ IsClosed t.text

/-- A header in terms of its pieces. -/
lemma isHeader_iff {u : Text} :
    IsHeader u ↔ u.head? ≠ some byteOrderMark ∧ ∃ ts, pieces true u = (ts, []) ∧
      (lineComments ts).length ≤ 1 ∧
      ∀ t ∈ ts.getLast?, t.kind = .endOfLine ∨ t.kind = .whitespace ∨
        t.kind = .multiLineComment ∧ IsClosed t.text := by
  have hread (hhead : u.head? ≠ some byteOrderMark) :
      ((leading u).outcome .unlimited).1 =
        .ok ⟨(pieces true u).1, (Trivia.texts (pieces true u).1).length, (pieces true u).2⟩ := by
    have hmark : markLength u = 0 := if_neg hhead
    rw [outcome_leading, if_pos (Call.affords_of_allowed_none rfl _), leadingOf, hmark]
    simp
  constructor
  · rintro ⟨hhead, l, hl, hposition, hcount, hlast⟩
    rw [hread hhead] at hl
    obtain rfl := Except.ok.inj hl
    have hlength := congrArg List.length (append_pieces true u)
    have hrest : (pieces true u).2 = [] := by
      rw [List.length_append] at hlength
      exact List.eq_nil_of_length_eq_zero (by dsimp only at hposition; omega)
    exact ⟨hhead, _, Prod.ext rfl hrest, hcount, hlast⟩
  · rintro ⟨hhead, ts, hts, hcount, hlast⟩
    have htexts : Trivia.texts ts = u := by simpa [hts] using append_pieces true u
    rw [hts] at hread
    exact ⟨hhead, _, hread hhead, congrArg List.length htexts, hcount, hlast⟩

/-- Every marker starts like a line comment that is no documentation. -/
lemma exists_of_trimRight_mem {comment : Text} (h : trimRight comment ∈ texts) :
    ∃ body, comment = '/' :: '/' :: ' ' :: body := by
  have hstart : ∀ m ∈ texts, ['/', '/', ' '] <+: m := by decide
  have htrim : trimRight comment <+: comment := by
    rw [trimRight, ← List.reverse_suffix, List.reverse_reverse]
    exact List.dropWhile_suffix _
  obtain ⟨body, rfl⟩ := (hstart _ h).trans htrim
  exact ⟨body, rfl⟩

/-- A marker up to the end of its line is read as a line comment. -/
lemma next?_marker (lineStart : Bool) {comment rest : Text} (hmarker : trimRight comment ∈ texts)
    (hline : ∀ c ∈ comment, c ∉ lineBreaks) (hrest : ∀ c ∈ rest.head?, c ∈ lineBreaks) :
    next? lineStart (comment ++ rest) = some (⟨.singleLineComment, comment⟩, rest) := by
  have hwf : WellFormed (lineStart = true) (rest = []) ⟨.singleLineComment, comment⟩ := by
    obtain ⟨body, rfl⟩ := exists_of_trimRight_mem hmarker
    exact ⟨hline, by simp, by simp⟩
  exact next?_of_wellFormed hwf hrest

/-- What stands in front of a comment is a header, if few enough line comments do. -/
lemma isHeader_of_pieces {s rest comment : Text} {before after : List Trivia}
    (h : pieces true s = (before ++ ⟨.singleLineComment, comment⟩ :: after, rest))
    (hcount : (lineComments before).length ≤ 1) : IsHeader (Trivia.texts before) := by
  obtain ⟨hs, hall, -⟩ := pieces_eq_iff.1 h
  obtain ⟨-, ⟨body, rfl⟩, -⟩ := (hall before _ after rfl).1
  refine isHeader_iff.2 ⟨?_, before, pieces_texts h, hcount, ?_⟩
  · -- a byte order mark starts no trivia
    intro hhead
    obtain ⟨u, hu⟩ := List.head?_eq_some_iff.1 hhead
    have hnone : next? true (byteOrderMark :: u) = none :=
      next?_eq_none_iff.2 ⟨by simp [byteOrderMark], by simp [byteOrderMark], by
        simp [byteOrderMark, lineBreaks, spaces]⟩
    have hnil := pieces_texts h
    rw [hu, pieces_of_none hnone] at hnil
    simp at hnil
  · intro t ht
    obtain ⟨front, rfl⟩ := List.getLast?_eq_some_iff.1 ht
    obtain ⟨hwf, hmax⟩ := hall front t _ (List.append_assoc _ _ _)
    obtain ⟨kind, text⟩ := t
    cases kind with
    | endOfLine => exact .inl rfl
    | whitespace => exact .inr (.inl rfl)
    | multiLineComment =>
        refine .inr (.inr ⟨rfl, ?_⟩)
        rcases hwf.2 with hclosed | ⟨-, hend⟩
        · exact hclosed
        · simp at hend
    | _ =>
        -- such a comment goes on up to the end of its line
        have hbreak : '/' ∈ lineBreaks := hmax '/' rfl
        exact absurd hbreak (by decide)

/-- The pieces of a header end in front of a comment. -/
lemma ends_of_isHeader {ts : List Trivia} {s : Text}
    (h : ∀ t ∈ ts.getLast?, t.kind = .endOfLine ∨ t.kind = .whitespace ∨
      t.kind = .multiLineComment ∧ IsClosed t.text) : Ends ts ('/' :: s) := by
  intro t ht
  obtain ⟨kind, text⟩ := t
  rcases h _ ht with rfl | rfl | ⟨rfl, hclosed⟩
  · exact ⟨by simp [Trivia.Maximal], by simp⟩
  · exact ⟨by simp [Trivia.Maximal, spaces], by simp⟩
  · exact ⟨trivial, fun _ => hclosed⟩

/-- The trivia in front of a text are signed if and only if the text splits into a header, a marker
and the end of its line. -/
lemma isSigned_pieces_iff {s : Text} :
    isSigned (pieces true s).1 = true ↔
      ∃ u comment rest, s = u ++ comment ++ rest ∧ IsHeader u ∧ (∀ c ∈ comment, c ∉ lineBreaks) ∧
        trimRight comment ∈ texts ∧ ∀ c ∈ rest.head?, c ∈ lineBreaks := by
  rw [isSigned_iff]
  constructor
  · rintro ⟨before, comment, after, hts, hcount, hmarker⟩
    have hpieces : pieces true s =
        (before ++ ⟨.singleLineComment, comment⟩ :: after, (pieces true s).2) := Prod.ext hts rfl
    obtain ⟨hs, hall, -⟩ := pieces_eq_iff.1 hpieces
    obtain ⟨⟨hline, -⟩, hmax⟩ := hall before _ after rfl
    refine ⟨Trivia.texts before, comment, Trivia.texts after ++ (pieces true s).2, ?_,
      isHeader_of_pieces hpieces (Nat.le_of_lt_succ hcount), hline, ?_, hmax⟩
    · simpa using hs
    · simpa [isMarker] using hmarker
  · rintro ⟨u, comment, rest, rfl, hheader, hline, hmarker, hrest⟩
    obtain ⟨-, ts, hts, hcount, hlast⟩ := isHeader_iff.1 hheader
    obtain ⟨body, hbody⟩ := exists_of_trimRight_mem hmarker
    have hends : Ends ts (comment ++ rest) := by
      rw [hbody]
      exact ends_of_isHeader hlast
    have hnext := next?_marker (lineStartAfter true ts) hmarker hline hrest
    rw [List.append_assoc, pieces_append_of_ends hts hends, pieces_of_some hnext]
    exact ⟨ts, comment, _, rfl, Nat.lt_succ_of_le hcount, by simpa [isMarker] using hmarker⟩

/-- The scan of a new tree over a text, which nothing cancels, says whether the trivia in front of
the text are signed. -/
lemma outcome_hasMarker_text (disk : Reader) (path s : Text) :
    ((hasMarker (Tree.getRoot disk)).outcome ⟨⟨path, .text s, none, 0⟩, .unlimited⟩).1 =
      .ok (isSigned (leadingOf s).trivia) := by
  have hyields := @Tree.yields_hasMarker disk ⟨⟨path, .text s, none, 0⟩, .unlimited⟩
    (Tree.faithful_of_root_eq_none rfl)
  rw [(hyields.unlimited rfl (by simp [Call.unlimited])).1]
  have hsigned : Root.isSigned (Source.rootOf (Token.first s)) =
      (!(leadingOf s).trivia.isEmpty && isSigned (leadingOf s).trivia) := rfl
  change Except.ok (Root.isSigned (Source.rootOf (Token.first s))) = _
  rw [hsigned]
  cases (leadingOf s).trivia <;> rfl

/-- **Markers in a text**: a text carries a marker if and only if, a byte order mark in front of it
aside, it splits into a header, a marker with blanks behind it, and either nothing or a text that
starts with the end of a line. The scan always finds out which it is. -/
theorem hasMarker_iff_split (disk : Reader) (path s : Text) :
    ∃ signed, ((hasMarker (Tree.getRoot disk)).outcome
        ⟨⟨path, .text s, none, 0⟩, .unlimited⟩).1 = .ok signed ∧
      (signed = true ↔ ∃ u comment rest, s.drop (markLength s) = u ++ comment ++ rest ∧
        IsHeader u ∧ (∀ c ∈ comment, c ∉ lineBreaks) ∧ trimRight comment ∈ texts ∧
        ∀ c ∈ rest.head?, c ∈ lineBreaks) :=
  ⟨_, outcome_hasMarker_text disk path s, isSigned_pieces_iff⟩

end Marker

end GeneratedCode
