import Mathlib.Tactic
import GeneratedCode.Proofs.Marker.Header
import GeneratedCode.Proofs.Tree.Cancelling

/-!
Complete lines on top of a text.

Where a line has ended the reader is in the state in which it starts, so a text of nothing but
trivia that ends with a line can be put in front of another text: their trivia stand one behind the
other (`Trivia.leadingOf_append_of_lines`), and the first token is that of the other text. A marker
is looked for in the first two line comments, so what is seen of the other text depends on how many
of them stand in the lines on top (`Marker.isSigned_append_of_none` and the two behind it).
`Tree.reading_below_lines` puts this together.
-/

namespace GeneratedCode

open Text Trivia

namespace Marker

variable {ts us : List Trivia}

lemma lineComments_append (ts us : List Trivia) :
    lineComments (ts ++ us) = lineComments ts ++ lineComments us := by
  rw [lineComments, List.filter_append, List.map_append]
  rfl

/-- Trivia without a line comment on top change nothing. -/
lemma isSigned_append_of_none (h : lineComments ts = []) :
    isSigned (ts ++ us) = isSigned us := by
  rw [isSigned, lineComments_append, h, List.nil_append, isSigned]

/-- Behind one line comment only one more is read. -/
lemma isSigned_append_of_one {comment : Text} (h : lineComments ts = [comment]) :
    isSigned (ts ++ us) = true ↔ isMarker comment = true ∨
      ∃ first ∈ (lineComments us).head?, isMarker first = true := by
  rw [isSigned, lineComments_append, h, List.singleton_append, maxComments, List.take_succ_cons,
    List.any_cons, Bool.or_eq_true]
  cases lineComments us <;> simp

/-- Behind two line comments none is read. -/
lemma isSigned_append_of_two (h : 2 ≤ (lineComments ts).length) :
    isSigned (ts ++ us) = isSigned ts := by
  rw [isSigned, lineComments_append, maxComments, List.take_append_of_le_length h, isSigned,
    maxComments]

end Marker

namespace Tree

/-- **Lines on top of a text**: a text of nothing but trivia that ends with a line puts its trivia
in front of those of the text behind it, which keeps its first token, unless that starts with a byte
order mark or with the other half of the end of the last line. With no line comment on top, the
whole carries a marker if what is below does; with two or more, if the lines on top do; with just
one, if that is a marker or the first one below is. -/
theorem reading_below_lines (disk : Reader) (path : Text) {a b : Text} {l : Leading} {t : Trivia}
    (hread : ((leading a).outcome .unlimited).1 = .ok l) (hall : l.position = a.length)
    (hlast : t ∈ l.trivia.getLast?) (hkind : t.kind = .endOfLine)
    (hmark : b.head? ≠ some byteOrderMark)
    (hseam : ¬ (a.getLast? = some '\r' ∧ b.head? = some '\n')) :
    ∃ m token whole, ((leading b).outcome .unlimited).1 = .ok m ∧
      ((leading (a ++ b)).outcome .unlimited).1 =
        .ok ⟨l.trivia ++ m.trivia, a.length + m.position, m.rest⟩ ∧
      ((Token.read b).outcome .unlimited).1 = .ok token ∧
      ((Token.read (a ++ b)).outcome .unlimited).1 = .ok whole ∧
      whole.text = token.text ∧ whole.kind = token.kind ∧
      ∃ above below signed : Bool,
        ((Marker.hasMarker (getRoot disk)).outcome ⟨⟨path, .text a, none, 0⟩, .unlimited⟩).1 =
          .ok above ∧
        ((Marker.hasMarker (getRoot disk)).outcome ⟨⟨path, .text b, none, 0⟩, .unlimited⟩).1 =
          .ok below ∧
        ((Marker.hasMarker (getRoot disk)).outcome
          ⟨⟨path, .text (a ++ b), none, 0⟩, .unlimited⟩).1 = .ok signed ∧
        (Marker.lineComments l.trivia = [] → signed = below) ∧
        (2 ≤ (Marker.lineComments l.trivia).length → signed = above) ∧
        ∀ comment, Marker.lineComments l.trivia = [comment] →
          (signed = true ↔ Marker.isMarker comment = true ∨
            ∃ first ∈ (Marker.lineComments m.trivia).head?, Marker.isMarker first = true) := by
  obtain rfl : leadingOf a = l := Except.ok.inj ((outcome_leading_unlimited a).symm.trans hread)
  have hjoined := leadingOf_append_of_lines hall hlast hkind hmark hseam
  have htrivia : (leadingOf (a ++ b)).trivia = (leadingOf a).trivia ++ (leadingOf b).trivia :=
    congrArg Leading.trivia hjoined
  have hfirst : (Token.first (a ++ b)).text = (Token.first b).text ∧
      (Token.first (a ++ b)).kind = (Token.first b).kind := by
    rw [Token.first, Token.first, hjoined, Token.ofLeading, Token.ofLeading]
    exact ⟨rfl, rfl⟩
  refine ⟨leadingOf b, Token.first b, Token.first (a ++ b), outcome_leading_unlimited b,
    (outcome_leading_unlimited _).trans (congrArg Except.ok hjoined),
    Token.outcome_read_unlimited b, Token.outcome_read_unlimited _, hfirst.1, hfirst.2, _, _, _,
    Marker.outcome_hasMarker_text disk path a, Marker.outcome_hasMarker_text disk path b,
    Marker.outcome_hasMarker_text disk path (a ++ b), ?none, ?two, ?one⟩
  case none =>
    intro hnone
    rw [htrivia, Marker.isSigned_append_of_none hnone]
  case two =>
    intro htwo
    rw [htrivia, Marker.isSigned_append_of_two htwo]
  case one =>
    intro comment hone
    rw [htrivia, Marker.isSigned_append_of_one hone]

/-- A line comment on top, with a byte order mark in front and a lone carriage return behind it; the
marker below is the second line comment. -/
theorem reading_below_lines_of_comment :
    let a := "\ufeff// Copyright\r".toList
    let b := "#if X\n/* */ // <auto-generated>\nclass".toList
    let disk : Reader := fun _ => .error (.cannotRead .notFound)
    (∃ l t, ((leading a).outcome .unlimited).1 = .ok l ∧ l.position = a.length ∧
      t ∈ l.trivia.getLast? ∧ t.kind = .endOfLine ∧
      Marker.lineComments l.trivia = ["// Copyright".toList]) ∧
    b.head? ≠ some byteOrderMark ∧ ¬ (a.getLast? = some '\r' ∧ b.head? = some '\n') ∧
    ((Marker.hasMarker (getRoot disk)).outcome
      ⟨⟨[], .text (a ++ b), none, 0⟩, .unlimited⟩).1 = .ok true := by
  intro a b disk
  have hread : leadingOf a = ⟨[⟨.singleLineComment, "// Copyright".toList⟩, ⟨.endOfLine, ['\r']⟩],
      14, []⟩ := by decide +kernel
  have hbelow : (leadingOf b).trivia =
      [⟨.directive, "#if X".toList⟩, ⟨.endOfLine, ['\n']⟩, ⟨.multiLineComment, "/* */".toList⟩,
        ⟨.whitespace, [' ']⟩, ⟨.singleLineComment, "// <auto-generated>".toList⟩,
        ⟨.endOfLine, ['\n']⟩] := by decide +kernel
  have houtcome := (outcome_leading_unlimited a).trans (congrArg Except.ok hread)
  have hall : 14 = a.length := by decide
  have hmark : b.head? ≠ some byteOrderMark := by decide
  have hseam : ¬ (a.getLast? = some '\r' ∧ b.head? = some '\n') := by decide
  obtain ⟨m, _, _, hm, -, -, -, -, -, _, _, signed, -, -, hsigned, -, -, hone⟩ :=
    reading_below_lines disk [] houtcome hall rfl rfl hmark hseam
  obtain rfl : leadingOf b = m := Except.ok.inj ((outcome_leading_unlimited b).symm.trans hm)
  have hfirst : ∃ first ∈ (Marker.lineComments (leadingOf b).trivia).head?,
      Marker.isMarker first = true := by
    rw [hbelow]
    exact ⟨_, rfl, by decide⟩
  obtain rfl : signed = true := (hone _ rfl).2 (.inr hfirst)
  exact ⟨⟨_, _, houtcome, hall, rfl, rfl, rfl⟩, hmark, hseam, hsigned⟩

end Tree

end GeneratedCode
