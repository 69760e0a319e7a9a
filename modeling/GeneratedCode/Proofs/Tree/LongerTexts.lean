import Mathlib.Tactic
import GeneratedCode.Proofs.Tree.Cancelling
import GeneratedCode.Proofs.Trivia.Joining

/-!
What is known of a text when only its beginning is.

A piece of trivia that something follows is one of every longer text (`isPrefix_pieces_append`), so
a longer text has all the trivia in front of a token, and of a text that is nothing but trivia all
but the last, which may go on. Of a token, one character behind it settles that it does not go on
(`Token.first_append`). `Tree.reading_longer_text` puts this together.
-/

namespace GeneratedCode

open Text

namespace Trivia

variable {s rest : Text} {lineStart : Bool} {t : Trivia} {before after : List Trivia}

/-- No piece of trivia is empty. -/
lemma text_ne_nil_of_mem_pieces (h : t ∈ (pieces lineStart s).1) : t.text ≠ [] := by
  fun_induction pieces lineStart s with
  | case1 => simp at h
  | case2 lineStart s first rest hnext ts after hrec ih =>
      rcases List.mem_cons.1 h with rfl | hmem
      · exact ne_nil_of_next? hnext
      · rw [hrec] at ih
        exact ih hmem

/-- **Pieces that something follows** are the first pieces of every longer text. -/
lemma isPrefix_pieces_append (h : pieces lineStart s = (before ++ after, rest))
    (hfollowed : texts after ++ rest ≠ []) (more : Text) :
    before <+: (pieces lineStart (s ++ more)).1 := by
  induction before generalizing lineStart s with
  | nil => exact List.nil_prefix
  | cons t before ih =>
      obtain ⟨behind, hnext, hrec⟩ := exists_of_pieces_cons h
      have hbehind : behind ≠ [] := by
        rintro rfl
        rw [pieces_nil] at hrec
        obtain ⟨hts, rfl⟩ := Prod.mk.inj hrec
        obtain ⟨-, rfl⟩ := List.append_eq_nil_iff.1 hts.symm
        exact hfollowed rfl
      rw [pieces_of_some (next?_append hnext hbehind more)]
      exact (List.prefix_cons_inj t).2 (ih hrec)

/-- Trivia in front of a token that something follows are the first ones of every longer text. -/
lemma isPrefix_leadingOf_append (h : (leadingOf s).trivia = before ++ after)
    (hfollowed : texts after ++ (leadingOf s).rest ≠ []) (more : Text) :
    before <+: (leadingOf (s ++ more)).trivia := by
  rcases eq_or_ne s [] with rfl | hs
  · have hnil : before ++ after = [] := by rw [← h, leadingOf, markLength]; simp
    rw [(List.append_eq_nil_iff.1 hnil).1]
    exact List.nil_prefix
  · have hpieces : pieces true (s.drop (markLength s)) = (before ++ after, (leadingOf s).rest) :=
      Prod.ext h rfl
    rw [leadingOf, markLength_append hs, List.drop_append_of_le_length (markLength_le s)]
    exact isPrefix_pieces_append hpieces hfollowed more

end Trivia

namespace Token

lemma kind_first_eq_token_iff (s : Text) :
    (first s).kind = .token ↔ (Trivia.leadingOf s).rest ≠ [] := by
  rw [first, ofLeading]
  cases (Trivia.leadingOf s).rest <;> simp

end Token

namespace Tree

open Trivia

/-- **Reading a longer text**: a token that ends before its text does is the token of every longer
text, with all that is known of it. The trivia of a text are the first ones of every longer text:
all of them if there is a token behind them, and all but the last if there is none. -/
theorem reading_longer_text (t more : Text) :
    ∃ here there token whole,
      ((leading t).outcome .unlimited).1 = .ok here ∧
      ((leading (t ++ more)).outcome .unlimited).1 = .ok there ∧
      ((Token.read t).outcome .unlimited).1 = .ok token ∧
      ((Token.read (t ++ more)).outcome .unlimited).1 = .ok whole ∧
      (token.kind = .token → token.position + token.text.length < t.length → whole = token) ∧
      (token.kind = .token → here.trivia <+: there.trivia) ∧
      (token.kind = .endOfFile → here.trivia.dropLast <+: there.trivia) := by
  refine ⟨leadingOf t, leadingOf (t ++ more), Token.first t, Token.first (t ++ more),
    outcome_leading_unlimited t, outcome_leading_unlimited _, Token.outcome_read_unlimited t,
    Token.outcome_read_unlimited _, fun _ hend => Token.first_append hend more, ?token, ?endOfFile⟩
  case token =>
    intro hkind
    refine isPrefix_leadingOf_append (List.append_nil _).symm ?_ more
    exact (Token.kind_first_eq_token_iff t).1 hkind
  case endOfFile =>
    intro _
    rcases List.eq_nil_or_concat (leadingOf t).trivia with hnil | ⟨before, last, hlast⟩
    · rw [hnil]
      exact List.nil_prefix
    · rw [List.concat_eq_append] at hlast
      rw [hlast, List.dropLast_concat]
      refine isPrefix_leadingOf_append hlast ?_ more
      have hmem : last ∈ (leadingOf t).trivia := by simp [hlast]
      simpa using fun hempty => absurd hempty (text_ne_nil_of_mem_pieces hmem)

/-- A word with a blank behind it is the token of the longer text too. A carriage return at the end
of a text is no piece of the longer text if a line feed follows. -/
theorem reading_longer_text_of_int :
    let t := "\ufeff//// a\rint ".toList
    let u := "/**/ // b\r".toList
    (∃ token, ((Token.read t).outcome .unlimited).1 = .ok token ∧ token.kind = .token ∧
      token.position + token.text.length < t.length ∧
      ((Token.read (t ++ "x".toList)).outcome .unlimited).1 = .ok token) ∧
    ∃ here there, ((leading u).outcome .unlimited).1 = .ok here ∧
      ((leading (u ++ "\n".toList)).outcome .unlimited).1 = .ok there ∧
      here.trivia.dropLast <+: there.trivia ∧ ¬ here.trivia <+: there.trivia := by
  intro t u
  constructor
  · have hfirst : Token.first t = ⟨.token, "int".toList, 8,
        [⟨.singleLineComment, "//// a".toList⟩, ⟨.endOfLine, ['\r']⟩], true⟩ := by decide +kernel
    have hread := (Token.outcome_read_unlimited t).trans (congrArg Except.ok hfirst)
    have hend : 8 + "int".toList.length < t.length := by decide
    obtain ⟨_, _, token, whole, -, -, htoken, hwhole, hsame, -, -⟩ :=
      reading_longer_text t "x".toList
    obtain rfl := Except.ok.inj (hread.symm.trans htoken)
    obtain rfl := hsame rfl hend
    exact ⟨_, htoken, rfl, hend, hwhole⟩
  · have hhere : leadingOf u = ⟨[⟨.multiLineComment, "/**/".toList⟩, ⟨.whitespace, [' ']⟩,
        ⟨.singleLineComment, "// b".toList⟩, ⟨.endOfLine, ['\r']⟩], 10, []⟩ := by decide +kernel
    have hthere : leadingOf (u ++ "\n".toList) = ⟨[⟨.multiLineComment, "/**/".toList⟩,
        ⟨.whitespace, [' ']⟩, ⟨.singleLineComment, "// b".toList⟩,
        ⟨.endOfLine, ['\r', '\n']⟩], 11, []⟩ := by decide +kernel
    have hkind : (Token.first u).kind = .endOfFile := by rw [Token.first, hhere]; rfl
    obtain ⟨here, there, token, _, hu, hmore, hread, -, -, -, hdrop⟩ :=
      reading_longer_text u "\n".toList
    obtain rfl := Except.ok.inj ((Token.outcome_read_unlimited u).symm.trans hread)
    have hpre := hdrop hkind
    obtain rfl : leadingOf u = here :=
      Except.ok.inj ((outcome_leading_unlimited u).symm.trans hu)
    obtain rfl : leadingOf (u ++ "\n".toList) = there :=
      Except.ok.inj ((outcome_leading_unlimited _).symm.trans hmore)
    refine ⟨_, _, hu, hmore, hpre, ?_⟩
    rw [hhere, hthere]
    decide

end Tree

end GeneratedCode
