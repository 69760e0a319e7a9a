import Mathlib.Tactic
import GeneratedCode.Proofs.Trivia.Extension

/-!
Cutting a text between two pieces of trivia, and putting texts of trivia in front of others.

The reader looks one character past a piece, so a cut has to be shown to leave the pieces in front
of it as they are, and a seam not to join two pieces into one.

* `pieces_texts`: up to a place between two pieces, a text has the pieces up to there and no others.
* `pieces_cut`: up to a place behind all its pieces, a text has the same pieces.
* `pieces_append_of_ends`: in front of a text into which they do not go on (`Ends`), the pieces of
  another are read as they are without it; behind them the reader starts anew.
* `leadingOf_append_of_lines`: so complete lines only put their trivia in front.
-/

namespace GeneratedCode

namespace Trivia

open Text

variable {s u rest : Text} {lineStart : Bool} {t : Trivia} {ts before after : List Trivia}

/-! ### Cutting -/

/-- The first of several pieces, and the others. -/
lemma exists_of_pieces_cons (h : pieces lineStart s = (t :: ts, rest)) :
    ∃ after, next? lineStart s = some (t, after) ∧
      pieces (t.kind.keepsLineStart lineStart) after = (ts, rest) := by
  cases hnext : next? lineStart s with
  | none => simp [pieces_of_none hnext] at h
  | some p =>
      obtain ⟨first, after⟩ := p
      rw [pieces_of_some hnext] at h
      obtain ⟨hhead, hrest⟩ := Prod.mk.inj h
      obtain ⟨rfl, hts⟩ := List.cons.inj hhead
      exact ⟨after, rfl, Prod.ext hts hrest⟩

lemma WellFormed.of_append {p : Prop} {a b : Text} (h : WellFormed p (a ++ b = []) t) :
    WellFormed p (a = []) t := by
  obtain ⟨kind, text⟩ := t
  cases kind with
  | multiLineComment =>
      exact ⟨h.1, h.2.imp_right fun hend => ⟨hend.1, (List.append_eq_nil_iff.1 hend.2).1⟩⟩
  | _ => exact h

lemma Maximal.of_append {a b : Text} (h : Maximal t (a ++ b)) : Maximal t a := by
  cases a with
  | nil => obtain ⟨kind, text⟩ := t; cases kind <;> simp [Maximal]
  | cons c a => obtain ⟨kind, text⟩ := t; cases kind <;> exact h

/-- A piece is the first one of the text that is cut off anywhere behind it. -/
lemma next?_of_append {a b : Text} (h : next? lineStart s = some (t, a ++ b)) :
    next? lineStart (t.text ++ a) = some (t, a) := by
  obtain ⟨-, hwf, hmax⟩ := next?_eq_some_iff.1 h
  exact next?_of_wellFormed hwf.of_append hmax.of_append

/-- **Cutting**: up to a place between two pieces, a text has the pieces up to there. -/
lemma pieces_texts (h : pieces lineStart s = (before ++ after, rest)) :
    pieces lineStart (texts before) = (before, []) := by
  induction before generalizing lineStart s with
  | nil => exact pieces_nil lineStart
  | cons t before ih =>
      rw [List.cons_append] at h
      obtain ⟨behind, hnext, hrec⟩ := exists_of_pieces_cons h
      have hbehind : behind = texts before ++ (texts after ++ rest) := by
        have happend := append_pieces (t.kind.keepsLineStart lineStart) behind
        rw [hrec, texts_append, List.append_assoc] at happend
        exact happend.symm
      subst hbehind
      rw [texts_cons, pieces_of_some (next?_of_append hnext), ih hrec]

/-- Where no trivia start, none start in a text that is cut off further on. -/
lemma next?_eq_none_of_append {a b : Text} (h : next? lineStart (a ++ b) = none) :
    next? lineStart a = none := by
  obtain ⟨hline, hblock, hhead⟩ := next?_eq_none_iff.1 h
  refine next?_eq_none_iff.2 ⟨fun hpre => hline (hpre.trans (List.prefix_append a b)),
    fun hpre => hblock (hpre.trans (List.prefix_append a b)), ?_⟩
  cases a with
  | nil => simp
  | cons c a => exact hhead

/-- A text that is cut off behind its pieces has the same pieces. -/
lemma pieces_cut {a b : Text} (h : pieces lineStart s = (ts, a ++ b)) :
    pieces lineStart (texts ts ++ a) = (ts, a) := by
  induction ts generalizing lineStart s with
  | nil =>
      cases hnext : next? lineStart s with
      | none =>
          obtain rfl : s = a ++ b := by simpa [pieces_of_none hnext] using h
          exact pieces_of_none (next?_eq_none_of_append hnext)
      | some p =>
          obtain ⟨t, after⟩ := p
          simp [pieces_of_some hnext] at h
  | cons t ts ih =>
      obtain ⟨behind, hnext, hrec⟩ := exists_of_pieces_cons h
      have hbehind : behind = texts ts ++ a ++ b := by
        have happend := append_pieces (t.kind.keepsLineStart lineStart) behind
        rw [hrec, ← List.append_assoc] at happend
        exact happend.symm
      subst hbehind
      rw [texts_cons, List.append_assoc, pieces_of_some (next?_of_append hnext), ih hrec]

/-- A text that is cut off behind its trivia has the same trivia. -/
lemma leadingOf_take {n : ℕ} (h : (leadingOf s).position ≤ n) :
    leadingOf (s.take n) =
      { leadingOf s with rest := (leadingOf s).rest.take (n - (leadingOf s).position) } := by
  obtain ⟨ps, hps⟩ : ∃ ps, pieces true (s.drop (markLength s)) = ps := ⟨_, rfl⟩
  have hleading : leadingOf s = ⟨ps.1, markLength s + (texts ps.1).length, ps.2⟩ := by
    rw [leadingOf, hps]
  rw [hleading] at h ⊢
  dsimp only at h ⊢
  have hmark : markLength (s.take n) = markLength s := by
    cases n with
    | zero =>
        rw [show markLength s = 0 by omega]
        rfl
    | succ n => cases s <;> rfl
  have hcut : (s.take n).drop (markLength s) =
      texts ps.1 ++ ps.2.take (n - (markLength s + (texts ps.1).length)) := by
    have happend := append_pieces true (s.drop (markLength s))
    rw [hps] at happend
    rw [List.drop_take, ← happend, List.take_append, List.take_of_length_le (by omega),
      Nat.sub_sub]
  have hsplit : pieces true (s.drop (markLength s)) =
      (ps.1, ps.2.take (n - (markLength s + (texts ps.1).length)) ++
        ps.2.drop (n - (markLength s + (texts ps.1).length))) := by
    rw [hps, List.take_append_drop]
  rw [leadingOf, hmark, hcut, pieces_cut hsplit]

/-! ### Putting together -/

/-- Whether the last of some pieces ends where it does in front of a text. -/
def Ends (ts : List Trivia) (s : Text) : Prop :=
  ∀ t ∈ ts.getLast?, Maximal t s ∧ (t.kind = .multiLineComment → IsClosed t.text)

lemma WellFormed.of_closed {p q : Prop} (h : WellFormed p q t)
    (hclosed : t.kind = .multiLineComment → IsClosed t.text) (r : Prop) : WellFormed p r t := by
  obtain ⟨kind, text⟩ := t
  cases kind with
  | multiLineComment => exact ⟨h.1, .inl (hclosed rfl)⟩
  | _ => exact h

/-- **Putting together**: pieces that end in front of a text are read as they are without it, and
behind them the reader starts anew. -/
lemma pieces_append_of_ends (h : pieces lineStart u = (ts, [])) (hends : Ends ts s) :
    pieces lineStart (u ++ s) = (ts ++ (pieces (lineStartAfter lineStart ts) s).1,
      (pieces (lineStartAfter lineStart ts) s).2) := by
  induction ts generalizing lineStart u with
  | nil =>
      have hnil : u = [] := by simpa [h] using (append_pieces lineStart u).symm
      rw [hnil]
      rfl
  | cons t ts ih =>
      obtain ⟨behind, hnext, hrec⟩ := exists_of_pieces_cons h
      rcases eq_or_ne behind [] with rfl | hbehind
      · -- the last piece
        obtain rfl : ts = [] := by simpa [eq_comm] using hrec
        obtain ⟨rfl, hwf, -⟩ := next?_eq_some_iff.1 hnext
        obtain ⟨hmax, hclosed⟩ := hends t rfl
        have hlast := next?_of_wellFormed (hwf.of_closed hclosed (s = [])) hmax
        rw [List.append_nil, pieces_of_some hlast]
        rfl
      · have hends' : Ends ts s := by
          intro u hu
          have hne : ts ≠ [] := by
            rintro rfl
            simp at hu
          exact hends u (by rwa [List.getLast?_cons_of_ne_nil hne])
        rw [pieces_of_some (next?_append hnext hbehind s), ih hrec hends']
        rfl

/-! ### Complete lines -/

/-- The end of a line ends where it does in front of anything but the other half of it. -/
lemma ends_of_endOfLine (hlast : t ∈ ts.getLast?) (hkind : t.kind = .endOfLine)
    (hseam : t.text = ['\r'] → s.head? ≠ some '\n') : Ends ts s := by
  intro u hu
  obtain rfl := Option.mem_unique hlast hu
  refine ⟨?_, by simp [hkind]⟩
  rw [Maximal, hkind]
  exact hseam

/-- Behind the end of a line a directive may stand. -/
lemma lineStartAfter_of_endOfLine (hlast : t ∈ ts.getLast?) (hkind : t.kind = .endOfLine)
    (lineStart : Bool) : lineStartAfter lineStart ts = true := by
  obtain ⟨front, rfl⟩ := List.getLast?_eq_some_iff.1 hlast
  rw [lineStartAfter_concat, hkind]
  rfl

/-- **Complete lines**: a text of nothing but trivia that ends with a line has its trivia in front
of those of another text, which stands where the reader starts anew. -/
lemma leadingOf_append_of_lines (hall : (leadingOf u).position = u.length)
    (hlast : t ∈ (leadingOf u).trivia.getLast?) (hkind : t.kind = .endOfLine)
    (hmark : s.head? ≠ some byteOrderMark)
    (hseam : ¬ (u.getLast? = some '\r' ∧ s.head? = some '\n')) :
    leadingOf (u ++ s) =
      ⟨(leadingOf u).trivia ++ (leadingOf s).trivia, u.length + (leadingOf s).position,
        (leadingOf s).rest⟩ := by
  obtain ⟨ts, hts⟩ : ∃ ts, (leadingOf u).trivia = ts := ⟨_, rfl⟩
  have hrest : (leadingOf u).rest = [] := by rw [leadingOf_rest, hall, List.drop_length]
  have hpieces : pieces true (u.drop (markLength u)) = (ts, []) := Prod.ext hts hrest
  have htexts : texts ts = u.drop (markLength u) := by
    simpa [hpieces] using append_pieces true (u.drop (markLength u))
  rw [hts] at hlast
  have hne : u ≠ [] := by
    rintro rfl
    have hnil : ts = [] := by simpa [eq_comm] using hpieces
    simp [hnil] at hlast
  have hends : Ends ts s := by
    refine ends_of_endOfLine hlast hkind fun htext hfeed => hseam ⟨?_, hfeed⟩
    obtain ⟨front, rfl⟩ := List.getLast?_eq_some_iff.1 hlast
    rw [← List.take_append_drop (markLength u) u, ← htexts, texts_append, texts_cons, htext]
    simp
  have hjoined := pieces_append_of_ends hpieces hends
  rw [lineStartAfter_of_endOfLine hlast hkind] at hjoined
  have hmark : markLength s = 0 := if_neg hmark
  have hlength := congrArg List.length htexts
  have hle := markLength_le u
  rw [List.length_drop] at hlength
  simp only [leadingOf, markLength_append hne, List.drop_append_of_le_length hle, hjoined, hpieces,
    hmark, List.drop_zero, texts_append, List.length_append, Leading.mk.injEq, true_and, and_true]
  omega

end Trivia

end GeneratedCode
