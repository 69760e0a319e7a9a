import Mathlib.Data.List.TakeWhile
import Mathlib.Tactic
import GeneratedCode.Proofs.Trivia.Pieces

/-!
The grammar of the trivia in front of a token.

`Trivia.IsLeading` says, without reading anything, when some pieces of trivia and a position are
the ones that a text begins with: the pieces make up the text up to the position, each is of its
kind (`Trivia.WellFormed`) and goes on as long as it can (`Trivia.Maximal`), and what stands at the
position starts no trivia (`Trivia.StartsNone`).

* `next?_eq_some_iff`, `next?_eq_none_iff`: one piece. The reader takes a piece off a text exactly
  if the piece is well formed and maximal there, and none exactly if none starts.
* `pieces_eq_iff`: all pieces, by induction on them; the reader's line-start flag is the only thing
  that is carried from one to the next.
* `leading_reads_grammar`: the reader finds the one and only answer of the grammar.
-/

namespace GeneratedCode

namespace Trivia

open Text

/-! ### The grammar -/

/-- The characters that end a line. -/
def lineBreaks : List Char := ['\r', '\n', '\u0085', '\u2028', '\u2029']

/-- What ends a line: one of these characters, or a carriage return and a line feed. -/
def lineEnds : List Text := ['\r', '\n'] :: lineBreaks.map ([·])

/-- White space within a line: tab, vertical tab, form feed, and the separators that are spaces. -/
def spaces : List Char :=
  ['\t', '\u000b', '\u000c', ' ', '\u00a0', '\u1680', '\u2000', '\u2001', '\u2002', '\u2003',
    '\u2004', '\u2005', '\u2006', '\u2007', '\u2008', '\u2009', '\u200a', '\u202f', '\u205f',
    '\u3000']

/-- Whether `*/` stands at a place of a comment that lies behind its opening. -/
def ClosesAt (comment : Text) (i : ℕ) : Prop :=
  2 ≤ i ∧ ['*', '/'] <+: comment.drop i

/-- A comment whose first `*/` is its end. -/
def IsClosed (comment : Text) : Prop :=
  ∃ i, ClosesAt comment i ∧ i + 2 = comment.length ∧ ∀ j < i, ¬ ClosesAt comment j

/-- A comment without `*/`. -/
def IsUnclosed (comment : Text) : Prop :=
  ∀ i, ¬ ClosesAt comment i

/-- Whether a piece of trivia is of its kind, given whether only blanks precede it on its line and
whether the text ends behind it. -/
def WellFormed (lineStart atEnd : Prop) (t : Trivia) : Prop :=
  match t.kind with
  | .endOfLine => t.text ∈ lineEnds
  | .whitespace => t.text ≠ [] ∧ ∀ c ∈ t.text, c ∈ spaces
  | .singleLineComment =>
      (∀ c ∈ t.text, c ∉ lineBreaks) ∧ ['/', '/'] <+: t.text ∧
        ¬ (['/', '/', '/'] <+: t.text ∧ ¬ ['/', '/', '/', '/'] <+: t.text)
  | .documentationComment =>
      (∀ c ∈ t.text, c ∉ lineBreaks) ∧ ['/', '/', '/'] <+: t.text ∧
        ¬ ['/', '/', '/', '/'] <+: t.text
  | .multiLineComment => ['/', '*'] <+: t.text ∧ (IsClosed t.text ∨ IsUnclosed t.text ∧ atEnd)
  | .directive => (∀ c ∈ t.text, c ∉ lineBreaks) ∧ ['#'] <+: t.text ∧ lineStart

/-- Whether a piece of trivia goes on as long as it can in front of `rest`. -/
def Maximal (t : Trivia) (rest : Text) : Prop :=
  match t.kind with
  | .endOfLine => t.text = ['\r'] → rest.head? ≠ some '\n'
  | .whitespace => ∀ c ∈ rest.head?, c ∉ spaces
  | .multiLineComment => True
  | .singleLineComment | .documentationComment | .directive => ∀ c ∈ rest.head?, c ∈ lineBreaks

/-- Whether no trivia start at the front of a text. -/
def StartsNone (lineStart : Prop) (s : Text) : Prop :=
  ¬ ['/', '/'] <+: s ∧ ¬ ['/', '*'] <+: s ∧
    ∀ c ∈ s.head?, c ∉ lineBreaks ∧ c ∉ spaces ∧ ¬ (c = '#' ∧ lineStart)

/-- Whether nothing but white space lies between the last end of a line, or the start, and the end
of some pieces. -/
def AtLineStart (ts : List Trivia) : Prop :=
  ∃ front back, ts = front ++ back ∧ (∀ t ∈ front.getLast?, t.kind = .endOfLine) ∧
    ∀ t ∈ back, t.kind = .whitespace

/-- Whether a text begins with these pieces of trivia, a byte order mark in front of them aside,
and goes on at this position with something else. -/
structure IsLeading (s : Text) (ts : List Trivia) (position : ℕ) : Prop where
  markLength_le : markLength s ≤ position
  position_le : position ≤ s.length
  texts_eq : texts ts = (s.take position).drop (markLength s)
  wellFormed : ∀ before t after, ts = before ++ t :: after →
    WellFormed (AtLineStart before) (texts after ++ s.drop position = []) t
  maximal : ∀ before t after, ts = before ++ t :: after →
    Maximal t (texts after ++ s.drop position)
  startsNone : StartsNone (AtLineStart ts) (s.drop position)

/-! ### Classes of characters -/

lemma isLineBreak_iff {c : Char} : isLineBreak c = true ↔ c ∈ lineBreaks := by
  simp [isLineBreak, lineBreaks, or_assoc]

lemma isLineBreak_eq_false_iff {c : Char} : isLineBreak c = false ↔ c ∉ lineBreaks := by
  rw [← isLineBreak_iff, Bool.not_eq_true]

lemma isSpace_iff {c : Char} : isSpace c = true ↔ c ∈ spaces := by
  constructor
  · intro h
    have hcode : c.toNat ∈ spaces.map Char.toNat := by
      simp only [isSpace, Bool.or_eq_true, Bool.and_eq_true, beq_iff_eq, decide_eq_true_eq] at h
      simp only [spaces, List.map_cons, List.map_nil, List.mem_cons, List.not_mem_nil, or_false,
        Char.reduceToNat]
      omega
    obtain ⟨d, hd, hcode⟩ := List.mem_map.1 hcode
    rwa [← Char.toNat_inj.1 hcode]
  · intro h
    have hall : spaces.all isSpace = true := by decide
    exact List.all_eq_true.1 hall c h

/-! ### Comments of several lines -/

/-- A text in which no comment is closed. -/
def NoClose (s : Text) : Prop :=
  ¬ ['*', '/'] <:+: s

lemma noClose_cons {c : Char} {s : Text} :
    NoClose (c :: s) ↔ ¬ (c = '*' ∧ s.head? = some '/') ∧ NoClose s := by
  rw [NoClose, List.infix_cons_iff, not_or]
  refine and_congr_left fun _ => not_congr ?_
  cases s with
  | nil => simp
  | cons d s => simp [List.cons_prefix_cons, eq_comm]

lemma cutAtClose_cons {done s : Text} {c : Char} (h : ¬ (c = '*' ∧ s.head? = some '/')) :
    cutAtClose done (c :: s) = cutAtClose (c :: done) s := by
  rw [cutAtClose]
  rintro rest rfl rfl
  exact h ⟨rfl, rfl⟩

/-- Without `*/`, a text is cut at its end. -/
lemma cutAtClose_of_noClose {done s : Text} (h : NoClose s) :
    cutAtClose done s = (done.reverse ++ s, []) := by
  induction s generalizing done with
  | nil => simp [cutAtClose]
  | cons c s ih =>
      obtain ⟨hc, hs⟩ := noClose_cons.1 h
      rw [cutAtClose_cons hc, ih hs]
      simp

/-- A text is cut behind its first `*/`. -/
lemma cutAtClose_of_close {done inner rest : Text} (h : NoClose (inner ++ ['*'])) :
    cutAtClose done (inner ++ '*' :: '/' :: rest) =
      (done.reverse ++ inner ++ ['*', '/'], rest) := by
  induction inner generalizing done with
  | nil => simp [cutAtClose]
  | cons c inner ih =>
      rw [List.cons_append, noClose_cons] at h
      rw [List.cons_append, cutAtClose_cons, ih h.2]
      · simp
      · cases inner with
        | nil => simp
        | cons d inner => simpa using h.1

/-- A text has a first `*/`, or none. -/
lemma noClose_or_exists (s : Text) :
    NoClose s ∨ ∃ inner rest, s = inner ++ '*' :: '/' :: rest ∧ NoClose (inner ++ ['*']) := by
  induction s with
  | nil => exact .inl (by simp [NoClose])
  | cons c s ih =>
      by_cases hc : c = '*' ∧ s.head? = some '/'
      · obtain ⟨rfl, hs⟩ := hc
        obtain ⟨rest, rfl⟩ : ∃ rest, s = '/' :: rest := by
          cases s with
          | nil => simp at hs
          | cons d rest => exact ⟨rest, by simpa using hs⟩
        refine .inr ⟨[], rest, rfl, ?_⟩
        rw [NoClose]
        decide
      · rcases ih with ih | ⟨inner, rest, rfl, ih⟩
        · exact .inl (noClose_cons.2 ⟨hc, ih⟩)
        · refine .inr ⟨c :: inner, rest, rfl, noClose_cons.2 ⟨?_, ih⟩⟩
          cases inner with
          | nil => simp
          | cons d inner => simpa using hc

lemma closesAt_iff {body : Text} {i : ℕ} :
    ClosesAt ('/' :: '*' :: body) i ↔ ∃ j, i = j + 2 ∧ ['*', '/'] <+: body.drop j := by
  constructor
  · rintro ⟨hi, h⟩
    obtain ⟨j, rfl⟩ := Nat.exists_eq_add_of_le' hi
    exact ⟨j, rfl, h⟩
  · rintro ⟨j, rfl, h⟩
    exact ⟨by omega, h⟩

lemma noClose_iff_drop {s : Text} : NoClose s ↔ ∀ j, ¬ ['*', '/'] <+: s.drop j := by
  constructor
  · intro h j hj
    exact h (hj.isInfix.trans (List.drop_suffix j s).isInfix)
  · rintro h ⟨front, back, rfl⟩
    exact h front.length ⟨back, by simp⟩

lemma isUnclosed_iff {body : Text} : IsUnclosed ('/' :: '*' :: body) ↔ NoClose body := by
  simp only [IsUnclosed, closesAt_iff, noClose_iff_drop]
  constructor
  · intro h j hj
    exact h (j + 2) ⟨j, rfl, hj⟩
  · rintro h i ⟨j, -, hj⟩
    exact h j hj

/-- The first `*/` of a comment is its end if none is closed in what precedes its last slash. -/
lemma isClosed_iff {body : Text} :
    IsClosed ('/' :: '*' :: body) ↔
      ∃ inner, body = inner ++ ['*', '/'] ∧ NoClose (inner ++ ['*']) := by
  constructor
  · rintro ⟨i, hi, hlength, hfirst⟩
    obtain ⟨j, rfl, hj⟩ := closesAt_iff.1 hi
    simp only [List.length_cons] at hlength
    have hdrop : ['*', '/'] = body.drop j :=
      hj.eq_of_length (by simp only [List.length_cons, List.length_nil, List.length_drop]; omega)
    have hbody : body = body.take j ++ ['*', '/'] := by
      rw [hdrop, List.take_append_drop]
    refine ⟨body.take j, hbody, noClose_iff_drop.2 fun k hk => ?_⟩
    have hkj : k < j := by
      have := hk.length_le
      simp only [List.length_cons, List.length_nil, List.length_drop, List.length_append,
        List.length_take] at this
      omega
    have hpre : body.take j ++ ['*'] <+: body :=
      ⟨['/'], by rw [List.append_assoc]; exact hbody.symm⟩
    exact hfirst (k + 2) (by omega) (closesAt_iff.2 ⟨k, rfl, hk.trans (hpre.drop k)⟩)
  · rintro ⟨inner, rfl, h⟩
    refine ⟨inner.length + 2, closesAt_iff.2 ⟨inner.length, rfl, by simp⟩, by simp, ?_⟩
    intro i hi hclose
    obtain ⟨k, rfl, hk⟩ := closesAt_iff.1 hclose
    have hpre : inner ++ ['*'] <+: inner ++ ['*', '/'] := ⟨['/'], by simp⟩
    refine noClose_iff_drop.1 h k (List.prefix_of_prefix_length_le hk (hpre.drop k) ?_)
    simp only [List.length_cons, List.length_nil, List.length_drop, List.length_append]
    omega

/-! ### One piece -/

lemma isPrefixOf_toList {pattern : String} {s : Text} :
    pattern.toList.isPrefixOf s = true ↔ pattern.toList <+: s :=
  List.isPrefixOf_iff_prefix

/-- The rest of a line ends where a line ends. -/
lemma head?_afterLine (s : Text) : ∀ c ∈ (afterLine s).head?, c ∈ lineBreaks := by
  intro c hc
  have h := List.head?_dropWhile_not (!isLineBreak ·) s
  rw [afterLine, Option.mem_def] at hc
  rw [hc] at h
  exact isLineBreak_iff.1 (by simpa using h)

lemma notMem_lineBreaks_of_mem_line {s : Text} : ∀ c ∈ line s, c ∉ lineBreaks := by
  intro c hc
  have h := List.mem_takeWhile_imp hc
  exact isLineBreak_eq_false_iff.1 (by simpa using h)

/-- A line is cut off where a line ends. -/
lemma line_append {s rest : Text} (hs : ∀ c ∈ s, c ∉ lineBreaks)
    (hrest : ∀ c ∈ rest.head?, c ∈ lineBreaks) :
    line (s ++ rest) = s ∧ afterLine (s ++ rest) = rest := by
  have hs' : ∀ c ∈ s, (!isLineBreak c) = true := by
    intro c hc
    simp [isLineBreak_eq_false_iff.2 (hs c hc)]
  rw [line, afterLine, List.takeWhile_append_of_pos hs', List.dropWhile_append_of_pos hs']
  cases rest with
  | nil => simp
  | cons c rest => simp [isLineBreak_iff.2 (hrest c rfl)]

/-- The blanks at the front of a text are cut off where they end. -/
lemma takeWhile_isSpace_append {s rest : Text} (hs : ∀ c ∈ s, c ∈ spaces)
    (hrest : ∀ c ∈ rest.head?, c ∉ spaces) :
    (s ++ rest).takeWhile isSpace = s ∧ (s ++ rest).dropWhile isSpace = rest := by
  have hs' : ∀ c ∈ s, isSpace c = true := fun c hc => isSpace_iff.2 (hs c hc)
  rw [List.takeWhile_append_of_pos hs', List.dropWhile_append_of_pos hs']
  cases rest with
  | nil => simp
  | cons c rest =>
      have hc := hrest c rfl
      rw [← isSpace_iff] at hc
      simp [hc]

/-- Three slashes and no fourth make documentation of a comment; other comments are plain. -/
lemma wellFormed_ofLineComment {lineStart atEnd : Prop} {comment : Text}
    (hline : ∀ c ∈ comment, c ∉ lineBreaks) (hopen : ['/', '/'] <+: comment) :
    WellFormed lineStart atEnd (ofLineComment comment) := by
  unfold ofLineComment
  split
  · next h =>
      simp only [Bool.and_eq_true, Bool.not_eq_true', ← Bool.not_eq_true,
        List.isPrefixOf_iff_prefix] at h
      exact ⟨hline, h.1, h.2⟩
  · next h =>
      simp only [Bool.and_eq_true, Bool.not_eq_true', ← Bool.not_eq_true,
        List.isPrefixOf_iff_prefix] at h
      exact ⟨hline, hopen, h⟩

lemma maximal_ofLineComment {comment rest : Text} (h : ∀ c ∈ rest.head?, c ∈ lineBreaks) :
    Maximal (ofLineComment comment) rest := by
  unfold ofLineComment
  split <;> exact h

/-- What is cut off at the close of a comment is a comment of several lines. -/
lemma wellFormed_cutAtClose {lineStart : Prop} (body : Text) :
    WellFormed lineStart ((cutAtClose ['*', '/'] body).2 = [])
      ⟨.multiLineComment, (cutAtClose ['*', '/'] body).1⟩ := by
  rcases noClose_or_exists body with h | ⟨inner, rest, rfl, h⟩
  · rw [cutAtClose_of_noClose h]
    exact ⟨⟨body, rfl⟩, .inr ⟨isUnclosed_iff.2 h, rfl⟩⟩
  · rw [cutAtClose_of_close h]
    exact ⟨⟨inner ++ ['*', '/'], rfl⟩, .inl (isClosed_iff.2 ⟨inner, rfl, h⟩)⟩

/-- A piece that the reader takes is of its kind, and goes on as long as it can. -/
lemma wellFormed_of_next? {lineStart : Bool} {s rest : Text} {t : Trivia}
    (h : next? lineStart s = some (t, rest)) :
    WellFormed (lineStart = true) (rest = []) t ∧ Maximal t rest := by
  unfold next? at h
  split at h
  · simp at h
  · -- a carriage return and a line feed
    obtain ⟨rfl, rfl⟩ := Prod.mk.inj (Option.some.inj h)
    exact ⟨by simp [WellFormed, lineEnds], by simp [Maximal]⟩
  · rename_i c after hcrlf
    split at h
    · -- another end of a line
      next hbreak =>
        obtain ⟨rfl, rfl⟩ := Prod.mk.inj (Option.some.inj h)
        refine ⟨List.mem_cons_of_mem _ (List.mem_map_of_mem (isLineBreak_iff.1 hbreak)), ?_⟩
        intro hc hafter
        obtain ⟨rest, rfl⟩ := List.head?_eq_some_iff.1 hafter
        exact hcrlf rest (List.cons.inj hc).1 rfl
    split at h
    · -- white space
      next hspace =>
        obtain ⟨rfl, rfl⟩ := Prod.mk.inj (Option.some.inj h)
        refine ⟨⟨by simp [hspace], fun d hd => isSpace_iff.1 (List.mem_takeWhile_imp hd)⟩, ?_⟩
        intro d hd
        have hstop := List.head?_dropWhile_not isSpace (c :: after)
        rw [Option.mem_def.1 hd] at hstop
        simpa [← isSpace_iff] using hstop
    split at h
    · -- a comment to the end of its line
      next hopen =>
        obtain ⟨rfl, rfl⟩ := Prod.mk.inj (Option.some.inj h)
        obtain ⟨body, hbody⟩ := isPrefixOf_toList.1 hopen
        have hline : ['/', '/'] <+: line (c :: after) := by
          rw [← hbody]
          exact ⟨line body, rfl⟩
        exact ⟨wellFormed_ofLineComment notMem_lineBreaks_of_mem_line hline,
          maximal_ofLineComment (head?_afterLine _)⟩
    split at h
    · -- a comment of several lines
      obtain ⟨rfl, rfl⟩ := Prod.mk.inj (Option.some.inj h)
      exact ⟨wellFormed_cutAtClose _, trivial⟩
    split at h
    · -- a directive
      next hbreak _ _ _ hhash =>
        obtain ⟨rfl, rfl⟩ := Prod.mk.inj (Option.some.inj h)
        obtain ⟨rfl, hstart⟩ : c = '#' ∧ lineStart = true := by simpa using hhash
        refine ⟨⟨notMem_lineBreaks_of_mem_line, ⟨line after, ?_⟩, hstart⟩, head?_afterLine _⟩
        simp [line, hbreak]
    · simp at h

lemma next?_lineBreak {lineStart : Bool} {c : Char} {rest : Text} (hc : c ∈ lineBreaks)
    (hrest : c = '\r' → rest.head? ≠ some '\n') :
    next? lineStart (c :: rest) = some (⟨.endOfLine, [c]⟩, rest) := by
  unfold next?
  split
  · next h => cases h
  · next h =>
      obtain ⟨rfl, rfl⟩ := List.cons.inj h
      exact absurd rfl (hrest rfl)
  · next h =>
      obtain ⟨rfl, rfl⟩ := List.cons.inj h
      rw [if_pos (isLineBreak_iff.2 hc)]

/-- White space within a line ends no line. -/
lemma notMem_lineBreaks_of_mem_spaces {c : Char} (hc : c ∈ spaces) : c ∉ lineBreaks := by
  have hnone : spaces.all (!isLineBreak ·) = true := by decide
  rw [← isLineBreak_eq_false_iff]
  simpa using List.all_eq_true.1 hnone c hc

lemma next?_space (lineStart : Bool) {c : Char} (s : Text) (hc : c ∈ spaces) :
    next? lineStart (c :: s) =
      some (⟨.whitespace, (c :: s).takeWhile isSpace⟩, (c :: s).dropWhile isSpace) := by
  have hnobreak := isLineBreak_eq_false_iff.2 (notMem_lineBreaks_of_mem_spaces hc)
  unfold next?
  split
  · next h => cases h
  · next h =>
      obtain ⟨rfl, rfl⟩ := List.cons.inj h
      exact absurd hc (by decide)
  · next h =>
      obtain ⟨rfl, rfl⟩ := List.cons.inj h
      rw [hnobreak, if_neg (by simp), if_pos (isSpace_iff.2 hc)]

lemma next?_lineComment (lineStart : Bool) (s : Text) :
    next? lineStart ('/' :: '/' :: s) =
      some (ofLineComment (line ('/' :: '/' :: s)), afterLine ('/' :: '/' :: s)) := rfl

lemma next?_blockComment (lineStart : Bool) (s : Text) :
    next? lineStart ('/' :: '*' :: s) =
      some (⟨.multiLineComment, (cutAtClose ['*', '/'] s).1⟩, (cutAtClose ['*', '/'] s).2) := rfl

lemma next?_directive (s : Text) :
    next? true ('#' :: s) = some (⟨.directive, line ('#' :: s)⟩, afterLine ('#' :: s)) := rfl

lemma ofLineComment_of_documentation {comment : Text}
    (h : ['/', '/', '/'] <+: comment ∧ ¬ ['/', '/', '/', '/'] <+: comment) :
    ofLineComment comment = ⟨.documentationComment, comment⟩ := by
  rw [ofLineComment, if_pos]
  simpa [← Bool.not_eq_true, List.isPrefixOf_iff_prefix] using h

lemma ofLineComment_of_plain {comment : Text}
    (h : ¬ (['/', '/', '/'] <+: comment ∧ ¬ ['/', '/', '/', '/'] <+: comment)) :
    ofLineComment comment = ⟨.singleLineComment, comment⟩ := by
  rw [ofLineComment, if_neg]
  simpa [← Bool.not_eq_true, List.isPrefixOf_iff_prefix] using h

/-- The reader takes the piece that is of its kind and goes on as long as it can. -/
lemma next?_of_wellFormed {lineStart : Bool} {rest : Text} {t : Trivia}
    (hwf : WellFormed (lineStart = true) (rest = []) t) (hmax : Maximal t rest) :
    next? lineStart (t.text ++ rest) = some (t, rest) := by
  obtain ⟨kind, text⟩ := t
  cases kind with
  | endOfLine =>
      rcases List.mem_cons.1 hwf with h | h
      · subst h
        rfl
      · obtain ⟨c, hc, rfl⟩ := List.mem_map.1 h
        exact next?_lineBreak hc fun h => hmax (by rw [h])
  | whitespace =>
      obtain ⟨hne, hspaces⟩ := hwf
      obtain ⟨c, s, rfl⟩ := List.exists_cons_of_ne_nil hne
      have hcut := takeWhile_isSpace_append hspaces hmax
      have hnext := next?_space lineStart (s ++ rest) (hspaces c (by simp))
      rw [← List.cons_append] at hnext
      rw [hnext, hcut.1, hcut.2]
  | singleLineComment =>
      obtain ⟨hline, ⟨body, rfl⟩, hplain⟩ := hwf
      have hcut := line_append hline hmax
      have hnext := next?_lineComment lineStart (body ++ rest)
      simp only [List.cons_append, List.nil_append] at hcut hplain ⊢
      rw [hnext, hcut.1, hcut.2, ofLineComment_of_plain hplain]
  | documentationComment =>
      obtain ⟨hline, ⟨body, rfl⟩, hdoc⟩ := hwf
      have hcut := line_append hline hmax
      have hnext := next?_lineComment lineStart ('/' :: body ++ rest)
      simp only [List.cons_append, List.nil_append] at hcut hnext hdoc ⊢
      rw [hnext, hcut.1, hcut.2]
      exact congrArg (fun t => some (t, rest)) (ofLineComment_of_documentation ⟨⟨body, rfl⟩, hdoc⟩)
  | multiLineComment =>
      obtain ⟨⟨body, rfl⟩, hclosed | ⟨hunclosed, rfl⟩⟩ := hwf
      · obtain ⟨inner, rfl, hinner⟩ := isClosed_iff.1 hclosed
        have hnext := next?_blockComment lineStart (inner ++ '*' :: '/' :: rest)
        rw [cutAtClose_of_close hinner] at hnext
        simpa using hnext
      · have hopen : NoClose body := isUnclosed_iff.1 hunclosed
        have hnext := next?_blockComment lineStart body
        rw [cutAtClose_of_noClose hopen] at hnext
        simpa using hnext
  | directive =>
      obtain ⟨hline, ⟨body, rfl⟩, rfl⟩ := hwf
      have hcut := line_append hline hmax
      have hnext := next?_directive (body ++ rest)
      simp only [List.cons_append, List.nil_append] at hcut ⊢
      rw [hnext, hcut.1, hcut.2]

/-- **One piece**: the reader takes a piece off a text exactly if the piece is of its kind there,
and goes on as long as it can. -/
lemma next?_eq_some_iff {lineStart : Bool} {s rest : Text} {t : Trivia} :
    next? lineStart s = some (t, rest) ↔
      s = t.text ++ rest ∧ WellFormed (lineStart = true) (rest = []) t ∧ Maximal t rest := by
  constructor
  · intro h
    exact ⟨eq_append_of_next? h, wellFormed_of_next? h⟩
  · rintro ⟨rfl, hwf, hmax⟩
    exact next?_of_wellFormed hwf hmax

/-- The reader takes no piece exactly if none starts. -/
lemma next?_eq_none_iff {lineStart : Bool} {s : Text} :
    next? lineStart s = none ↔ StartsNone (lineStart = true) s := by
  unfold next? StartsNone
  split
  · simp
  · simp [lineBreaks]
  · next c rest hcrlf =>
      have hline : "//".toList.isPrefixOf (c :: rest) = true ↔ ['/', '/'] <+: c :: rest :=
        isPrefixOf_toList
      have hblock : "/*".toList.isPrefixOf (c :: rest) = true ↔ ['/', '*'] <+: c :: rest :=
        isPrefixOf_toList
      have hhash : (c = '#' && lineStart) = true ↔ c = '#' ∧ lineStart = true := by simp
      simp only [← isLineBreak_iff, ← isSpace_iff, ← hline, ← hblock, ← hhash, List.head?_cons,
        Option.mem_def, Option.some.injEq, forall_eq']
      generalize isLineBreak c = isBreak, isSpace c = isBlank,
        "//".toList.isPrefixOf (c :: rest) = isLine, "/*".toList.isPrefixOf (c :: rest) = isBlock,
        (c = '#' && lineStart) = isHash
      cases isBreak <;> cases isBlank <;> cases isLine <;> cases isBlock <;> cases isHash <;> simp

/-! ### All pieces -/

/-- Whether a line still has nothing but blanks behind some pieces. -/
def lineStartAfter (lineStart : Bool) (ts : List Trivia) : Bool :=
  ts.foldl (fun lineStart t => t.kind.keepsLineStart lineStart) lineStart

@[simp] lemma lineStartAfter_nil (lineStart : Bool) : lineStartAfter lineStart [] = lineStart := rfl

@[simp] lemma lineStartAfter_cons (lineStart : Bool) (t : Trivia) (ts : List Trivia) :
    lineStartAfter lineStart (t :: ts) = lineStartAfter (t.kind.keepsLineStart lineStart) ts := rfl

@[simp] lemma lineStartAfter_concat (lineStart : Bool) (ts : List Trivia) (t : Trivia) :
    lineStartAfter lineStart (ts ++ [t]) = t.kind.keepsLineStart (lineStartAfter lineStart ts) := by
  rw [lineStartAfter, List.foldl_append]
  rfl

/-- The flag of the reader says whether a directive may stand behind some pieces. -/
lemma lineStartAfter_iff (ts : List Trivia) : lineStartAfter true ts = true ↔ AtLineStart ts := by
  induction ts using List.reverseRecOn with
  | nil => exact ⟨fun _ => ⟨[], [], rfl, by simp, by simp⟩, fun _ => rfl⟩
  | append_singleton ts t ih =>
      rw [lineStartAfter_concat]
      constructor
      · intro h
        cases hkind : t.kind <;> rw [hkind] at h
        case endOfLine => exact ⟨ts ++ [t], [], by simp, by simpa using hkind, by simp⟩
        case whitespace =>
          obtain ⟨front, back, rfl, hfront, hback⟩ := ih.1 h
          refine ⟨front, back ++ [t], by simp, hfront, fun u hu => ?_⟩
          rcases List.mem_append.1 hu with hu | hu
          · exact hback u hu
          · rw [List.mem_singleton.1 hu, hkind]
        all_goals cases h
      · rintro ⟨front, back, hsplit, hfront, hback⟩
        rcases List.eq_nil_or_concat back with rfl | ⟨back, u, rfl⟩
        · rw [List.append_nil] at hsplit
          rw [hfront t (by rw [← hsplit]; simp), TriviaKind.keepsLineStart]
        · rw [List.concat_eq_append, ← List.append_assoc] at hsplit
          obtain ⟨rfl, hu⟩ := List.append_inj' hsplit rfl
          obtain rfl : t = u := by simpa using hu
          rw [hback t (by simp), TriviaKind.keepsLineStart]
          exact ih.2 ⟨front, back, rfl, hfront, fun v hv => hback v (by simp [hv])⟩

/-- **All pieces**: some pieces are those at the front of a text exactly if they and the rest make
up the text, each is of its kind where it stands and goes on as long as it can, and no other piece
starts behind them. -/
lemma pieces_eq_iff {lineStart : Bool} {s rest : Text} {ts : List Trivia} :
    pieces lineStart s = (ts, rest) ↔
      s = texts ts ++ rest ∧
        (∀ before t after, ts = before ++ t :: after →
          WellFormed (lineStartAfter lineStart before = true) (texts after ++ rest = []) t ∧
            Maximal t (texts after ++ rest)) ∧
        StartsNone (lineStartAfter lineStart ts = true) rest := by
  induction ts generalizing lineStart s with
  | nil =>
      constructor
      · intro h
        cases hnext : next? lineStart s with
        | none =>
            rw [pieces_of_none hnext] at h
            obtain ⟨-, rfl⟩ := Prod.mk.inj h
            exact ⟨rfl, by simp, next?_eq_none_iff.1 hnext⟩
        | some p =>
            obtain ⟨t, after⟩ := p
            simp [pieces_of_some hnext] at h
      · rintro ⟨rfl, -, hnone⟩
        exact pieces_of_none (next?_eq_none_iff.2 hnone)
  | cons t ts ih =>
      constructor
      · intro h
        cases hnext : next? lineStart s with
        | none => simp [pieces_of_none hnext] at h
        | some p =>
            obtain ⟨u, after⟩ := p
            rw [pieces_of_some hnext] at h
            obtain ⟨hhead, hrest⟩ := Prod.mk.inj h
            obtain ⟨rfl, hts⟩ := List.cons.inj hhead
            obtain ⟨rfl, hpieces, hnone⟩ := ih.1 (Prod.ext hts hrest)
            obtain ⟨rfl, hwf, hmax⟩ := next?_eq_some_iff.1 hnext
            refine ⟨by simp, fun before v behind hsplit => ?_, hnone⟩
            cases before with
            | nil =>
                obtain ⟨rfl, rfl⟩ := List.cons.inj hsplit
                exact ⟨hwf, hmax⟩
            | cons w before =>
                obtain ⟨rfl, rfl⟩ := List.cons.inj hsplit
                exact hpieces before v behind rfl
      · rintro ⟨rfl, hpieces, hnone⟩
        obtain ⟨hwf, hmax⟩ := hpieces [] t ts rfl
        have hnext : next? lineStart (texts (t :: ts) ++ rest) = some (t, texts ts ++ rest) :=
          next?_eq_some_iff.2 ⟨by simp, hwf, hmax⟩
        have hrec := ih.2 ⟨rfl, fun before v behind hsplit =>
          hpieces (t :: before) v behind (by rw [hsplit]; rfl), hnone⟩
        rw [pieces_of_some hnext, hrec]

/-- The answer of the grammar, read as an equation for the reader. -/
lemma isLeading_iff {s : Text} {ts : List Trivia} {position : ℕ} :
    IsLeading s ts position ↔ ts = (leadingOf s).trivia ∧ position = (leadingOf s).position := by
  have hread : pieces true (s.drop (markLength s)) =
      ((leadingOf s).trivia, (leadingOf s).rest) := rfl
  constructor
  · intro h
    have hdrop : s.drop (markLength s) = texts ts ++ s.drop position := by
      rw [h.texts_eq, List.drop_take]
      conv_lhs => rw [← List.take_append_drop (position - markLength s) (s.drop (markLength s))]
      rw [List.drop_drop, Nat.add_sub_cancel' h.markLength_le]
    have hpieces : pieces true (s.drop (markLength s)) = (ts, s.drop position) := by
      refine pieces_eq_iff.2 ⟨hdrop, fun before t after hsplit => ⟨?_, ?_⟩, ?_⟩
      · rw [lineStartAfter_iff]
        exact h.wellFormed before t after hsplit
      · exact h.maximal before t after hsplit
      · rw [lineStartAfter_iff]
        exact h.startsNone
    obtain ⟨hts, hrest⟩ := Prod.mk.inj (hread.symm.trans hpieces)
    refine ⟨hts.symm, ?_⟩
    have hlength := congrArg List.length hdrop
    have hle := h.position_le
    have hmark := h.markLength_le
    simp only [List.length_drop, List.length_append] at hlength
    rw [leadingOf_position, hts]
    omega
  · rintro ⟨rfl, rfl⟩
    obtain ⟨hdrop, hpieces, hnone⟩ := pieces_eq_iff.1 hread
    rw [lineStartAfter_iff, leadingOf_rest] at hnone
    refine ⟨Nat.le_add_right _ _, leadingOf_position_le s, ?_, ?_, ?_, hnone⟩
    · rw [leadingOf_position, ← List.take_drop, hdrop, List.take_left]
    · intro before t after hsplit
      rw [← lineStartAfter_iff, ← leadingOf_rest]
      exact (hpieces before t after hsplit).1
    · intro before t after hsplit
      rw [← leadingOf_rest]
      exact (hpieces before t after hsplit).2

/-! ### The reader and its grammar -/

/-- **The reader computes its grammar**: on every text it has an answer, and the answer is the one
and only list of pieces and position that the grammar allows. -/
theorem leading_reads_grammar (s : Text) :
    ∃ l, ((leading s).outcome .unlimited).1 = .ok l ∧ l.rest = s.drop l.position ∧
      ∀ ts position, IsLeading s ts position ↔ ts = l.trivia ∧ position = l.position := by
  refine ⟨leadingOf s, ?_, leadingOf_rest s, fun ts position => isLeading_iff⟩
  rw [outcome_leading, Call.affords_of_allowed_none rfl]
  rfl

end Trivia

end GeneratedCode
