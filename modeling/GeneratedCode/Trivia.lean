import GeneratedCode.Call
import GeneratedCode.Text.Blank

/-!
Trivia: the blanks, line ends, comments and directives in front of a token.

A piece of trivia is read from the front of a text by `Trivia.next?`, which needs to know only
whether nothing but blanks precede it on its line: a directive has to stand at the start of one.
`Trivia.leading` reads as many pieces as there are, with a check before each.

* `eq_append_of_next?` says that a piece and what follows it make up the text, and
  `ne_nil_of_next?` that no piece is empty; so what follows is shorter, which ends the loop.
* `outcome_leadingFrom_cons` is one turn of the loop.
-/

namespace GeneratedCode

namespace Text

/-! ### Lines and comments -/

/-- The characters that end a line; a carriage return and a line feed behind it end one together.
-/
def isLineBreak (c : Char) : Bool :=
  c = '\r' || c = '\n' || c = '\u0085' || c = '\u2028' || c = '\u2029'

/-- White space within a line: tab, vertical tab, form feed and the spaces of every script. -/
def isSpace (c : Char) : Bool :=
  let n := c.toNat
  n == 9 || n == 0x0B || n == 0x0C || n == 0x20 || n == 0xA0 || n == 0x1680 ||
    (0x2000 ≤ n && n ≤ 0x200A) || n == 0x202F || n == 0x205F || n == 0x3000

/-- What is left of the line. -/
def line (s : Text) : Text :=
  s.takeWhile (!isLineBreak ·)

/-- The text from the end of its first line. -/
def afterLine (s : Text) : Text :=
  s.dropWhile (!isLineBreak ·)

theorem line_append_afterLine (s : Text) : line s ++ afterLine s = s :=
  List.takeWhile_append_dropWhile

/-- Cuts a text behind the first `*/`, or at its end; `done` is what was passed, latest first. -/
def cutAtClose (done : Text) : Text → Text × Text
  | [] => (done.reverse, [])
  | '*' :: '/' :: rest => ((('/' :: '*' :: done)).reverse, rest)
  | c :: rest => cutAtClose (c :: done) rest

theorem cutAtClose_append (done s : Text) :
    (cutAtClose done s).1 ++ (cutAtClose done s).2 = done.reverse ++ s := by
  fun_induction cutAtClose done s <;> simp_all

theorem length_le_cutAtClose (done s : Text) : done.length ≤ (cutAtClose done s).1.length := by
  fun_induction cutAtClose done s <;> (simp_all; try omega)

end Text

open Text

/-! ### Pieces of trivia -/

/-- The kinds of trivia. -/
inductive TriviaKind where
  | whitespace
  | endOfLine
  | singleLineComment
  | multiLineComment
  | documentationComment
  | directive
  deriving DecidableEq, Repr

namespace TriviaKind

/-- The name of a kind. -/
def name : TriviaKind → String
  | whitespace => "whitespace"
  | endOfLine => "end_of_line"
  | singleLineComment => "single_line_comment"
  | multiLineComment => "multi_line_comment"
  | documentationComment => "documentation_comment"
  | directive => "directive"

/-- The kind of a name. -/
def ofName? (name : String) : Option TriviaKind :=
  [whitespace, endOfLine, singleLineComment, multiLineComment, documentationComment,
    directive].find? (·.name == name)

/-- Whether a line still has nothing but blanks behind a piece of this kind. -/
def keepsLineStart (lineStart : Bool) : TriviaKind → Bool
  | endOfLine => true
  | whitespace => lineStart
  | _ => false

theorem ofName?_name (k : TriviaKind) : ofName? k.name = some k := by
  cases k <;> decide

end TriviaKind

/-- A piece of text in front of a token that is no part of the program. -/
structure Trivia where
  kind : TriviaKind
  text : Text
  deriving DecidableEq, Repr

namespace Trivia

/-- A comment up to the end of its line: exactly three slashes make it documentation. -/
def ofLineComment (comment : Text) : Trivia :=
  if "///".toList.isPrefixOf comment && !"////".toList.isPrefixOf comment then
    ⟨.documentationComment, comment⟩
  else ⟨.singleLineComment, comment⟩

/-! ### One piece -/

/-- Reads one piece of trivia from the front of a text; with it comes what follows it. -/
def next? (lineStart : Bool) (s : Text) : Option (Trivia × Text) :=
  match s with
  | [] => none
  | '\r' :: '\n' :: rest => some (⟨.endOfLine, ['\r', '\n']⟩, rest)
  | c :: rest =>
      if isLineBreak c then some (⟨.endOfLine, [c]⟩, rest)
      else if isSpace c then some (⟨.whitespace, s.takeWhile isSpace⟩, s.dropWhile isSpace)
      else if "//".toList.isPrefixOf s then some (ofLineComment s.line, s.afterLine)
      else if "/*".toList.isPrefixOf s then
        let (comment, after) := cutAtClose ['*', '/'] (s.drop 2)
        some (⟨.multiLineComment, comment⟩, after)
      else if c = '#' && lineStart then some (⟨.directive, s.line⟩, s.afterLine)
      else none

theorem text_ofLineComment (s : Text) : (ofLineComment s).text = s := by
  unfold ofLineComment; split <;> rfl

/-- A piece of trivia and what follows it make up the text. -/
theorem eq_append_of_next? {lineStart : Bool} {s rest : Text} {t : Trivia}
    (h : next? lineStart s = some (t, rest)) : s = t.text ++ rest := by
  unfold next? at h
  split at h
  · simp at h
  · simp only [Option.some.injEq, Prod.mk.injEq] at h
    obtain ⟨rfl, rfl⟩ := h; rfl
  · rename_i c after _
    split at h
    · simp only [Option.some.injEq, Prod.mk.injEq] at h
      obtain ⟨rfl, rfl⟩ := h; rfl
    split at h
    · simp only [Option.some.injEq, Prod.mk.injEq] at h
      obtain ⟨rfl, rfl⟩ := h
      exact List.takeWhile_append_dropWhile.symm
    split at h
    · simp only [Option.some.injEq, Prod.mk.injEq] at h
      obtain ⟨rfl, rfl⟩ := h
      rw [text_ofLineComment, line_append_afterLine]
    split at h
    · rename_i hopen
      simp only [Option.some.injEq, Prod.mk.injEq] at h
      obtain ⟨rfl, rfl⟩ := h
      obtain ⟨body, hbody⟩ := List.isPrefixOf_iff_prefix.1 hopen
      rw [cutAtClose_append, ← hbody]; rfl
    split at h
    · simp only [Option.some.injEq, Prod.mk.injEq] at h
      obtain ⟨rfl, rfl⟩ := h
      rw [line_append_afterLine]
    · simp at h

/-- No piece of trivia is empty. -/
theorem ne_nil_of_next? {lineStart : Bool} {s rest : Text} {t : Trivia}
    (h : next? lineStart s = some (t, rest)) : t.text ≠ [] := by
  unfold next? at h
  split at h
  · simp at h
  · simp only [Option.some.injEq, Prod.mk.injEq] at h
    obtain ⟨rfl, rfl⟩ := h; simp
  · rename_i c after _
    split at h
    · simp only [Option.some.injEq, Prod.mk.injEq] at h
      obtain ⟨rfl, rfl⟩ := h; simp
    rename_i hbreak
    split at h
    · rename_i hspace
      simp only [Option.some.injEq, Prod.mk.injEq] at h
      obtain ⟨rfl, rfl⟩ := h; simp [hspace]
    split at h
    · simp only [Option.some.injEq, Prod.mk.injEq] at h
      obtain ⟨rfl, rfl⟩ := h
      simp [text_ofLineComment, line, hbreak]
    split at h
    · simp only [Option.some.injEq, Prod.mk.injEq] at h
      obtain ⟨rfl, rfl⟩ := h
      intro hnil
      have hlength := length_le_cutAtClose ['*', '/'] ((c :: after).drop 2)
      dsimp only at hnil
      rw [hnil] at hlength
      simp at hlength
    split at h
    · simp only [Option.some.injEq, Prod.mk.injEq] at h
      obtain ⟨rfl, rfl⟩ := h
      simp [line, hbreak]
    · simp at h

theorem length_lt_of_next? {lineStart : Bool} {s rest : Text} {t : Trivia}
    (h : next? lineStart s = some (t, rest)) : rest.length < s.length := by
  have := List.length_pos_iff.2 (ne_nil_of_next? h)
  rw [eq_append_of_next? h, List.length_append]
  omega

/-! ### All pieces -/

/-- The trivia in front of a token, where the token starts, and the text from there. -/
structure Leading where
  trivia : List Trivia
  position : Nat
  rest : Text
  deriving DecidableEq, Repr

/-- Reads trivia from `s`, which starts at `position`; `found` is what has been read, latest first.
Each turn makes a check; none is made at the end of the text. -/
def leadingFrom (lineStart : Bool) (found : List Trivia) (position : Nat) (s : Text) :
    Attempt Call Leading := do
  if s.isEmpty then return ⟨found.reverse, position, []⟩
  check
  match _h : next? lineStart s with
  | none => return ⟨found.reverse, position, s⟩
  | some (t, rest) =>
      leadingFrom (t.kind.keepsLineStart lineStart) (t :: found) (position + t.text.length) rest
termination_by s.length
decreasing_by exact length_lt_of_next? _h

@[simp] theorem outcome_leadingFrom_nil (lineStart : Bool) (found : List Trivia) (position : Nat)
    (call : Call) :
    (leadingFrom lineStart found position []).outcome call =
      (.ok ⟨found.reverse, position, []⟩, call) := by
  rw [leadingFrom]; simp

/-- In front of a character, reading makes a check and takes one piece, or ends. -/
theorem outcome_leadingFrom_cons (lineStart : Bool) (found : List Trivia) (position : Nat)
    (c : Char) (s : Text) (call : Call) :
    (leadingFrom lineStart found position (c :: s)).outcome call =
      if call.spent then (.error .cancelled, call.tick)
      else
        match next? lineStart (c :: s) with
        | none => (.ok ⟨found.reverse, position, c :: s⟩, call.tick)
        | some (t, rest) =>
            (leadingFrom (t.kind.keepsLineStart lineStart) (t :: found)
              (position + t.text.length) rest).outcome call.tick := by
  rw [leadingFrom]
  simp only [List.isEmpty_cons, Bool.false_eq_true, if_false, outcome_check_bind]
  split
  · rfl
  · split <;> rename_i h <;> simp [h]

/-- The mark that may stand at the start of a text to tell the order of its bytes. -/
def byteOrderMark : Char := '\ufeff'

/-- Reads the trivia in front of the first token of a text, behind a byte order mark if there is
one. -/
def leading : Text → Attempt Call Leading
  | [] => leadingFrom true [] 0 []
  | c :: rest =>
      if c = byteOrderMark then leadingFrom true [] 1 rest else leadingFrom true [] 0 (c :: rest)

end Trivia

end GeneratedCode
