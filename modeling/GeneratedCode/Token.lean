import GeneratedCode.Text.Encoding
import GeneratedCode.Text.WordChar
import GeneratedCode.Trivia

/-!
Tokens: the first token of a text, with the trivia in front of it.

A token is the longest run of word characters, or else one character; a text of nothing but trivia
ends in a token without text. `Token.read` finds the first token of a text. `Token.readPieces` does
so without reading the whole of a file: it reads the text in pieces, looks for the token in what it
has, and goes on while the token might be cut off or the trivia in front of it be misread.
-/

namespace GeneratedCode

open Text

/-! ### Tokens -/

/-- What a token is. -/
inductive TokenKind where
  | token
  | endOfFile
  deriving DecidableEq, Repr

namespace TokenKind

/-- The name of a kind. -/
def name : TokenKind → String
  | token => "token"
  | endOfFile => "end_of_file"

end TokenKind

/-- A token, where it stands, and the trivia in front of it. -/
structure Token where
  kind : TokenKind
  text : Text
  position : Nat
  leading : List Trivia
  /-- Whether the token says that trivia stand in front of it. -/
  hasLeading : Bool
  deriving DecidableEq, Repr

namespace Token

/-- Where the text behind the token starts. -/
def endPosition (t : Token) : Nat :=
  t.position + t.text.length

/-! ### The first token of a text -/

/-- The text of the token at the front of a text. -/
def textAt : Text → Text
  | [] => []
  | c :: rest => if isWordChar c then c :: rest.takeWhile isWordChar else [c]

/-- The token behind some trivia. -/
def ofLeading (l : Trivia.Leading) : Token where
  kind := if l.rest.isEmpty then .endOfFile else .token
  text := textAt l.rest
  position := l.position
  leading := l.trivia
  hasLeading := !l.trivia.isEmpty

/-- The first token of a text. -/
def read (s : Text) : Attempt Call Token := do
  return ofLeading (← Trivia.leading s)

theorem outcome_read (s : Text) (call : Call) :
    (read s).outcome call =
      (((Trivia.leading s).outcome call).1.map ofLeading, ((Trivia.leading s).outcome call).2) := by
  rw [read, Attempt.outcome_bind]
  rcases (Trivia.leading s).outcome call with ⟨_ | _, _⟩ <;> rfl

/-! ### Reading in pieces -/

/-- A token that ends no further than this from the end of what was read may not be the first
token of the whole: it may be cut off, or the characters in front of it may be the start of a
comment or of a line end. -/
def lookahead : Nat := 4

/-- Reads a piece of that many characters, unless the fault of the file is in the way. -/
def readPiece (fault : Option Fault) (length : Nat) : Attempt Call Unit := do
  Attempt.ofExcept ((Fault.grants fault 1).mapError .cannotRead)
  noteRead length

theorem readPiece_none (length : Nat) : readPiece none length = noteRead length := rfl

/-- The first token of `head ++ rest`, of which `head` has been read; `rest` is read in pieces of
`size` characters, as far as the fault of the file allows. It is the token of all that has been
read, once that reaches far enough or a piece is empty. -/
def readFrom (size : Nat) (fault : Option Fault) (head rest : Text) : Attempt Call Token := do
  readPiece fault (rest.take size).length
  let token ← read (head ++ rest.take size)
  if _h : (rest.take size).isEmpty ∨ token.endPosition + lookahead < (head ++ rest.take size).length
    then return token
    else readFrom size (fault.map Fault.next) (head ++ rest.take size) (rest.drop size)
termination_by rest.length
decreasing_by
  have hsize : rest.take size ≠ [] := fun e => _h (.inl (by simp [e]))
  have : size ≠ 0 ∧ rest ≠ [] := by
    constructor
    · rintro rfl; simp at hsize
    · rintro rfl; simp at hsize
  have := List.length_pos_iff.2 this.2
  simp only [List.length_drop]
  omega

/-- Where there is no fault, a turn takes one piece, and looks for the token in all that has been
read. -/
theorem outcome_readFrom (size : Nat) (head rest : Text) (call : Call) :
    (readFrom size none head rest).outcome call =
      match (read (head ++ rest.take size)).outcome
          { call with reads := (rest.take size).length :: call.reads } with
      | (.error failure, call) => (.error failure, call)
      | (.ok token, call) =>
          if (rest.take size).isEmpty ∨
              token.endPosition + lookahead < (head ++ rest.take size).length
            then (.ok token, call)
            else (readFrom size none (head ++ rest.take size) (rest.drop size)).outcome call := by
  rw [readFrom]
  simp only [readPiece_none, Attempt.outcome_bind, noteRead, Attempt.outcome_modify, Option.map_none]
  split
  · rename_i h; simp only [h]; split <;> rfl
  · rename_i h; simp only [h]

/-- The first token of a text that is read in pieces of `size` characters. -/
def readPieces (size : Nat) (fault : Option Fault) (s : Text) : Attempt Call Token :=
  readFrom size fault [] s

/-- How many characters a file is read at a time. -/
def pieceSize : Nat := 64 * 1024

/-- The text of an open file. What its bytes are is not known before a piece of it can be read. -/
def textOf (encoding : Encoding) (file : OpenFile) : Except Failure Text := do
  (Fault.grants file.fault 1).mapError .cannotRead
  encoding.decode file.bytes

/-- The first token of an open file, in the encoding of that name, read in pieces. Where the pieces
are empty, nothing is asked of the file. -/
def readFile (encoding : String) (size : Nat) (file : OpenFile) : Attempt Call Token := do
  match Encoding.ofName? encoding with
  | none => throw (.unknownEncoding encoding)
  | some known =>
      if size = 0 then readPieces 0 none []
      else readPieces size file.fault (← Attempt.ofExcept (textOf known file))

/-! ### Showing -/

/-- The token as a message shows it. -/
def shown (t : Token) : Text :=
  ("TextToken(" ++ t.kind.name ++ ", ").toList ++ quoted t.text ++
    (", trivia=" ++ toString t.leading.length ++ ")").toList

end Token

end GeneratedCode
