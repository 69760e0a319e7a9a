import GeneratedCode.Token

/-!
Source trees: what a file's first token is asked of.

A tree has the path that it reports and a source: a text, a file that is read when it is needed, or
what the host says (`Source`). Asked for its root, a tree over a text or a file looks for the first
token and keeps what it finds; an attempt that fails leaves nothing behind, so the next one starts
over (`Tree.remember`). A tree of the host's answers anew each time.
-/

namespace GeneratedCode

open Text

/-- The root of a tree; all that is known of it is its first token. -/
structure Root where
  firstToken : Option Token
  deriving DecidableEq, Repr

/-- What the host says of a tree. -/
structure HostTree where
  /-- The trivia in front of the first token, with the names of their kinds. -/
  trivia : List (Text × Text)
  hasRoot : Bool := true
  hasToken : Bool := true
  /-- What the token says of its trivia, if not what is the case. -/
  hasLeading : Option Bool := none
  /-- The error that asking for the root ends in. -/
  raises : Option String := none
  /-- The number of the cancellation token that asking for the root fires. -/
  fires : Option Nat := none
  deriving Repr

namespace HostTree

/-- The trivia of a tree of the host's; every kind has to be one that there is. -/
def readTrivia : List (Text × Text) → Except Failure (List Trivia)
  | [] => .ok []
  | (kind, text) :: rest =>
      match TriviaKind.ofName? (String.ofList kind) with
      | none => .error (.unknownTriviaKind kind)
      | some known => (readTrivia rest).map (⟨known, text⟩ :: ·)

/-- The root that the host gives. It makes no check; the trivia are read whether there is a token
in front of which they stand or not. -/
def root (tree : HostTree) : Attempt Call (Option Root) := do
  if let some message := tree.raises then throw (.raised message)
  let trivia ← Attempt.ofExcept (readTrivia tree.trivia)
  if let some token := tree.fires then modify (·.fire token)
  if !tree.hasRoot then return none
  if !tree.hasToken then return some ⟨none⟩
  return some ⟨some
    { kind := .token, text := [], position := 0, leading := trivia
      hasLeading := tree.hasLeading.getD !trivia.isEmpty }⟩

end HostTree

/-- Where a tree takes its first token from. -/
inductive Source where
  | text (content : Text)
  | file (path : Text) (encoding : String) (pieceSize : Nat)
  | host (tree : HostTree)
  deriving Repr

/-- A source tree: a file as the reader of source code sees it. -/
structure Tree where
  /-- The path that the tree reports. -/
  filePath : Text
  source : Source
  /-- The root, once it has been found. -/
  root : Option Root := none
  /-- How often a tree of the host's was asked for its root. -/
  rootCalls : Nat := 0
  deriving Repr

/-- A call that is looking at a tree. -/
structure Visit (τ : Type) where
  tree : τ
  call : Call

namespace Visit

/-- Runs a computation that does not look at the tree. -/
def onCall {τ α : Type} (x : Attempt Call α) : Attempt (Visit τ) α :=
  x.focus Visit.call fun visit call => { visit with call := call }

end Visit

/-- What is on disk: what opening the file at the end of a path gives, or why it cannot be opened.
-/
abbrev Reader := Text → Except Failure OpenFile

namespace Tree

/-- The root that was found before, or else the one that `find` finds, which is kept. -/
def remember (find : Attempt Call Token) : Attempt (Visit Tree) (Option Root) := do
  match (← get).tree.root with
  | some root => return some root
  | none =>
      let root : Root := ⟨some (← Visit.onCall find)⟩
      modify fun visit => { visit with tree := { visit.tree with root := some root } }
      return some root

/-- The first token of a file on disk. The name of the encoding may not have a NUL in it; whether
there is such an encoding is asked only when the file is open. -/
def readToken (disk : Reader) (path : Text) (encoding : String) (pieceSize : Nat) :
    Attempt Call Token := do
  if encoding.toList.contains '\x00' then throw .nulInEncoding
  let file ← Attempt.ofExcept (disk path)
  Token.readFile encoding pieceSize file

/-- The root of a tree. -/
def getRoot (disk : Reader) : Attempt (Visit Tree) (Option Root) := do
  match (← get).tree.source with
  | .text content => remember (Token.read content)
  | .file path encoding pieceSize => remember (readToken disk path encoding pieceSize)
  | .host tree =>
      modify fun visit =>
        { visit with tree := { visit.tree with rootCalls := visit.tree.rootCalls + 1 } }
      Visit.onCall tree.root

/-- The tree as a message shows it. -/
def shown (tree : Tree) : Text :=
  let kind :=
    match tree.source with
    | .text _ => "TextSourceTree("
    | .file _ _ _ => "FileSourceTree("
    | .host _ => "SourceTree("
  kind.toList ++ quoted tree.filePath ++ [')']

end Tree

end GeneratedCode
