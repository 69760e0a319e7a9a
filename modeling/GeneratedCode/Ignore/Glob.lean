import GeneratedCode.Text.Marked

/-!
Globs: patterns for one name of a path.

A glob is a row of atoms: a character of some set, or any run of characters but slashes.
`Glob.pass` moves all marks of a text over what the glob spells (`Glob.Spells`);
`mem_rests_pass_iff` says that it leaves out no such place and adds no other.

`Glob.ofText?` reads a glob: `*` is a run, `?` one character, `[…]` a set, and a backslash takes
the next character as it is. A bracket that is not closed stands for itself.
-/

namespace GeneratedCode

namespace Ignore

open Text

/-! ### Atoms -/

/-- A set of characters. -/
inductive CharSet where
  | exactly (c : Char)
  | notSlash
  /-- Those in one of the ranges, or in none of them. -/
  | ranges (negated : Bool) (bounds : List (Char × Char))
  deriving DecidableEq, Repr

namespace CharSet

/-- Whether a character is in the set. -/
def accepts : CharSet → Char → Bool
  | exactly d, c => c = d
  | notSlash, c => c ≠ '/'
  | ranges negated bounds, c => (bounds.any fun r => r.1 ≤ c && c ≤ r.2) != negated

/-- Whether some range of the set ends before it starts. -/
def isReversed : CharSet → Bool
  | ranges _ bounds => bounds.any fun r => r.2 < r.1
  | _ => false

end CharSet

/-- A piece of a glob. -/
inductive Atom where
  | one (set : CharSet)
  /-- Any run of characters but slashes, the empty one included. -/
  | run
  deriving DecidableEq, Repr

/-- A pattern for a name. -/
abbrev Glob := List Atom

/-! ### Matching -/

/-- Moves each mark over what the atom spells. -/
def Atom.pass (atom : Atom) (t : Marked) : Marked :=
  match atom with
  | one set => t.one set.accepts
  | run => t.run CharSet.notSlash.accepts

namespace Glob

/-- Moves each mark over what the glob spells. -/
def pass (glob : Glob) (t : Marked) : Marked :=
  glob.foldl (fun t atom => atom.pass t) t

/-- Whether some set of the glob has a range that ends before it starts. -/
def isReversed (glob : Glob) : Bool :=
  glob.any fun
    | .one set => set.isReversed
    | .run => false

/-! ### The texts that a glob spells -/

/-- The texts that a glob spells. -/
inductive Spells : Glob → Text → Prop where
  | nil : Spells [] []
  | one {set : CharSet} {c : Char} {glob : Glob} {s : Text} (hc : set.accepts c = true)
      (hs : Spells glob s) : Spells (.one set :: glob) (c :: s)
  | run {r : Text} {glob : Glob} {s : Text} (hr : '/' ∉ r) (hs : Spells glob s) :
      Spells (.run :: glob) (r ++ s)

theorem pass_cons (atom : Atom) (glob : Glob) (t : Marked) :
    pass (atom :: glob) t = pass glob (atom.pass t) := rfl

@[simp] theorem text_pass (glob : Glob) (t : Marked) : (glob.pass t).text = t.text := by
  induction glob generalizing t with
  | nil => rfl
  | cons atom glob ih =>
      rw [pass_cons, ih]
      cases atom with
      | one set => exact Marked.text_one _ t
      | run => exact Marked.text_run _ t

theorem forall_notSlash_iff {r : Text} :
    (∀ c ∈ r, CharSet.notSlash.accepts c = true) ↔ '/' ∉ r := by
  simp only [CharSet.accepts, decide_eq_true_eq]
  constructor
  · intro h hmem
    exact h _ hmem rfl
  · rintro h c hc rfl
    exact h hc

/-- The marks behind a glob are those in front of it, moved over a text that the glob spells. -/
theorem mem_rests_pass_iff {glob : Glob} {t : Marked} {rest : Text} :
    rest ∈ (glob.pass t).rests ↔ ∃ m, Spells glob m ∧ m ++ rest ∈ t.rests := by
  induction glob generalizing t with
  | nil =>
      constructor
      · intro h; exact ⟨[], .nil, h⟩
      · rintro ⟨m, hm, h⟩; cases hm; exact h
  | cons atom glob ih =>
      rw [pass_cons, ih]
      cases atom with
      | one set =>
          simp only [Atom.pass, Marked.mem_rests_one]
          constructor
          · rintro ⟨m, hm, c, hc, h⟩
            exact ⟨c :: m, .one hc hm, h⟩
          · rintro ⟨m, hm, h⟩
            cases hm with
            | @one _ c _ m hc hm => exact ⟨m, hm, c, hc, h⟩
      | run =>
          simp only [Atom.pass, Marked.mem_rests_run, forall_notSlash_iff]
          constructor
          · rintro ⟨m, hm, r, hr, h⟩
            exact ⟨r ++ m, .run hr hm, by simpa using h⟩
          · rintro ⟨m, hm, h⟩
            cases hm with
            | @run r _ m hr hm => exact ⟨m, hm, r, hr, by simpa using h⟩

/-! ### Reading -/

/-- The ranges that stand between brackets: two characters with a hyphen between them are the ends
of one; any other character, a hyphen at the end included, is a range of its own. -/
def readRanges : Text → List (Char × Char)
  | [] => []
  | [c, '-'] => [(c, c), ('-', '-')]
  | c :: '-' :: d :: rest => (c, d) :: readRanges rest
  | c :: rest => (c, c) :: readRanges rest

/-- Takes the sign that negates a set from the front of a text, if it is there. -/
def takeNegation : Text → Bool × Text
  | [] => (false, [])
  | c :: rest => if c = '!' || c = '^' then (true, rest) else (false, c :: rest)

/-- Takes a closing bracket from the front of a text, if it is there. -/
def takeClosing : Text → Text × Text
  | [] => ([], [])
  | c :: rest => if c = ']' then ([']'], rest) else ([], c :: rest)

/-- Reads a set behind its opening bracket: whether it is negated, what stands in it, and what
follows it. A closing bracket that comes first stands for itself. -/
def bracket? (s : Text) : Option (Bool × Text × Text) :=
  let (negated, body) := takeNegation s
  let (first, body) := takeClosing body
  match body.dropWhile (· != ']') with
  | [] => none
  | _ :: rest => some (negated, first ++ body.takeWhile (· != ']'), rest)

theorem length_takeNegation_le (s : Text) : (takeNegation s).2.length ≤ s.length := by
  cases s with
  | nil => simp [takeNegation]
  | cons c rest => rw [takeNegation]; split <;> simp

theorem length_takeClosing_le (s : Text) : (takeClosing s).2.length ≤ s.length := by
  cases s with
  | nil => simp [takeClosing]
  | cons c rest => rw [takeClosing]; split <;> simp

theorem length_lt_of_bracket? {s content rest : Text} {negated : Bool}
    (h : bracket? s = some (negated, content, rest)) : rest.length < s.length := by
  simp only [bracket?] at h
  split at h
  · simp at h
  · next c tail hdrop =>
      have hle := (List.dropWhile_sublist (· != ']')
        (l := (takeClosing (takeNegation s).2).2)).length_le
      rw [hdrop, List.length_cons] at hle
      simp only [Option.some.injEq, Prod.mk.injEq] at h
      have h₁ := length_takeNegation_le s
      have h₂ := length_takeClosing_le (takeNegation s).2
      obtain ⟨_, _, rfl⟩ := h
      omega

/-- Reads a glob; `done` is what has been read, latest first. -/
def ofTextFrom (done : Glob) : Text → Option Glob
  | [] => some done.reverse
  | c :: rest =>
      if c = '*' then ofTextFrom (.run :: done) rest
      else if c = '?' then ofTextFrom (.one .notSlash :: done) rest
      else if c = '\\' then
        match rest with
        | [] => none
        | d :: rest' => ofTextFrom (.one (.exactly d) :: done) rest'
      else if c = '[' then
        match _h : bracket? rest with
        | none => ofTextFrom (.one (.exactly '[') :: done) rest
        | some (negated, content, rest') =>
            ofTextFrom (.one (.ranges negated (readRanges content)) :: done) rest'
      else ofTextFrom (.one (.exactly c) :: done) rest
termination_by s => s.length
decreasing_by
  all_goals try have hlt := length_lt_of_bracket? _h
  all_goals simp only [List.length_cons]; omega

/-- Reads a glob; a backslash at its end takes no character, and is refused. -/
def ofText? (s : Text) : Option Glob :=
  ofTextFrom [] s

end Glob

end Ignore

end GeneratedCode
