import Mathlib.Tactic
import GeneratedCode.Proofs.Call.Checks
import GeneratedCode.Trivia

/-!
The trivia in front of a token as a function of the text alone.

`Trivia.leading` counts checks while it reads and may be cancelled. What it reads is a matter of
the text (`Trivia.pieces`), and so is how many checks that takes (`Trivia.turns`); a call decides
only whether it can afford them.

* `append_pieces`: nothing of the text is lost or read twice.
* `outcome_leadingFrom`, `outcome_leading`: a call that affords the checks gets the pieces, and is
  charged for them; any other is cancelled at the first check that it cannot afford.
-/

namespace GeneratedCode

namespace Trivia

open Text

/-! ### The pieces of a text -/

/-- The pieces of trivia at the front of a text, and what follows them. -/
def pieces (lineStart : Bool) (s : Text) : List Trivia × Text :=
  match _h : next? lineStart s with
  | none => ([], s)
  | some (t, rest) =>
      let (ts, after) := pieces (t.kind.keepsLineStart lineStart) rest
      (t :: ts, after)
termination_by s.length
decreasing_by exact length_lt_of_next? _h

/-- How many checks it takes to read them: one for each piece, and one for the character that
starts none. -/
def turns (lineStart : Bool) (s : Text) : ℕ :=
  (pieces lineStart s).1.length + if (pieces lineStart s).2 = [] then 0 else 1

/-- The texts of some pieces, one behind the other. -/
def texts (ts : List Trivia) : Text :=
  ts.flatMap (·.text)

@[simp] lemma texts_nil : texts [] = [] := rfl

@[simp] lemma texts_cons (t : Trivia) (ts : List Trivia) : texts (t :: ts) = t.text ++ texts ts :=
  List.flatMap_cons

@[simp] lemma texts_append (ts us : List Trivia) : texts (ts ++ us) = texts ts ++ texts us :=
  List.flatMap_append

lemma pieces_of_none {lineStart : Bool} {s : Text} (h : next? lineStart s = none) :
    pieces lineStart s = ([], s) := by
  rw [pieces]
  split
  · rfl
  · next h' => rw [h] at h'; cases h'

lemma pieces_of_some {lineStart : Bool} {s rest : Text} {t : Trivia}
    (h : next? lineStart s = some (t, rest)) :
    pieces lineStart s = (t :: (pieces (t.kind.keepsLineStart lineStart) rest).1,
      (pieces (t.kind.keepsLineStart lineStart) rest).2) := by
  rw [pieces]
  split
  · next h' => rw [h] at h'; cases h'
  · next h' =>
      rw [h] at h'
      obtain ⟨rfl, rfl⟩ := Prod.mk.inj (Option.some.inj h')
      rfl

@[simp] lemma pieces_nil (lineStart : Bool) : pieces lineStart [] = ([], []) :=
  pieces_of_none rfl

/-- The pieces and what follows them make up the text. -/
lemma append_pieces (lineStart : Bool) (s : Text) :
    texts (pieces lineStart s).1 ++ (pieces lineStart s).2 = s := by
  fun_induction pieces lineStart s with
  | case1 lineStart s h => rfl
  | case2 lineStart s t rest h ts after hrec ih =>
      rw [hrec] at ih
      simp only [texts_cons, List.append_assoc, ih]
      exact (eq_append_of_next? h).symm

lemma turns_of_none {lineStart : Bool} {s : Text} (h : next? lineStart s = none) :
    turns lineStart s = if s = [] then 0 else 1 := by
  rw [turns, pieces_of_none h, List.length_nil, Nat.zero_add]

lemma turns_of_some {lineStart : Bool} {s rest : Text} {t : Trivia}
    (h : next? lineStart s = some (t, rest)) :
    turns lineStart s = turns (t.kind.keepsLineStart lineStart) rest + 1 := by
  rw [turns, pieces_of_some h, turns]
  simp only [List.length_cons]
  omega

/-! ### Reading with checks -/

/-- Reading from a place in a text: the pieces, for as many checks as there are turns. -/
lemma outcome_leadingFrom (lineStart : Bool) (found : List Trivia) (position : ℕ) (s : Text)
    (call : Call) :
    (leadingFrom lineStart found position s).outcome call =
      if call.affords (turns lineStart s) then
        (.ok ⟨found.reverse ++ (pieces lineStart s).1,
          position + (texts (pieces lineStart s).1).length, (pieces lineStart s).2⟩,
          call.ticks (turns lineStart s))
      else (.error .cancelled, call.overdrawn) := by
  induction hn : s.length using Nat.strong_induction_on
    generalizing lineStart found position s call with
  | _ n ih =>
    cases s with
    | nil => simp [turns]
    | cons c s =>
        rw [outcome_leadingFrom_cons]
        cases hspent : call.spent with
        | true =>
            have hpoor : call.affords (turns lineStart (c :: s)) = false := by
              cases hnext : next? lineStart (c :: s) with
              | none => simp [turns_of_none hnext, Call.affords_succ, hspent]
              | some p =>
                  obtain ⟨t, rest⟩ := p
                  simp [turns_of_some hnext, Call.affords_succ, hspent]
            simp [hpoor, Call.overdrawn_of_spent hspent]
        | false =>
            cases hnext : next? lineStart (c :: s) with
            | none =>
                have haffords : call.affords 1 = true := by simp [Call.affords_succ, hspent]
                simp [turns_of_none hnext, pieces_of_none hnext, haffords, Call.ticks_succ]
            | some p =>
                obtain ⟨t, rest⟩ := p
                have hlt := length_lt_of_next? hnext
                simp only [Bool.false_eq_true, if_false]
                rw [ih rest.length (by omega) _ _ _ rest _ rfl, turns_of_some hnext,
                  pieces_of_some hnext, Call.affords_succ, hspent, Call.ticks_succ]
                simp only [Bool.not_false, Bool.true_and, List.reverse_cons, List.append_assoc,
                  List.singleton_append, texts_cons, List.length_append, Nat.add_assoc]
                split
                · rfl
                · next hpoor =>
                    rw [Call.overdrawn_tick hspent]
                    intro hnone
                    have htick : call.tick.allowed = none := hnone
                    exact hpoor (Call.affords_of_allowed_none htick _)

/-- How many characters a byte order mark takes at the front of a text. -/
def markLength (s : Text) : ℕ :=
  if s.head? = some byteOrderMark then 1 else 0

lemma markLength_le (s : Text) : markLength s ≤ s.length := by
  cases s with
  | nil => simp [markLength]
  | cons c s => unfold markLength; split <;> simp

/-- The trivia in front of the first token of a text. -/
def leadingOf (s : Text) : Leading :=
  let (ts, rest) := pieces true (s.drop (markLength s))
  ⟨ts, markLength s + (texts ts).length, rest⟩

/-- How many checks it takes to read the trivia in front of the first token. -/
def leadingTurns (s : Text) : ℕ :=
  turns true (s.drop (markLength s))

/-- **Reading the trivia in front of a token**: the text alone says what is read and what it
costs. -/
lemma outcome_leading (s : Text) (call : Call) :
    (leading s).outcome call =
      if call.affords (leadingTurns s) then (.ok (leadingOf s), call.ticks (leadingTurns s))
      else (.error .cancelled, call.overdrawn) := by
  cases s with
  | nil => rw [leading, outcome_leadingFrom]; rfl
  | cons c s =>
      rw [leading, leadingTurns, leadingOf]
      by_cases hc : c = byteOrderMark
      · rw [if_pos hc, outcome_leadingFrom]
        simp [markLength, hc]
      · rw [if_neg hc, outcome_leadingFrom]
        simp [markLength, hc]

lemma leadingOf_position (s : Text) :
    (leadingOf s).position = markLength s + (texts (leadingOf s).trivia).length := rfl

/-- The token starts behind the mark and the pieces, and the rest of the text stands there. -/
lemma leadingOf_rest (s : Text) : (leadingOf s).rest = s.drop (leadingOf s).position := by
  have h := append_pieces true (s.drop (markLength s))
  simp only [leadingOf]
  generalize pieces true (s.drop (markLength s)) = p at h ⊢
  rw [← List.drop_drop, ← h, List.drop_left]

lemma leadingOf_position_le (s : Text) : (leadingOf s).position ≤ s.length := by
  have h := congrArg List.length (append_pieces true (s.drop (markLength s)))
  have hmark := markLength_le s
  simp only [List.length_append, List.length_drop] at h
  simp only [leadingOf]
  omega

end Trivia

end GeneratedCode
