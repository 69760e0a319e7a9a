import Mathlib.Tactic
import GeneratedCode.Proofs.Tree.Reads

/-!
Cancelling a call that reads.

Reading the trivia of a text makes a check for each piece, and one more for the token behind them if
there is one (`Trivia.leadingTurns_eq`); reading a file in pieces does so in each turn, for all that
has been read by then. These are the only checks, so a token that allows `k` of them either changes
nothing or ends the call at check `k + 1`: `cancelling_reading_is_exact`.
-/

namespace GeneratedCode

open Text

namespace Trivia

variable {t : Text} {l : Leading}

/-- A call that nothing cancels reads the trivia of a text. -/
lemma outcome_leading_unlimited (t : Text) :
    ((leading t).outcome .unlimited).1 = .ok (leadingOf t) := by
  rw [outcome_leading, if_pos (Call.affords_of_allowed_none rfl _)]

/-- Behind the trivia there is a token, unless the text ends with them. -/
lemma rest_eq_nil_iff (t : Text) : (leadingOf t).rest = [] ↔ t.length ≤ (leadingOf t).position := by
  rw [leadingOf_rest, List.drop_eq_nil_iff]

/-- **What reading the trivia costs**: a check for each piece, and one for the token behind them. -/
lemma leadingTurns_eq (h : ((leading t).outcome .unlimited).1 = .ok l) :
    leadingTurns t = l.trivia.length + if l.position < t.length then 1 else 0 := by
  rw [outcome_leading_unlimited] at h
  obtain rfl := Except.ok.inj h
  have hturns : leadingTurns t =
      (leadingOf t).trivia.length + if (leadingOf t).rest = [] then 0 else 1 := rfl
  rw [hturns]
  by_cases hrest : (leadingOf t).rest = []
  · rw [if_pos hrest, if_neg (Nat.not_lt.2 ((rest_eq_nil_iff t).1 hrest))]
  · rw [if_neg hrest, if_pos (Nat.lt_of_not_le fun hle => hrest ((rest_eq_nil_iff t).2 hle))]

end Trivia

namespace Tree

open Trivia

variable {disk : Reader} {path t : Text} {encoding : String} {size : ℕ}

/-- A new tree over a file makes a turn for each piece that it reads. -/
lemma length_reads_getRoot (hsize : 1 ≤ size) (hfile : Source.Delivers disk path encoding t)
    (name : Text) :
    ((getRoot disk).outcome
        ⟨⟨name, .file path encoding size, none, 0⟩, .unlimited⟩).2.call.reads.length =
      Token.readCount size t := by
  have hfree : ((Token.readPieces size none t).outcome .unlimited).1 ≠ .error .cancelled := by
    simp [(Token.costs_readPieces hsize none t).steady.unlimited .unlimited rfl]
  rw [(@outcome_getRoot_of_new disk path encoding size name .unlimited).2,
    outcome_readToken_of_delivers hsize hfile, Token.reads_readPieces hsize t hfree]
  simp [Token.pieceLengths, Call.unlimited]

/-- A new tree over a file finds its root by reading the text of the file in pieces. -/
lemma paced_getRoot_of_delivers (hsize : 1 ≤ size) (hfile : Source.Delivers disk path encoding t)
    (name : Text) :
    Paced Visit.call (Visit.At ⟨name, .file path encoding size, none, 0⟩) (getRoot disk)
      ((Token.heads size none t).map leadingTurns).sum (.ok (Source.rootOf (Token.first t))) := by
  have hread : Costs (readToken disk path encoding size)
      ((Token.heads size none t).map leadingTurns).sum (.ok (Token.first t)) := by
    exact (Token.costs_readPieces hsize none t).congr fun call _ =>
      outcome_readToken_of_delivers hsize hfile call
  refine (paced_remember hread ⟨name, .file path encoding size, none, 0⟩).congr ?_
  rintro visit ⟨htree, -⟩
  exact outcome_getRoot (congrArg Tree.source htree)

/-- **Cancelling a call that reads is exact.** Reading the trivia of a text, or its first token,
takes as many checks as there are pieces of trivia, and one more where the text goes on behind them.
Finding the root of a new tree over a file takes those of all the heads in which its turns look for
the token: the prefixes of the text of one piece, two pieces and so on, the last of them twice if it
takes an empty piece to find out that it is the whole text. -/
theorem cancelling_reading_is_exact :
    (∀ t, ∃ l, ((leading t).outcome .unlimited).1 = .ok l ∧
      leadingTurns t = (l.trivia.length + if l.position < t.length then 1 else 0) ∧
      CancelledExactly id (leading t) id (leadingTurns t) (.ok l) ∧
      CancelledExactly id (Token.read t) id (leadingTurns t) (.ok (Token.ofLeading l))) ∧
    ∀ (disk : Reader) (path : Text) (encoding : String) (size : ℕ) (t name : Text), 1 ≤ size →
      Source.Delivers disk path encoding t →
        let start : Call → Visit Tree := fun call =>
          ⟨⟨name, .file path encoding size, none, 0⟩, call⟩
        let m := ((getRoot disk).outcome (start .unlimited)).2.call.reads.length
        ∃ token, ((Token.read t).outcome .unlimited).1 = .ok token ∧
          CancelledExactly Visit.call (getRoot disk) start
            ((List.range m).map fun i => leadingTurns (t.take ((i + 1) * size))).sum
            (.ok (some ⟨some token⟩)) := by
  refine ⟨fun t => ⟨leadingOf t, outcome_leading_unlimited t,
    leadingTurns_eq (outcome_leading_unlimited t), (Token.costs_leading t).cancelledExactly,
    (Token.costs_read t).cancelledExactly⟩, ?_⟩
  intro disk path encoding size t name hsize hfile start m
  have hm : m = Token.readCount size t := length_reads_getRoot hsize hfile name
  refine ⟨Token.first t, Token.outcome_read_unlimited t, ?_⟩
  have hpaced := paced_getRoot_of_delivers hsize hfile name
  rw [Token.heads, List.map_map, ← hm] at hpaced
  exact hpaced.cancelledExactly (fun _ htoken => ⟨rfl, htoken⟩) fun _ => rfl

/-- A file of which three characters are read at a time: of its four heads, the first is cut off
within a comment and makes one check, and each of the others makes two. -/
theorem cancelling_reading_is_exact_of_comment :
    let disk : Reader := fun _ => .ok (Text.Utf8.encode "/**/a + b;\nclass é".toList)
    let tree : Tree := ⟨"a.cs".toList, .file "a.cs".toList "utf-8" 3, none, 0⟩
    Source.Delivers disk "a.cs".toList "utf-8" "/**/a + b;\nclass é".toList ∧
    ∃ token, CancelledExactly Visit.call (getRoot disk) (fun call => ⟨tree, call⟩) 7
      (.ok (some ⟨some token⟩)) := by
  intro disk tree
  have hsize : 1 ≤ 3 := by decide
  have hfile : Source.Delivers disk "a.cs".toList "utf-8" "/**/a + b;\nclass é".toList :=
    Source.delivers_encode rfl
  have hturns : Token.readCount 3 "/**/a + b;\nclass é".toList = 4 := by decide +kernel
  have hchecks : ((List.range 4).map fun i =>
      leadingTurns ("/**/a + b;\nclass é".toList.take ((i + 1) * 3))).sum = 7 := by cbv
  obtain ⟨token, -, hexact⟩ := cancelling_reading_is_exact.2 disk "a.cs".toList "utf-8" 3
    "/**/a + b;\nclass é".toList "a.cs".toList hsize hfile
  rw [length_reads_getRoot hsize hfile "a.cs".toList, hturns, hchecks] at hexact
  exact ⟨hfile, token, hexact⟩

end Tree

end GeneratedCode
