import Mathlib.Tactic
import GeneratedCode.Proofs.Token.Reads
import GeneratedCode.Proofs.Tree.Pace
import GeneratedCode.Proofs.Tree.Reading

/-!
How much of a file is read to find the root of its tree.

Once the file is open, looking for the root of a new tree is reading its text in pieces
(`outcome_readToken_of_delivers`), of which `Token.readsAsNeeded_pieceLengths` says how far it goes.
`reads_as_needed` says the same of the tree: as much is read as it takes to come five characters
past the first token, or else all that there is.
-/

namespace GeneratedCode

namespace Tree

variable {disk : Reader} {path t : Text} {encoding : String} {size : ℕ}

/-- Of a file that delivers a text, the text is read in pieces. -/
lemma outcome_readToken_of_delivers (hsize : 1 ≤ size)
    (h : Source.Delivers disk path encoding t) (call : Call) :
    (readToken disk path encoding size).outcome call =
      (Token.readPieces size none t).outcome call := by
  obtain ⟨hclean, bytes, known, hopen, hknown, hdecode⟩ := h
  have hnul : ¬ encoding.toList.contains '\x00' = true := by simpa using hclean
  have hpos : size ≠ 0 := Nat.one_le_iff_ne_zero.1 hsize
  have hopened : (readToken disk path encoding size).outcome call =
      (Token.readFile encoding size bytes).outcome call := by
    rw [readToken, if_neg hnul, hopen]
    rfl
  simp only [hopened, Token.readFile, hknown, if_neg hpos, Token.textOf, hdecode]
  rfl

/-- Asking a new tree over a file for its root comes to what looking for the first token does. -/
lemma outcome_getRoot_of_new (name : Text) (call : Call) :
    let visit : Visit Tree := ⟨⟨name, .file path encoding size, none, 0⟩, call⟩
    let found := (readToken disk path encoding size).outcome call
    ((getRoot disk).outcome visit).1 = found.1.map Source.rootOf ∧
      ((getRoot disk).outcome visit).2.call = found.2 := by
  intro visit found
  have hout : (getRoot disk).outcome visit = (findRoot disk visit.tree.source).outcome visit :=
    outcome_getRoot rfl
  have hfound : found = (readToken disk path encoding size).outcome visit.call := rfl
  rw [hout, findRoot, outcome_remember_of_none rfl, ← hfound]
  rcases found with ⟨failure | token, after⟩ <;> exact ⟨rfl, rfl⟩

/-- **As much of a file is read as is needed**: a call that is not cancelled finds the first token
of its text, and has then read five characters past that token, in as few pieces as they come in, or
else the whole file and then an empty piece. A call that nothing cancels does. -/
theorem reads_as_needed (hsize : 1 ≤ size) (hfile : Source.Delivers disk path encoding t)
    (name : Text) (call : Call) :
    let out := (getRoot disk).outcome ⟨⟨name, .file path encoding size, none, 0⟩, call⟩
    (call.allowed = none → out.1 ≠ .error .cancelled) ∧
    (out.1 ≠ .error .cancelled → ∃ token reads,
      ((Token.read t).outcome .unlimited).1 = .ok token ∧ out.1 = .ok (some ⟨some token⟩) ∧
      out.2.call.reads = reads.reverse ++ call.reads ∧
      Token.ReadsAsNeeded size t.length (token.position + token.text.length) reads) := by
  intro out
  obtain ⟨hresult, hcall⟩ :=
    @outcome_getRoot_of_new disk path encoding size name call
  rw [outcome_readToken_of_delivers hsize hfile] at hresult hcall
  have hsteady := (Token.costs_readPieces hsize none t).steady
  refine ⟨fun hlimit => ?_, fun hgoes => ?_⟩
  · rw [hresult, hsteady.unlimited call hlimit]
    simp [Except.map]
  · have hfound : ((Token.readPieces size none t).outcome call).1 = .ok (Token.first t) := by
      refine (hsteady.outcome call).resolve_right fun hcancelled => hgoes ?_
      rw [hresult, hcancelled]
      rfl
    refine ⟨Token.first t, Token.pieceLengths size t, Token.outcome_read_unlimited t, ?_, ?_,
      Token.readsAsNeeded_pieceLengths hsize t⟩
    · rw [hresult, hfound]
      rfl
    · rw [hcall, Token.reads_readPieces hsize t (by simp [hfound])]

/-- A file of which three characters are read at a time: its comment comes in two pieces. -/
theorem reads_as_needed_of_comment :
    let disk : Reader := fun _ => .ok (Text.Utf8.encode "/**/a + b;\nclass é".toList)
    let out := (getRoot disk).outcome
      ⟨⟨"a.cs".toList, .file "a.cs".toList "utf-8" 3, none, 0⟩, .unlimited⟩
    Source.Delivers disk "a.cs".toList "utf-8" "/**/a + b;\nclass é".toList ∧
    ∃ token reads,
      ((Token.read "/**/a + b;\nclass é".toList).outcome .unlimited).1 = .ok token ∧
      out.1 = .ok (some ⟨some token⟩) ∧ out.2.call.reads = reads.reverse ++ [] ∧
      Token.ReadsAsNeeded 3 "/**/a + b;\nclass é".toList.length
        (token.position + token.text.length) reads := by
  intro disk out
  have hfile : Source.Delivers disk "a.cs".toList "utf-8" "/**/a + b;\nclass é".toList :=
    Source.delivers_encode rfl
  have hsize : 1 ≤ 3 := by decide
  obtain ⟨hnever, hreads⟩ := reads_as_needed hsize hfile "a.cs".toList .unlimited
  exact ⟨hfile, hreads (hnever rfl)⟩

end Tree

end GeneratedCode
