import Mathlib.Tactic
import GeneratedCode.Proofs.Text.Utf8
import GeneratedCode.Proofs.Tree.Root

/-!
Reading a file in pieces comes to the same as reading its text at once.

A file delivers a text if it can be opened and read to its end and its bytes, in the encoding that
is asked for, are that text (`Source.Delivers`). `Tree.reading_in_pieces` is the main result: the
tree over the file gives the root and the marker of the tree over the text, whatever the size of the
pieces. It has three ingredients:

* reading in pieces stops only at a token that every longer text starts with
  (`Token.costs_readPieces`);
* a tree that has kept nothing gives the root of its source (`Tree.yields_getRoot`);
* the bytes of a text in UTF-8 are read as that text (`Text.Utf8.decodeLossy_encode`).
-/

namespace GeneratedCode

namespace Source

/-- Whether the file can be opened, and holds that text in the encoding of that name. -/
def Has (disk : Reader) (path : Text) (encoding : String) (t : Text) : Prop :=
  '\x00' ∉ encoding.toList ∧
    ∃ opened known, disk path = .ok opened ∧ Encoding.ofName? encoding = some known ∧
      known.decode opened.bytes = .ok t

/-- Whether the file can be opened and read to its end, and is that text, in the encoding of that
name. -/
def Delivers (disk : Reader) (path : Text) (encoding : String) (t : Text) : Prop :=
  '\x00' ∉ encoding.toList ∧
    ∃ bytes known, disk path = .ok (bytes : List UInt8) ∧ Encoding.ofName? encoding = some known ∧
      known.decode bytes = .ok t

/-- The bytes of a text in UTF-8 deliver it. -/
lemma delivers_encode {disk : Reader} {path s : Text} (h : disk path = .ok (Text.Utf8.encode s)) :
    Delivers disk path "utf-8" s := by
  refine ⟨by decide, _, .utf8, h, by decide, ?_⟩
  rw [Encoding.decode, Text.Utf8.decodeLossy_encode]

/-- The first token that is found in a file is the one of the text that it holds, whether it can be
read to its end or not. -/
lemma exists_of_fileToken {disk : Reader} {path : Text} {encoding : String} {size : ℕ}
    (hsize : 1 ≤ size) {token : Token} (h : fileToken disk path encoding size = .ok token) :
    ∃ t, Has disk path encoding t ∧ token = Token.first t := by
  rw [fileToken] at h
  split at h
  · contradiction
  · next hnul =>
      cases hopen : disk path with
      | error failure =>
          rw [hopen] at h
          contradiction
      | ok opened =>
          rw [hopen] at h
          obtain ⟨known, t, hknown, hdecode, htoken⟩ := Token.exists_of_firstOfFile hsize h
          exact ⟨t, ⟨by simpa using hnul, opened, known, hopen, hknown, hdecode⟩, htoken⟩

/-- Of a file that delivers a text, the first token is found. -/
lemma fileToken_of_delivers {disk : Reader} {path t : Text} {encoding : String} {size : ℕ}
    (hsize : 1 ≤ size) (h : Delivers disk path encoding t) :
    fileToken disk path encoding size = .ok (Token.first t) := by
  obtain ⟨hclean, bytes, known, hopen, hknown, hdecode⟩ := h
  rw [fileToken, if_neg (by simpa using hclean), hopen]
  exact Token.firstOfFile_of_decode hsize hknown hdecode

/-- The root of a file that delivers a text is the one of the text. -/
lemma root_of_delivers {disk : Reader} {path t : Text} {encoding : String} {size : ℕ}
    (hsize : 1 ≤ size) (h : Delivers disk path encoding t) :
    (file path encoding size).root disk = (text t).root disk := by
  change (fileToken disk path encoding size).map rootOf = _
  rw [fileToken_of_delivers hsize h]
  rfl

end Source

namespace Tree

/-- A tree over a source that answers as the one over a text does: its root is the first token of
the text, and both are signed or neither is. Both trees are new, whatever paths they report. -/
structure ReadsAs (disk : Reader) (call : Call) (source : Source) (t : Text) : Prop where
  root : ∃ token, ((Token.read t).outcome call).1 = .ok token ∧
    (∀ path, ((getRoot disk).outcome ⟨⟨path, .text t, none, 0⟩, call⟩).1 =
      .ok (some ⟨some token⟩)) ∧
    ∀ path, ((getRoot disk).outcome ⟨⟨path, source, none, 0⟩, call⟩).1 = .ok (some ⟨some token⟩)
  marker : ∃ signed, (∀ path,
      ((Marker.hasMarker (getRoot disk)).outcome ⟨⟨path, .text t, none, 0⟩, call⟩).1 = .ok signed) ∧
    ∀ path,
      ((Marker.hasMarker (getRoot disk)).outcome ⟨⟨path, source, none, 0⟩, call⟩).1 = .ok signed

/-- A new tree whose source has the root of a text reads as the text does. -/
lemma readsAs_of_root {disk : Reader} {call : Call} {source : Source} {t : Text}
    (hcall : call.allowed = none) (hfires : source.fires? = none)
    (hroot : source.root disk = (Source.text t).root disk) : ReadsAs disk call source t := by
  have hyields (path : Text) (source : Source) (hfires : source.fires? = none) :
      ((getRoot disk).outcome ⟨⟨path, source, none, 0⟩, call⟩).1 = source.root disk ∧
        ((Marker.hasMarker (getRoot disk)).outcome ⟨⟨path, source, none, 0⟩, call⟩).1 =
          (source.root disk).map Root.isSigned := by
    have hfaithful : (⟨path, source, none, 0⟩ : Tree).Faithful disk := faithful_of_root_eq_none rfl
    have hnone : ∀ n ∈ source.fires?, call.token ≠ some n := by
      rw [hfires]
      simp
    exact ⟨((@yields_getRoot disk ⟨_, call⟩ hfaithful).unlimited hcall hnone).1,
      ((@yields_hasMarker disk ⟨_, call⟩ hfaithful).unlimited hcall hnone).1⟩
  have hread : ((Token.read t).outcome call).1 = .ok (Token.first t) :=
    (Token.steady_read t).unlimited call hcall
  refine ⟨⟨Token.first t, hread, fun path => ?_, fun path => ?_⟩,
    ⟨Root.isSigned (Source.rootOf (Token.first t)), fun path => ?_, fun path => ?_⟩⟩
  · exact (hyields path (.text t) rfl).1
  · exact (hyields path source hfires).1.trans hroot
  · exact (hyields path (.text t) rfl).2
  · rw [(hyields path source hfires).2, hroot]
    rfl

/-- **Reading in pieces**: a call that nothing cancels finds the same first token, and the same
marker, in a file that delivers a text as in the text, whatever the size of the pieces. The bytes
of a text in UTF-8 are a case of it. -/
theorem reading_in_pieces {disk : Reader} {path : Text} {size : ℕ} {call : Call}
    (hsize : 1 ≤ size) (hcall : call.allowed = none) :
    (∀ encoding t, Source.Delivers disk path encoding t →
      ReadsAs disk call (.file path encoding size) t) ∧
    ∀ s, disk path = .ok (Text.Utf8.encode s) → ReadsAs disk call (.file path "utf-8" size) s := by
  have hgeneral (encoding : String) (t : Text) (h : Source.Delivers disk path encoding t) :
      ReadsAs disk call (.file path encoding size) t :=
    readsAs_of_root hcall rfl (Source.root_of_delivers hsize h)
  refine ⟨hgeneral, ?_⟩
  intro s hopen
  exact hgeneral "utf-8" s (Source.delivers_encode hopen)

/-- Four slashes, of which the first piece shows three: a documentation comment, it seems. -/
theorem reading_in_pieces_of_three :
    ReadsAs (fun _ => .ok (Text.Utf8.encode "//// <a>\r\nclass é".toList)) .unlimited
      (.file "a.cs".toList "utf-8" 3) "//// <a>\r\nclass é".toList :=
  (reading_in_pieces (by decide) rfl).2 _ rfl

end Tree

end GeneratedCode
