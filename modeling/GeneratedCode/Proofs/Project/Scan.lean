import Mathlib.Tactic
import GeneratedCode.Project.Report
import GeneratedCode.Proofs.Memory.Serials
import GeneratedCode.Proofs.Tree.Reading
import GeneratedCode.Proofs.Tree.Verdict

/-!
Scans: what a scan finds of each file, turn by turn.

A turn makes the tree of a file and asks the cache about it (`Scan.turn`). The tree is new, so the
cache knows nothing of it, whatever is kept at its address, and the tests are run
(`Scan.outcome_turn`, for any tests). With the usual tests they find what the whole text of the file
says (`SourceFile.verdict`), although they read no more of it than they need.

`Scan.scanFrom_usual` is the induction along the files. What is carried is that the memory is
numbered, which is all that a turn asks of it.
-/

namespace GeneratedCode

open Cache

/-- Whether an event says that a file could not be read. -/
def Event.isReadError : Event → Bool
  | .readError _ _ => true
  | _ => false

namespace Project

/-! ### What is to be said of a file -/

namespace SourceFile

/-- The text of a file, or why it cannot be read as far as it takes to find its first token. -/
def text (file : SourceFile) : Except FileError Text := do
  let opened ← file.content
  let t := Text.Utf8.decodeLossy opened.bytes
  Fault.grants opened.fault (Token.readCount Token.pieceSize t)
  return t

/-- What is to be reported of a file: that it is generated, if its name says so, or else what the
comments in front of the first token of its whole text say. If it cannot be read, there is nothing
but its name to go by. -/
def finding? (disk : Reader) (file : SourceFile) : Option Finding :=
  if FileName.isGenerated file.name then some ⟨file.path, true, some .fileName⟩
  else
    match file.text with
    | .error _ => none
    | .ok t =>
        let tree : Tree := { filePath := file.name, source := .text t }
        match tree.uncached disk with
        | .ok true => some ⟨file.path, true, some .comment⟩
        | _ => some ⟨file.path, false, none⟩

/-- What the log is to be told of a file of which nothing is reported. -/
def readError? (place : Text) (file : SourceFile) : Option Event :=
  if FileName.isGenerated file.name then none
  else
    match file.text with
    | .error why => some (.readError (Path.entryOf place file.path) why)
    | .ok _ => none

/-- Whether a file is generated, from its name or else from its text, or why it cannot be read. -/
def verdict (file : SourceFile) : Except FileError Bool :=
  if FileName.isGenerated file.name then .ok true
  else file.text.map fun t => Root.isSigned (Source.rootOf (Token.first t))

/-- The tree of a file in a scan. -/
def tree (file : SourceFile) : Tree :=
  { filePath := file.name, source := .file file.path "utf-8" Token.pieceSize }

/-- What opening the tree of a file gives. -/
def reader (file : SourceFile) : Reader :=
  fun _ => file.content.mapError .cannotRead

variable {file : SourceFile}

lemma finding?_eq (disk : Reader) (file : SourceFile) :
    file.finding? disk = file.verdict.toOption.map (Finding.ofAnswer file) := by
  rw [finding?, verdict]
  cases hname : FileName.isGenerated file.name with
  | true => simp [Except.toOption, Finding.ofAnswer, hname]
  | false =>
      cases file.text with
      | error why => rfl
      | ok t =>
          simp only [Bool.false_eq_true, if_false]
          rw [Tree.uncached_eq_verdict (Tree.faithful_of_root_eq_none rfl), Tree.verdict,
            if_neg (by simp [hname]), Source.root, Except.map, Except.map]
          cases hsigned : Root.isSigned (Source.rootOf (Token.first t))
          all_goals simp [Except.toOption, Finding.ofAnswer, hname]

/-- Nothing is reported of a file if and only if the log is told of it. -/
lemma readError?_eq (place : Text) (file : SourceFile) :
    file.readError? place =
      match file.verdict with
      | .ok _ => none
      | .error why => some (.readError (Path.entryOf place file.path) why) := by
  rw [readError?, verdict]
  cases FileName.isGenerated file.name with
  | true => rfl
  | false => cases file.text <;> rfl

/-- The first token that is read of a file in pieces is that of its whole text. -/
lemma fileToken_eq (file : SourceFile) :
    Source.fileToken file.reader file.path "utf-8" Token.pieceSize =
      (file.text.mapError .cannotRead).map Token.first := by
  rw [Source.fileToken, if_neg (by decide), reader, text]
  cases file.content with
  | error why => rfl
  | ok opened =>
      have hread := @Token.firstOfFile_of_decode _ Token.pieceSize "utf-8" .utf8 opened (by decide)
        (by decide) rfl
      refine hread.trans ?_
      rw [Token.firstRead]
      simp only [bind, Except.bind]
      cases Fault.grants opened.fault _ <;> rfl

/-- A file of one character is read to its end, for which there has to be a second piece. -/
example :
    let held (pieces : ℕ) : SourceFile :=
      ⟨"a.cs".toList, "a.cs".toList, .ok ⟨[0x61], some ⟨pieces, .permission⟩⟩⟩
    (held 1).text.toOption = none ∧ (held 2).text.toOption = some ['a'] := by decide +kernel

/-- What is read of a file in pieces is what its whole text says. -/
lemma verdict_tree (file : SourceFile) :
    file.tree.verdict file.reader = file.verdict.mapError .cannotRead := by
  rw [Tree.verdict, verdict, tree]
  cases FileName.isGenerated file.name with
  | true => rfl
  | false =>
      simp only [Bool.false_eq_true, if_false]
      rw [Source.root, fileToken_eq]
      cases file.text <;> rfl

end SourceFile

/-! ### Turns -/

namespace Scan

variable {cache : CacheRef} {place : Text} {previous : Option Handle} {found : List Finding}
  {file : SourceFile} {files : List SourceFile} {scan : Scan}

/-- What the tests of a cache make of a file. -/
def judge (classifier : Classifier) (file : SourceFile) (call : Call) :
    Except Failure Bool × Visit Tree :=
  Slot.judge file.name classifier.byName (classifier.byComment file.reader) ⟨file.tree, call⟩

/-- The tree that the next file gets. -/
def nextHandle (memory : Memory) : Handle :=
  (memory.create false "").1

/-- The memory with that tree, and without the one before it. -/
def nextMemory (previous : Option Handle) (memory : Memory) : Memory :=
  previous.elim (memory.create false "").2 (memory.create false "").2.release

/-- One turn of a scan: the tree that it makes, and what is found of the file if it can be
read. -/
def turn (cache : CacheRef) (place : Text) (previous : Option Handle) (file : SourceFile) :
    Attempt Scan (Handle × Option Finding) := do
  Inquiry.onInner check
  let tree ← nextTree previous
  match ← orFileError (ask cache tree file) with
  | .ok generated => return (tree, some (Finding.ofAnswer file generated))
  | .error why =>
      Inquiry.tell (.readError (Path.entryOf place file.path) why)
      return (tree, none)

/-- A scan makes one turn for each file. -/
lemma scanFrom_cons :
    scanFrom cache place previous found (file :: files) =
      (turn cache place previous file >>= fun (tree, finding?) =>
        scanFrom cache place (some tree) (finding?.toList ++ found) files) := by
  rw [scanFrom, turn]
  simp only [bind_assoc]
  refine bind_congr fun _ => bind_congr fun tree => bind_congr fun answer => ?_
  cases answer with
  | ok generated => simp
  | error why => simp

lemma nextSerial_nextMemory (previous : Option Handle) (memory : Memory) :
    (nextMemory previous memory).nextSerial = memory.nextSerial + 1 := by
  cases previous <;> rfl

lemma slot_nextMemory (previous : Option Handle) (memory : Memory) (number : ℕ) :
    (nextMemory previous memory).slot number = memory.slot number := by
  cases previous <;> rfl

lemma numbered_nextMemory {memory : Memory} (h : memory.Numbered) (previous : Option Handle) :
    (nextMemory previous memory).Numbered := by
  refine h.of_subset ?_ fun table htable => ?_
  · rw [nextSerial_nextMemory]
    exact Nat.le_succ _
  · cases previous <;> exact htable

/-- The cache knows nothing of a tree that has just been made. -/
lemma lookup?_nextHandle {memory : Memory} (h : memory.Numbered) (previous : Option Handle)
    (number : ℕ) :
    ((nextMemory previous memory).slot number).lookup? (nextHandle memory) = none := by
  rw [slot_nextMemory]
  exact h.lookup?_eq_none le_rfl

lemma outcome_nextTree :
    (nextTree previous).outcome scan =
      (.ok (nextHandle scan.store), { scan with store := nextMemory previous scan.store }) := rfl

lemma outcome_orFileError {α : Type} (x : Attempt Scan α) :
    (orFileError x).outcome scan =
      match x.outcome scan with
      | (.ok a, scan) => (.ok (.ok a), scan)
      | (.error (.cannotRead why), scan) => (.ok (.error why), scan)
      | (.error failure, scan) => (.error failure, scan) := rfl

/-- Of a tree that the cache knows nothing of, the tests are asked. -/
lemma outcome_ask {tree : Handle} (h : (scan.store.slot cache.slot).lookup? tree = none) :
    (ask cache tree file).outcome scan =
      match judge cache.classifier file scan.inner with
      | (.ok answer, visit) =>
          (.ok answer,
            ⟨scan.store.setSlot cache.slot
                ((scan.store.slot cache.slot).keeping scan.store.alive tree answer),
              .miss file.name answer ((scan.store.slot cache.slot).table.getD []).length ::
                scan.events,
              visit.call⟩)
      | (.error failure, visit) =>
          (.error failure,
            ⟨scan.store.setSlot cache.slot (scan.store.slot cache.slot), scan.events,
              visit.call⟩) := by
  let inquiry : Inquiry Slot (Visit Tree) :=
    ⟨scan.store.slot cache.slot, scan.events, ⟨file.tree, scan.inner⟩⟩
  have hask : (ask cache tree file).outcome scan =
      let asked := (Slot.isGenerated scan.store.alive tree file.name cache.classifier.byName
        (cache.classifier.byComment file.reader)).outcome inquiry
      (asked.1,
        ⟨scan.store.setSlot cache.slot asked.2.store, asked.2.events, asked.2.inner.call⟩) := rfl
  have hmiss : inquiry.store.lookup? tree = none := h
  rw [hask, Slot.outcome_isGenerated_of_miss hmiss, judge]
  rcases Slot.judge file.name cache.classifier.byName
    (cache.classifier.byComment file.reader) inquiry.inner with ⟨failure | answer, visit⟩ <;> rfl

/-- A call that is cancelled makes no further turn. -/
lemma outcome_turn_of_spent (h : scan.inner.spent = true) :
    (turn cache place previous file).outcome scan =
      (.error .cancelled, { scan with inner := scan.inner.tick }) := by
  refine Attempt.outcome_bind_of_error ?_
  rw [Inquiry.onInner, Attempt.outcome_focus, outcome_check, if_pos h]

/-- **A turn** asks the tests, whatever is kept. What they find goes into the cache. -/
lemma outcome_turn (hnumbered : scan.store.Numbered) (h : scan.inner.spent = false) :
    (turn cache place previous file).outcome scan =
      let tree := nextHandle scan.store
      let memory := nextMemory previous scan.store
      let slot := memory.slot cache.slot
      match judge cache.classifier file scan.inner.tick with
      | (.ok answer, visit) =>
          (.ok (tree, some (Finding.ofAnswer file answer)),
            ⟨memory.setSlot cache.slot (slot.keeping memory.alive tree answer),
              .miss file.name answer (slot.table.getD []).length :: scan.events, visit.call⟩)
      | (.error (.cannotRead why), visit) =>
          (.ok (tree, none),
            ⟨memory.setSlot cache.slot slot,
              .readError (Path.entryOf place file.path) why :: scan.events, visit.call⟩)
      | (.error failure, visit) =>
          (.error failure, ⟨memory.setSlot cache.slot slot, scan.events, visit.call⟩) := by
  have hcheck : (Inquiry.onInner check : Attempt Scan Unit).outcome scan =
      (.ok (), { scan with inner := scan.inner.tick }) := by
    rw [Inquiry.onInner, Attempt.outcome_focus, outcome_check, if_neg (by simp [h])]
  have hask := @outcome_ask cache file
    { scan with store := nextMemory previous scan.store, inner := scan.inner.tick }
    (nextHandle scan.store) (lookup?_nextHandle hnumbered previous cache.slot)
  rw [turn, Attempt.outcome_bind_of_ok hcheck, Attempt.outcome_bind, outcome_nextTree]
  dsimp only at hask ⊢
  rw [Attempt.outcome_bind, outcome_orFileError, hask]
  rcases judge cache.classifier file scan.inner.tick with ⟨failure | answer, visit⟩
  · cases failure <;> rfl
  · rfl

/-- Whatever the tests are, and whether it is cancelled or not, a turn leaves the memory
numbered. -/
lemma numbered_turn (h : scan.store.Numbered) :
    ((turn cache place previous file).outcome scan).2.store.Numbered := by
  let tree := nextHandle scan.store
  let memory := nextMemory previous scan.store
  have hmemory : memory.Numbered := numbered_nextMemory h previous
  have htree : tree.serial < memory.nextSerial :=
    (Nat.lt_succ_self _).trans_eq (nextSerial_nextMemory previous scan.store).symm
  have hsame : (memory.setSlot cache.slot (memory.slot cache.slot)).Numbered :=
    hmemory.of_subset le_rfl fun _ => Memory.mem_tables_setSlot_slot
  cases hspent : scan.inner.spent with
  | true =>
      rw [outcome_turn_of_spent hspent]
      exact h
  | false =>
      rw [outcome_turn h hspent]
      dsimp only
      rcases judge cache.classifier file scan.inner.tick with ⟨failure | answer, visit⟩
      · cases failure <;> exact hsame
      · exact hmemory.setSlot_keeping htree _ _

/-! ### The usual tests -/

/-- The usual tests find the verdict on a file, unless they are cancelled. -/
lemma judge_usual (file : SourceFile) (call : Call) :
    ((judge {} file call).1 = file.verdict.mapError .cannotRead ∨
      (judge {} file call).1 = .error .cancelled) ∧
    (call.allowed = none → (judge {} file call).1 = file.verdict.mapError .cannotRead ∧
      (judge {} file call).2.call.allowed = none) := by
  have htree : file.tree.Faithful file.reader := Tree.faithful_of_root_eq_none rfl
  have hjudge := @Tree.judge_usual file.reader ⟨file.tree, call⟩ htree
  have hunlimited := @Tree.judge_usual_unlimited file.reader ⟨file.tree, call⟩ htree
  rw [← SourceFile.verdict_tree]
  refine ⟨hjudge.1, fun hcall => hunlimited hcall ?_⟩
  simp [SourceFile.tree, Source.fires?]

/-- A turn with the usual tests finds what is to be reported of the file, unless it is cancelled,
and the log is told of the file if there is nothing to report. -/
lemma turn_usual (h : scan.store.Numbered) (hcache : cache.classifier = {}) (disk : Reader) :
    let out := (turn cache place previous file).outcome scan
    (out.1 = .error .cancelled ∨
      out.1 = .ok (nextHandle scan.store, file.finding? disk) ∧
        out.2.events.filter Event.isReadError =
          (file.readError? place).toList ++ scan.events.filter Event.isReadError) ∧
    (scan.inner.allowed = none → out.1 ≠ .error .cancelled ∧ out.2.inner.allowed = none) := by
  cases hspent : scan.inner.spent with
  | true =>
      rw [outcome_turn_of_spent hspent]
      refine ⟨.inl rfl, fun hcall => ?_⟩
      simp [Call.spent, hcall] at hspent
  | false =>
      obtain ⟨hjudge, hunlimited⟩ := judge_usual file scan.inner.tick
      rw [outcome_turn h hspent, hcache, SourceFile.finding?_eq, SourceFile.readError?_eq]
      cases hjudged : judge {} file scan.inner.tick with
      | mk result visit =>
        rw [hjudged] at hjudge hunlimited
        rcases hjudge with hresult | hcancelled
        · obtain rfl := hresult
          cases file.verdict with
          | ok answer =>
              exact ⟨.inr ⟨rfl, rfl⟩, fun hcall =>
                ⟨by simp [Except.mapError], (hunlimited hcall).2⟩⟩
          | error why =>
              exact ⟨.inr ⟨rfl, rfl⟩, fun hcall =>
                ⟨by simp [Except.mapError], (hunlimited hcall).2⟩⟩
        · obtain rfl := hcancelled
          refine ⟨.inl rfl, fun hcall => ?_⟩
          have hnever := (hunlimited hcall).1
          cases hverdict : file.verdict <;> simp [hverdict, Except.mapError] at hnever

/-- **A scan** with the usual tests finds what is to be reported of each file, in order, unless it
is cancelled, and the log is told of each file of which there is nothing to report, in order too. -/
theorem scanFrom_usual (h : scan.store.Numbered) (hcache : cache.classifier = {}) (disk : Reader) :
    let out := (scanFrom cache place previous found files).outcome scan
    (out.1 = .error .cancelled ∨
      out.1 = .ok (found.reverse ++ files.filterMap (SourceFile.finding? disk)) ∧
        out.2.events.filter Event.isReadError =
          (files.filterMap (SourceFile.readError? place)).reverse ++
            scan.events.filter Event.isReadError) ∧
    (scan.inner.allowed = none → out.1 ≠ .error .cancelled) := by
  induction files generalizing previous found scan with
  | nil =>
      rw [scanFrom]
      exact ⟨.inr ⟨by simp, rfl⟩, fun _ => by simp⟩
  | cons file files ih =>
      obtain ⟨hturn, hunlimited⟩ := @turn_usual cache place previous file scan h hcache disk
      have hafter := @numbered_turn cache place previous file scan h
      rw [scanFrom_cons, Attempt.outcome_bind]
      cases hout : (turn cache place previous file).outcome scan with
      | mk result after =>
        rw [hout] at hturn hunlimited hafter
        rcases hturn with hcancelled | ⟨hfound, htold⟩
        · obtain rfl := hcancelled
          exact ⟨.inl rfl, fun hcall => absurd rfl (hunlimited hcall).1⟩
        · obtain rfl := hfound
          obtain ⟨hrest, hnever⟩ := @ih (some (nextHandle scan.store))
            ((file.finding? disk).toList ++ found) after hafter
          refine ⟨hrest.imp_right ?_, fun hcall => hnever (hunlimited hcall).2⟩
          rintro ⟨hlast, htold'⟩
          dsimp only at htold ⊢
          have hreverse :
              (file.readError? place).toList.reverse = (file.readError? place).toList := by
            cases file.readError? place <;> rfl
          have hreverse' : (file.finding? disk).toList.reverse = (file.finding? disk).toList := by
            cases file.finding? disk <;> rfl
          rw [hlast, htold', htold]
          simp only [List.filterMap_eq_flatMap_toList, List.flatMap_cons, List.reverse_append,
            List.append_assoc, hreverse, hreverse', and_self]

end Scan

end Project

end GeneratedCode
