import Mathlib.Tactic
import GeneratedCode.Proofs.Project.Scan
import GeneratedCode.Proofs.Token.Reads
import GeneratedCode.Proofs.Tree.Pace

/-!
How many checks a scan makes, and what becomes of one that is cancelled.

A turn makes a check of its own, and those of the tests unless the name of the file says all
(`SourceFile.checks`). The tree of a turn is new, so whatever is kept has no say in this.
`paced_scanFrom` is the induction along the files; `exists_readErrors_scanFrom` is another, about
what the log has been told by the time that a scan is cut short.
-/

namespace GeneratedCode

open Cache

namespace Project

namespace SourceFile

variable {file : SourceFile}

/-! ### The checks of a file -/

/-- How many checks it takes to read a file: those of each turn, which looks for a token in all that
has been read by then. One that cannot be opened takes none. -/
def turns (file : SourceFile) : ℕ :=
  match file.content with
  | .error _ => 0
  | .ok opened =>
      let t := Text.Utf8.decodeLossy opened.bytes
      ((Token.heads Token.pieceSize opened.fault t).map Trivia.leadingTurns).sum

/-- How many checks a scan makes for a file: one if its name says that it is generated, and if not,
another, those of reading it, and unless it cannot be read, one for each piece of trivia that the
scan for a marker looks at. -/
def checks (file : SourceFile) : ℕ :=
  if FileName.isGenerated file.name then 1
  else
    2 + file.turns +
      match file.text with
      | .error _ => 0
      | .ok t => (Marker.visited (Token.first t).leading).length

/-- A scan looks at no trivia where the token says that there are none. -/
lemma scanTurns_first (t : Text) :
    Root.scanTurns (Source.rootOf (Token.first t)) =
      (Marker.visited (Token.first t).leading).length := by
  rw [← Marker.scanTurns_zero]
  change (if !(Token.first t).leading.isEmpty then Marker.scanTurns 0 (Token.first t).leading
    else 0) = _
  cases (Token.first t).leading <;> rfl

/-- Asking the tree of a file for its root makes the checks of reading it. -/
lemma paced_getRoot (file : SourceFile) :
    Paced Visit.call (Visit.At file.tree) (Tree.getRoot file.reader) file.turns
      ((file.text.mapError .cannotRead).map fun t => Source.rootOf (Token.first t)) := by
  have hanswer : file.tree.answer file.reader =
      (file.text.mapError .cannotRead).map fun t => Source.rootOf (Token.first t) := by
    change (Source.fileToken file.reader file.path "utf-8" Token.pieceSize).map Source.rootOf = _
    rw [fileToken_eq]
    cases file.text <;> rfl
  have hturns : file.tree.turns file.reader = file.turns := by
    change Tree.fileTurns file.reader file.path "utf-8" Token.pieceSize = _
    rw [Tree.fileTurns, turns, reader]
    cases file.content with
    | error why => rfl
    | ok opened =>
        have hread := @Token.fileTurns_of_decode _ Token.pieceSize "utf-8" .utf8 opened (by decide)
          (by decide) rfl
        refine Eq.trans ?_ hread
        exact if_neg (by decide)
  rw [← hanswer, ← hturns]
  exact Tree.paced_getRoot file.reader file.tree

/-- The scan for a marker in a file: with the check of the turn, it makes those of the file. -/
lemma exists_paced_hasMarker (h : FileName.isGenerated file.name = false) :
    ∃ n, file.checks = 1 + n ∧
      Paced Visit.call (Visit.At file.tree) (Marker.hasMarker (Tree.getRoot file.reader)) n
        (file.verdict.mapError .cannotRead) := by
  have hroot := paced_getRoot file
  rw [checks, verdict, h]
  simp only [Bool.false_eq_true, if_false]
  cases htext : file.text with
  | error why =>
      rw [htext] at hroot
      refine ⟨1 + file.turns, ?_, Marker.paced_hasMarker_of_error hroot⟩
      dsimp only
      omega
  | ok t =>
      rw [htext] at hroot
      have hmarker := Marker.paced_hasMarker_of_ok hroot
      rw [scanTurns_first] at hmarker
      refine ⟨_, ?_, hmarker⟩
      dsimp only
      omega

end SourceFile

/-! ### Turns -/

namespace Scan

variable {cache : CacheRef} {place : Text} {previous : Option Handle} {found : List Finding}
  {file : SourceFile} {files : List SourceFile} {scan : Scan}

/-- The tests of a file come to its verdict, with the check of the turn for its checks, or are
cancelled. -/
lemma exists_judge_usual (file : SourceFile) :
    ∃ n, file.checks = n + 1 ∧ ∀ call : Call, call.token = none →
      (call.affords n = true → ∃ visit,
        judge {} file call = (file.verdict.mapError .cannotRead, visit) ∧
          call.Reaches (call.checks + n) visit.call) ∧
      (call.affords n = false → ∃ visit, judge {} file call = (.error .cancelled, visit) ∧
        call.Reaches call.overdrawn.checks visit.call) := by
  cases hname : FileName.isGenerated file.name with
  | true =>
      refine ⟨0, by rw [SourceFile.checks, if_pos hname], fun call _ =>
        ⟨fun _ => ?_, fun hpoor => ?_⟩⟩
      · refine ⟨⟨file.tree, call⟩, ?_, rfl, rfl, rfl⟩
        rw [judge, Slot.judge, Classifier.byName, hname, SourceFile.verdict, if_pos hname]
        rfl
      · simp at hpoor
  | false =>
      obtain ⟨n, hchecks, hpaced⟩ := SourceFile.exists_paced_hasMarker hname
      have hjudge (call : Call) : judge {} file call =
          (Marker.hasMarker (Tree.getRoot file.reader)).outcome ⟨file.tree, call⟩ := by
        rw [judge, Slot.judge, Classifier.byName, hname]
        rfl
      refine ⟨n, by omega, fun call htoken => ⟨fun haffords => ?_, fun hpoor => ?_⟩⟩
      · rw [hjudge]
        exact hpaced.afforded ⟨file.tree, call⟩ ⟨rfl, htoken⟩ haffords
      · rw [hjudge]
        exact hpaced.overdrawn ⟨file.tree, call⟩ ⟨rfl, htoken⟩ hpoor

/-- **A turn** with the usual tests makes the checks of its file. -/
lemma paced_turn (hcache : cache.classifier = {}) (disk : Reader) (hnumbered : scan.store.Numbered)
    (htoken : scan.inner.token = none) :
    Paced Inquiry.inner (· = scan) (turn cache place previous file) file.checks
      (.ok (nextHandle scan.store, file.finding? disk)) := by
  obtain ⟨n, hchecks, hjudge⟩ := exists_judge_usual file
  rw [hchecks]
  constructor
  · rintro scan rfl haffords
    rw [Call.affords_succ, Bool.and_eq_true, Bool.not_eq_true'] at haffords
    obtain ⟨hspent, hrest⟩ := haffords
    obtain ⟨visit, hvisit, hchecked, hallowed, htoken⟩ := (hjudge scan.inner.tick htoken).1 hrest
    have hreaches : scan.inner.Reaches (scan.inner.checks + (n + 1)) visit.call :=
      ⟨hchecked.trans (Nat.succ_add_eq_add_succ _ _), hallowed, htoken⟩
    rw [outcome_turn hnumbered hspent, hcache, hvisit, SourceFile.finding?_eq]
    cases file.verdict <;> exact ⟨_, rfl, hreaches⟩
  · rintro scan rfl hpoor
    cases hspent : scan.inner.spent with
    | true =>
        refine ⟨_, outcome_turn_of_spent hspent, ?_, rfl, rfl⟩
        rw [Call.overdrawn_of_spent hspent]
    | false =>
        rw [Call.affords_succ, hspent, Bool.not_false, Bool.true_and] at hpoor
        obtain ⟨visit, hvisit, hchecked, hallowed, htoken⟩ :=
          (hjudge scan.inner.tick htoken).2 hpoor
        have hlimit : scan.inner.tick.allowed ≠ none := fun hnone => by
          rw [Call.affords_of_allowed_none hnone] at hpoor
          contradiction
        rw [outcome_turn hnumbered hspent, hcache, hvisit]
        rw [Call.overdrawn_tick hspent hlimit] at hchecked
        exact ⟨_, rfl, hchecked, hallowed, htoken⟩

/-- **A scan** with the usual tests makes the checks of its files. -/
lemma paced_scanFrom (hcache : cache.classifier = {}) (disk : Reader) :
    Paced Inquiry.inner (fun scan : Scan => scan.store.Numbered ∧ scan.inner.token = none)
      (scanFrom cache place previous found files) (files.map SourceFile.checks).sum
      (.ok (found.reverse ++ files.filterMap (SourceFile.finding? disk))) := by
  induction files generalizing previous found with
  | nil =>
      rw [scanFrom, List.filterMap_nil, List.append_nil]
      exact Paced.pure _
  | cons file files ih =>
      refine Paced.of_each fun scan hscan => ?_
      obtain ⟨hnumbered, htoken⟩ := hscan
      have hturn := @paced_turn cache place previous file scan hcache disk hnumbered htoken
      have hrest := @ih (some (nextHandle scan.store)) ((file.finding? disk).toList ++ found)
      have hfound : ((file.finding? disk).toList ++ found).reverse ++
          files.filterMap (SourceFile.finding? disk) =
            found.reverse ++ (file :: files).filterMap (SourceFile.finding? disk) := by
        rw [List.filterMap_cons]
        cases file.finding? disk <;> simp
      rw [scanFrom_cons, List.map_cons, List.sum_cons, ← hfound]
      refine hturn.bind (fun _ after hscan hafter => ?_) hrest
      subst hscan
      have hkept := @numbered_turn cache place previous file _ hnumbered
      have hcalled := hturn.token_eq rfl
      rw [hafter] at hkept hcalled
      exact ⟨hkept, hcalled.trans htoken⟩

/-! ### What the log is told -/

/-- A turn that fails tells the log nothing, whatever the tests are. -/
lemma events_turn_of_error (hnumbered : scan.store.Numbered) {failure : Failure}
    (h : ((turn cache place previous file).outcome scan).1 = .error failure) :
    ((turn cache place previous file).outcome scan).2.events = scan.events := by
  cases hspent : scan.inner.spent with
  | true => rw [outcome_turn_of_spent hspent]
  | false =>
      have hturn := @outcome_turn cache place previous file scan hnumbered hspent
      cases hjudged : judge cache.classifier file scan.inner.tick with
      | mk result visit =>
        rw [hjudged] at hturn
        rw [hturn] at h ⊢
        cases result with
        | ok answer => contradiction
        | error failure =>
            cases failure with
            | cannotRead why => contradiction
            | _ => rfl

/-- However a scan ends, the log has been told of those of its first files that cannot be read,
and of no other such file. -/
lemma exists_readErrors_scanFrom (hcache : cache.classifier = {})
    (hnumbered : scan.store.Numbered) :
    ∃ n, ((scanFrom cache place previous found files).outcome scan).2.events.filter
        Event.isReadError =
      ((files.take n).filterMap (SourceFile.readError? place)).reverse ++
        scan.events.filter Event.isReadError := by
  induction files generalizing previous found scan with
  | nil => exact ⟨0, rfl⟩
  | cons file files ih =>
      obtain ⟨hturn, -⟩ :=
        @turn_usual cache place previous file scan hnumbered hcache file.reader
      have hkept := @numbered_turn cache place previous file scan hnumbered
      have herror := @events_turn_of_error cache place previous file scan hnumbered
      rw [scanFrom_cons, Attempt.outcome_bind]
      cases hout : (turn cache place previous file).outcome scan with
      | mk result after =>
        rw [hout] at hturn hkept herror
        cases result with
        | error failure => exact ⟨0, congrArg _ (herror rfl)⟩
        | ok made =>
            obtain ⟨-, htold⟩ := hturn.resolve_left (by simp)
            obtain ⟨n, hlast⟩ := @ih (some made.1) (made.2.toList ++ found) after hkept
            refine ⟨n + 1, hlast.trans ?_⟩
            rw [htold, List.take_succ_cons, List.filterMap_cons]
            cases file.readError? place <;> simp

end Scan

end Project

end GeneratedCode
