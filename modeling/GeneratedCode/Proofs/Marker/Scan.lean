import Mathlib.Tactic
import GeneratedCode.Proofs.Tree.Pace

/-!
How far a scan for a marker goes.

A scan stops at a line comment that is a marker, or else at the last one that it may read
(`Marker.StopsAt`). So it sees the trivia up to the first piece at which it stops, or all of them
(`Marker.Sees`), and that is what it makes checks for (`sees_scanTurns`); what stands behind has no
say in the result (`scan_stops`). `marker_scan` says what this comes to for a tree that may be the
host's: what the result is, what it costs, and when the scan is cancelled.
-/

namespace GeneratedCode

open Text

namespace Marker

/-! ### Where a scan stops -/

/-- Whether a scan that may read `k` line comments stops at a piece with `before` in front of it:
the piece is a line comment, and it is either a marker among those `k` or the last of them. -/
structure StopsAt (k : ℕ) (before : List Trivia) (t : Trivia) : Prop where
  kind_eq : t.kind = .singleLineComment
  last : (lineComments before).length < k ∧ trimRight t.text ∈ texts ∨
    (lineComments before).length + 1 = k

/-- Whether a scan stops at no piece of some trivia. -/
def Passes (k : ℕ) (ts : List Trivia) : Prop :=
  ∀ before t after, ts = before ++ t :: after → ¬ StopsAt k before t

/-- How many pieces a scan sees: those up to the first at which it stops, or all of them. -/
def Sees (k : ℕ) (ts : List Trivia) (w : ℕ) : Prop :=
  (∃ before t after, ts = before ++ t :: after ∧ Passes k before ∧ StopsAt k before t ∧
    w = before.length + 1) ∨ Passes k ts ∧ w = ts.length

variable {k seen : ℕ} {t u : Trivia} {ts before : List Trivia}

lemma passes_nil (k : ℕ) : Passes k [] := by
  intro before t after h
  simp at h

lemma stopsAt_nil_iff : StopsAt (k + 1) [] t ↔
    t.kind = .singleLineComment ∧ (trimRight t.text ∈ texts ∨ k = 0) := by
  have hnone : (lineComments []).length = 0 := rfl
  constructor
  · rintro ⟨hkind, ⟨-, hmarker⟩ | hlast⟩
    · exact ⟨hkind, .inl hmarker⟩
    · exact ⟨hkind, .inr (by omega)⟩
  · rintro ⟨hkind, hmarker | rfl⟩
    · exact ⟨hkind, .inl ⟨by omega, hmarker⟩⟩
    · exact ⟨hkind, .inr (by omega)⟩

/-- Behind any other piece a scan goes on as before. -/
lemma stopsAt_cons_of_ne (h : t.kind ≠ .singleLineComment) :
    StopsAt k (t :: before) u ↔ StopsAt k before u := by
  constructor <;> rintro ⟨hkind, hlast⟩ <;>
    exact ⟨hkind, by rwa [lineComments_cons_of_ne h] at *⟩

/-- Behind a line comment it may read one less. -/
lemma stopsAt_cons_of_eq (h : t.kind = .singleLineComment) :
    StopsAt (k + 1) (t :: before) u ↔ StopsAt k before u := by
  constructor <;> rintro ⟨hkind, hlast⟩ <;> refine ⟨hkind, ?_⟩
  · rw [lineComments_cons_of_eq h, List.length_cons] at hlast
    exact hlast.imp (And.imp_left Nat.lt_of_succ_lt_succ) Nat.succ.inj
  · rw [lineComments_cons_of_eq h, List.length_cons]
    exact hlast.imp (And.imp_left Nat.succ_lt_succ) (congrArg Nat.succ)

lemma Passes.concat (h : Passes k ts) (hstop : ¬ StopsAt k ts u) : Passes k (ts ++ [u]) := by
  intro before t after hsplit
  rcases List.eq_nil_or_concat after with rfl | ⟨after, v, rfl⟩
  · obtain ⟨rfl, hu⟩ := List.append_inj' hsplit rfl
    obtain rfl := (List.cons.inj hu).1
    exact hstop
  · rw [List.concat_eq_append, ← List.cons_append, ← List.append_assoc] at hsplit
    exact h before t after (List.append_inj' hsplit rfl).1

/-- A scan stops at a first piece, or at none. -/
lemma exists_sees (k : ℕ) (ts : List Trivia) : ∃ w, Sees k ts w := by
  suffices h : Passes k ts ∨ ∃ before t after, ts = before ++ t :: after ∧ Passes k before ∧
      StopsAt k before t by
    rcases h with hpass | ⟨before, t, after, hts, hpass, hstop⟩
    · exact ⟨_, .inr ⟨hpass, rfl⟩⟩
    · exact ⟨_, .inl ⟨before, t, after, hts, hpass, hstop, rfl⟩⟩
  induction ts using List.reverseRecOn with
  | nil => exact .inl (passes_nil k)
  | append_singleton ts u ih =>
      rcases ih with hpass | ⟨before, t, after, rfl, hpass, hstop⟩
      · by_cases hstop : StopsAt k ts u
        · exact .inr ⟨ts, u, [], rfl, hpass, hstop⟩
        · exact .inl (hpass.concat hstop)
      · exact .inr ⟨before, t, after ++ [u], by simp, hpass, hstop⟩

/-! ### What a scan makes of what it passes -/

lemma Passes.tail_of_ne (h : Passes k (t :: ts)) (hkind : t.kind ≠ .singleLineComment) :
    Passes k ts := fun before u after hts hstop =>
  h (t :: before) u after (congrArg (t :: ·) hts) ((stopsAt_cons_of_ne hkind).2 hstop)

lemma Passes.tail_of_eq (h : Passes (k + 1) (t :: ts)) (hkind : t.kind = .singleLineComment) :
    Passes k ts := fun before u after hts hstop =>
  h (t :: before) u after (congrArg (t :: ·) hts) ((stopsAt_cons_of_eq hkind).2 hstop)

/-- Whether there is a marker among the line comments that a scan may still read. -/
def findsIn (seen : ℕ) (ts : List Trivia) : Bool :=
  ((lineComments ts).take (maxComments - seen)).any isMarker

lemma findsIn_cons_of_ne (h : t.kind ≠ .singleLineComment) :
    findsIn seen (t :: ts) = findsIn seen ts := by
  rw [findsIn, lineComments_cons_of_ne h, findsIn]

lemma findsIn_cons_of_eq (hseen : seen < maxComments) (h : t.kind = .singleLineComment) :
    findsIn seen (t :: ts) = (isMarker t.text || findsIn (seen + 1) ts) := by
  rw [findsIn, lineComments_cons_of_eq h,
    show maxComments - seen = maxComments - (seen + 1) + 1 by omega, List.take_succ_cons,
    List.any_cons, findsIn]

/-- **What a scan passes** costs a check a piece and decides nothing; the scan goes on behind it,
having read the line comments that are there. -/
lemma scan_past (hseen : seen < maxComments) (h : Passes (maxComments - seen) before)
    (rest : List Trivia) :
    seen + (lineComments before).length < maxComments ∧
      scanTurns seen (before ++ rest) =
        before.length + scanTurns (seen + (lineComments before).length) rest ∧
      findsIn seen (before ++ rest) =
        findsIn (seen + (lineComments before).length) rest := by
  induction before generalizing seen with
  | nil => exact ⟨hseen, (Nat.zero_add _).symm, rfl⟩
  | cons t before ih =>
      rw [List.cons_append, scanTurns, List.length_cons]
      by_cases hkind : t.kind = .singleLineComment
      · obtain ⟨left, hleft⟩ : ∃ left, maxComments - seen = left + 1 :=
          ⟨maxComments - seen - 1, by omega⟩
        rw [hleft] at h
        obtain ⟨hmarker, hmore⟩ : ¬ isMarker t.text = true ∧ ¬ left = 0 := by
          have hgoes := h [] t before rfl
          rw [stopsAt_nil_iff, and_iff_right hkind, not_or] at hgoes
          simpa [isMarker] using hgoes
        obtain ⟨hroom, hturns, hfinds⟩ := @ih (seen + 1) (by omega)
          (by simpa [show maxComments - (seen + 1) = left by omega] using h.tail_of_eq hkind)
        rw [lineComments_cons_of_eq hkind, List.length_cons, findsIn_cons_of_eq hseen hkind,
          Bool.eq_false_iff.2 hmarker, Bool.false_or, if_neg (by simp [hkind]),
          if_neg (by simp; omega),
          show seen + ((lineComments before).length + 1) =
            seen + 1 + (lineComments before).length by omega]
        exact ⟨hroom, by rw [hturns]; omega, hfinds⟩
      · obtain ⟨hroom, hturns, hfinds⟩ := ih hseen (h.tail_of_ne hkind)
        rw [lineComments_cons_of_ne hkind, findsIn_cons_of_ne hkind, if_pos hkind]
        exact ⟨hroom, by rw [hturns]; omega, hfinds⟩

/-- **Where a scan stops**, the piece tells whether there is a marker, whatever stands behind. -/
lemma scan_stops (hpass : Passes maxComments before) (hstop : StopsAt maxComments before t)
    (after : List Trivia) :
    scanTurns 0 (before ++ t :: after) = before.length + 1 ∧
      isSigned (before ++ t :: after) = isMarker t.text := by
  obtain ⟨hroom, hturns, hfinds⟩ := @scan_past 0 before (by decide) hpass (t :: after)
  rw [Nat.zero_add] at hroom hturns hfinds
  have hlast : isMarker t.text = true ∨ (lineComments before).length + 1 = maxComments :=
    hstop.last.imp (fun hmarker => by simpa [isMarker] using hmarker.2) id
  constructor
  · rw [hturns, scanTurns, if_neg (by simp [hstop.kind_eq]),
      if_pos (hlast.imp id fun hlast => by omega)]
  · change findsIn 0 _ = _
    rw [hfinds, findsIn_cons_of_eq hroom hstop.kind_eq]
    rcases hlast with hmarker | hlast
    · rw [hmarker, Bool.true_or]
    · rw [hlast, findsIn, Nat.sub_self, List.take_zero, List.any_nil, Bool.or_false]

/-- **What a scan sees** is what it makes checks for. -/
lemma sees_scanTurns (ts : List Trivia) : Sees maxComments ts (scanTurns 0 ts) := by
  obtain ⟨w, hsees⟩ := exists_sees maxComments ts
  suffices hw : scanTurns 0 ts = w by rwa [hw]
  rcases hsees with ⟨before, t, after, rfl, hpass, hstop, rfl⟩ | ⟨hpass, rfl⟩
  · exact (scan_stops hpass hstop after).1
  · have hturns := (@scan_past 0 ts (by decide) hpass []).2.1
    rwa [List.append_nil] at hturns

end Marker

/-! ### Scans of trees -/

/-- The trivia that a root offers to a scan: those in front of its first token, if it has one that
says that there are some. -/
def Root.leading? (root : Option Root) : Option (List Trivia) :=
  match root with
  | some ⟨some token⟩ => if token.hasLeading then some token.leading else none
  | _ => none

lemma Root.isSigned_eq (root : Option Root) :
    isSigned root = (leading? root).elim false Marker.isSigned := by
  rcases root with _ | ⟨_ | token⟩
  · rfl
  · rfl
  · simp only [isSigned, leading?]
    cases token.hasLeading <;> rfl

lemma Root.scanTurns_eq (root : Option Root) :
    scanTurns root = (leading? root).elim 0 (Marker.scanTurns 0) := by
  rcases root with _ | ⟨_ | token⟩
  · rfl
  · rfl
  · simp only [scanTurns, leading?]
    cases token.hasLeading <;> rfl

namespace Marker

variable {τ : Type} {getRoot : Attempt (Visit τ) (Option Root)} {tree : τ} {g : ℕ}
  {root : Option Root}

lemma isSigned_root_iff : Root.isSigned root = true ↔ ∃ ts ∈ Root.leading? root,
    ∃ comment ∈ (lineComments ts).take 2, trimRight comment ∈ texts := by
  rw [Root.isSigned_eq]
  cases Root.leading? root with
  | none => simp
  | some ts => simp [isSigned, isMarker, maxComments]

/-- What a scan of a tree costs does not depend on the token of the call. -/
lemma cancelledExactly_hasMarker
    (h : Paced Visit.call (Visit.At tree) getRoot g (.ok root)) :
    CancelledExactly Visit.call (hasMarker getRoot) (fun call => ⟨tree, call⟩)
      (1 + g + Root.scanTurns root) (.ok (Root.isSigned root)) := by
  rw [Nat.add_assoc]
  exact (paced_hasMarker_of_ok h).cancelledExactly (fun _ htoken => ⟨rfl, htoken⟩) fun _ => rfl

/-- **The scan for a marker** in a tree that comes to a root after `g` checks: there is a marker if
and only if one of the first two line comments is one, blanks at its end aside. It takes a check,
the `g` of the tree, and one for each piece of trivia that the scan sees; a token that allows as
many changes nothing, and one that allows fewer ends the scan at the first that it does not allow.
Trivia behind the piece at which the scan stops have no say in any of this. -/
theorem marker_scan (h : Paced Visit.call (Visit.At tree) getRoot g (.ok root)) :
    ∃ signed w,
      (signed = true ↔ ∃ ts ∈ Root.leading? root,
        ∃ comment ∈ (lineComments ts).take 2, trimRight comment ∈ texts) ∧
      (Root.leading? root = none → w = 0) ∧ (∀ ts ∈ Root.leading? root, Sees 2 ts w) ∧
      CancelledExactly Visit.call (hasMarker getRoot) (fun call => ⟨tree, call⟩) (1 + g + w)
        (.ok signed) ∧
      ∀ before t after more, Root.leading? root = some (before ++ t :: after) →
        Passes 2 before → StopsAt 2 before t →
        ∀ {σ : Type} (getOther : Attempt (Visit σ) (Option Root)) (other : σ) (last : Option Root),
          Paced Visit.call (Visit.At other) getOther g (.ok last) →
          Root.leading? last = some (before ++ t :: more) →
          CancelledExactly Visit.call (hasMarker getOther) (fun call => ⟨other, call⟩) (1 + g + w)
            (.ok signed) := by
  refine ⟨Root.isSigned root, Root.scanTurns root, isSigned_root_iff, fun hnone => ?_,
    fun ts hts => ?_, cancelledExactly_hasMarker h, ?_⟩
  · rw [Root.scanTurns_eq, hnone]
    rfl
  · rw [Root.scanTurns_eq, Option.mem_def.1 hts]
    exact sees_scanTurns ts
  · intro before t after more hleading hpass hstop σ getOther other last hpaced hlast
    obtain ⟨hturns, hsigned⟩ := scan_stops hpass hstop after
    obtain ⟨hturns', hsigned'⟩ := scan_stops hpass hstop more
    have hscan : Root.scanTurns root = Root.scanTurns last := by
      rw [Root.scanTurns_eq, Root.scanTurns_eq, hleading, hlast]
      exact hturns.trans hturns'.symm
    have hfound : Root.isSigned root = Root.isSigned last := by
      rw [Root.isSigned_eq, Root.isSigned_eq, hleading, hlast]
      exact hsigned.trans hsigned'.symm
    rw [hscan, hfound]
    exact cancelledExactly_hasMarker hpaced

/-- A tree of the host's with three line comments: the scan stops at the second, which is a marker.
-/
theorem marker_scan_of_three :
    let host : HostTree :=
      { trivia := [("whitespace".toList, " ".toList),
          ("single_line_comment".toList, "// one".toList),
          ("single_line_comment".toList, "// <autogenerated>\t".toList),
          ("single_line_comment".toList, "// three".toList)] }
    let tree : Tree := ⟨"a.cs".toList, .host host, none, 0⟩
    let disk : Reader := fun _ => .error (.cannotRead .notFound)
    (∃ root, Paced Visit.call (Visit.At tree) (Tree.getRoot disk) 0 (.ok root)) ∧
      CancelledExactly Visit.call (hasMarker (Tree.getRoot disk)) (fun call => ⟨tree, call⟩) 4
        (.ok true) := by
  intro host tree disk
  have hpaced := Tree.paced_getRoot disk tree
  obtain ⟨root, hroot⟩ : ∃ root, tree.answer disk = .ok root := ⟨_, rfl⟩
  rw [hroot] at hpaced
  obtain ⟨signed, w, -, -, -, hexact, -⟩ := marker_scan hpaced
  have hsigned : true = signed := Except.ok.inj hexact.unlimited.1
  have hw : 4 = 1 + 0 + w := hexact.unlimited.2
  rw [hsigned, hw]
  exact ⟨⟨root, hpaced⟩, hexact⟩

end Marker

end GeneratedCode
