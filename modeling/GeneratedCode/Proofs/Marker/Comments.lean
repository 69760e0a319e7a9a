import Mathlib.Tactic
import GeneratedCode.Marker
import GeneratedCode.Proofs.Call.Pace

/-!
The marker of a generator as a property of the trivia in front of a token.

`Marker.isSigned` says it without a scan: one of the first line comments is a marker.

* `costs_scan` is the induction along the trivia; what is carried is how many line comments may
  still be read.
* `scanTurns_zero`: the checks of the scan are one for each piece that it looks at (`visited`).
* `isSigned_iff`: where the marker stands among the trivia.
-/

namespace GeneratedCode

namespace Marker

/-- The line comments among some trivia. -/
def lineComments (ts : List Trivia) : List Text :=
  (ts.filter (·.kind = .singleLineComment)).map (·.text)

/-- Whether one of the first line comments is a marker. -/
def isSigned (ts : List Trivia) : Bool :=
  ((lineComments ts).take maxComments).any isMarker

lemma lineComments_cons_of_ne {t : Trivia} (h : t.kind ≠ .singleLineComment) (ts : List Trivia) :
    lineComments (t :: ts) = lineComments ts := by
  simp [lineComments, h]

lemma lineComments_cons_of_eq {t : Trivia} (h : t.kind = .singleLineComment) (ts : List Trivia) :
    lineComments (t :: ts) = t.text :: lineComments ts := by
  simp [lineComments, h]

/-- How many checks a scan makes that has read `seen` line comments: one for each piece up to the
one at which it stops. -/
def scanTurns (seen : ℕ) : List Trivia → ℕ
  | [] => 0
  | t :: rest =>
      if t.kind ≠ .singleLineComment then 1 + scanTurns seen rest
      else if isMarker t.text ∨ seen + 1 ≥ maxComments then 1
      else 1 + scanTurns (seen + 1) rest

/-- A scan that has read `seen` line comments looks for a marker in those that it may still read.
-/
lemma costs_scan {seen : ℕ} (hseen : seen < maxComments) (ts : List Trivia) :
    Costs (scan seen ts) (scanTurns seen ts)
      (.ok (((lineComments ts).take (maxComments - seen)).any isMarker)) := by
  induction ts generalizing seen with
  | nil =>
      rw [scan, show lineComments [] = [] from rfl, List.take_nil, List.any_nil]
      exact Paced.pure false
  | cons t ts ih =>
      have hleft : maxComments - seen = maxComments - (seen + 1) + 1 := by omega
      rw [scan, scanTurns]
      by_cases hkind : t.kind = .singleLineComment
      · simp only [hkind, ne_eq, not_true_eq_false, if_false]
        rw [lineComments_cons_of_eq hkind, hleft, List.take_succ_cons, List.any_cons]
        by_cases hmarker : isMarker t.text = true
        · simp only [hmarker, true_or, if_true, Bool.true_or]
          exact Costs.bind (m := 0) Paced.check (Paced.pure true)
        · rw [Bool.not_eq_true] at hmarker
          simp only [hmarker, Bool.false_eq_true, false_or, if_false, Bool.false_or]
          by_cases hlast : seen + 1 ≥ maxComments
          · rw [if_pos hlast, if_pos hlast, Nat.sub_eq_zero_of_le hlast, List.take_zero]
            exact Costs.bind (m := 0) Paced.check (Paced.pure false)
          · rw [if_neg hlast, if_neg hlast]
            exact Paced.check.bind (ih (by omega))
      · simp only [ne_eq, hkind, not_false_eq_true, if_true]
        rw [lineComments_cons_of_ne hkind]
        exact Paced.check.bind (ih hseen)

/-- **The scan of the comments** finds out whether they are signed. -/
lemma costs_scan_zero (ts : List Trivia) : Costs (scan 0 ts) (scanTurns 0 ts) (.ok (isSigned ts)) :=
  costs_scan (by decide) ts

lemma steady_scan_zero (ts : List Trivia) : Steady (scan 0 ts) (.ok (isSigned ts)) :=
  (costs_scan_zero ts).steady

/-! ### What a scan looks at -/

/-- Whether some trivia decide a scan that reads no more than `k` line comments: one of these is a
marker, or there are so many. -/
def decides (k : ℕ) (ts : List Trivia) : Bool :=
  ((lineComments ts).take k).any isMarker || k ≤ (lineComments ts).length

/-- The trivia that a scan looks at: up to the first piece behind which it is decided, or all. -/
def visited (ts : List Trivia) : List Trivia :=
  (ts.inits.find? (decides maxComments)).getD ts

lemma decides_cons_of_ne {t : Trivia} (h : t.kind ≠ .singleLineComment) (k : ℕ)
    (ts : List Trivia) : decides k (t :: ts) = decides k ts := by
  rw [decides, lineComments_cons_of_ne h, decides]

lemma decides_cons_of_eq {t : Trivia} (h : t.kind = .singleLineComment) (k : ℕ)
    (ts : List Trivia) : decides (k + 1) (t :: ts) = (isMarker t.text || decides k ts) := by
  rw [decides, lineComments_cons_of_eq h, List.take_succ_cons, List.any_cons, List.length_cons,
    decide_eq_decide.2 Nat.add_le_add_iff_right, Bool.or_assoc, decides]

/-- The first initial segment of some trivia that is wanted, if the empty one is not. -/
lemma find?_inits_cons {wanted : List Trivia → Bool} (h : wanted [] = false) (t : Trivia)
    (ts : List Trivia) :
    (t :: ts).inits.find? wanted = (ts.inits.find? fun us => wanted (t :: us)).map (t :: ·) := by
  rw [List.inits_cons, List.find?_cons_of_neg (by simp [h]), List.find?_map]
  rfl

/-- If nothing at all decides a scan already, so does the empty initial segment. -/
lemma find?_inits_of_nil {wanted : List Trivia → Bool} (h : wanted [] = true) (ts : List Trivia) :
    ts.inits.find? wanted = some [] := by
  cases ts <;> simp [h]

/-- A scan that has read `seen` line comments makes a check for each piece that it looks at. -/
lemma scanTurns_eq {seen : ℕ} (hseen : seen < maxComments) (ts : List Trivia) :
    scanTurns seen ts = ((ts.inits.find? (decides (maxComments - seen))).getD ts).length := by
  induction ts generalizing seen with
  | nil =>
      rw [scanTurns]
      cases hnil : decides (maxComments - seen) [] <;> simp [hnil]
  | cons t ts ih =>
      obtain ⟨left, hleft⟩ : ∃ left, maxComments - seen = left + 1 :=
        ⟨maxComments - seen - 1, by omega⟩
      rw [scanTurns, hleft, find?_inits_cons rfl, Option.getD_map, List.length_cons]
      by_cases hkind : t.kind = .singleLineComment
      · simp only [hkind, ne_eq, not_true_eq_false, if_false, decides_cons_of_eq hkind]
        by_cases hlast : isMarker t.text = true ∨ seen + 1 ≥ maxComments
        · have hdecided : (isMarker t.text || decides left []) = true := by
            rcases hlast with hmarker | hlast
            · rw [hmarker, Bool.true_or]
            · obtain rfl : left = 0 := by omega
              exact Bool.or_true _
          rw [if_pos hlast, find?_inits_of_nil hdecided]
          rfl
        · obtain ⟨hmarker, hmore⟩ := not_or.1 hlast
          rw [if_neg hlast, ih (by omega), show maxComments - (seen + 1) = left by omega,
            Bool.eq_false_iff.2 hmarker, Nat.add_comm]
          simp only [Bool.false_or]
      · simp only [ne_eq, hkind, not_false_eq_true, if_true, decides_cons_of_ne hkind]
        rw [ih hseen, hleft, Nat.add_comm]

/-- **What a scan looks at** is what it makes checks for. -/
lemma scanTurns_zero (ts : List Trivia) : scanTurns 0 ts = (visited ts).length :=
  scanTurns_eq (by decide) ts

/-! ### Where a marker stands -/

/-- One of the first line comments is a marker if and only if some piece is one, in front of which
fewer line comments stand. -/
lemma any_take_lineComments_iff {k : ℕ} {ts : List Trivia} :
    ((lineComments ts).take k).any isMarker = true ↔
      ∃ before comment after, ts = before ++ ⟨.singleLineComment, comment⟩ :: after ∧
        (lineComments before).length < k ∧ isMarker comment = true := by
  induction ts generalizing k with
  | nil => simp [lineComments]
  | cons t ts ih =>
      by_cases hkind : t.kind = .singleLineComment
      · rw [lineComments_cons_of_eq hkind]
        obtain ⟨kind, text⟩ := t
        obtain rfl : kind = .singleLineComment := hkind
        cases k with
        | zero => simp
        | succ k =>
            rw [List.take_succ_cons, List.any_cons, Bool.or_eq_true, ih]
            constructor
            · rintro (hmarker | ⟨before, comment, after, rfl, hcount, hmarker⟩)
              · exact ⟨[], text, ts, rfl, by simp [lineComments], hmarker⟩
              · refine ⟨⟨.singleLineComment, text⟩ :: before, comment, after, rfl, ?_, hmarker⟩
                rw [lineComments_cons_of_eq rfl, List.length_cons]
                omega
            · rintro ⟨before, comment, after, hsplit, hcount, hmarker⟩
              cases before with
              | nil =>
                  obtain ⟨hhead, -⟩ := List.cons.inj hsplit
                  exact .inl ((Trivia.mk.inj hhead).2 ▸ hmarker)
              | cons u before =>
                  obtain ⟨rfl, rfl⟩ := List.cons.inj hsplit
                  rw [lineComments_cons_of_eq rfl, List.length_cons] at hcount
                  exact .inr ⟨before, comment, after, rfl, by omega, hmarker⟩
      · rw [lineComments_cons_of_ne hkind, ih]
        constructor
        · rintro ⟨before, comment, after, rfl, hcount, hmarker⟩
          exact ⟨t :: before, comment, after, rfl, by rwa [lineComments_cons_of_ne hkind], hmarker⟩
        · rintro ⟨before, comment, after, hsplit, hcount, hmarker⟩
          cases before with
          | nil =>
              obtain ⟨rfl, -⟩ := List.cons.inj hsplit
              exact absurd rfl hkind
          | cons u before =>
              obtain ⟨rfl, rfl⟩ := List.cons.inj hsplit
              rw [lineComments_cons_of_ne hkind] at hcount
              exact ⟨before, comment, after, rfl, hcount, hmarker⟩

lemma isSigned_iff {ts : List Trivia} :
    isSigned ts = true ↔
      ∃ before comment after, ts = before ++ ⟨.singleLineComment, comment⟩ :: after ∧
        (lineComments before).length < maxComments ∧ isMarker comment = true :=
  any_take_lineComments_iff

end Marker

end GeneratedCode
