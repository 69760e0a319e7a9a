import Mathlib.Data.Nat.Digits.Defs
import Mathlib.Tactic
import GeneratedCode.Text.Digit

/-!
How whole numbers are written.

`Numeral` is the grammar of a number without a sign: decimal digits, of any script, with single low
lines between them. `SpellsInt` adds the sign and the bound on the digits. `int?_eq_some_iff` is the
main result: a text is read as a number if it spells it, blanks around it aside, and as nothing if
it spells none. What the reading carries along is whether a digit stands right in front, so
`digits?_eq_some_iff` says what may follow one (`FollowsDigit`).
-/

namespace GeneratedCode

namespace Text

/-- How a number without a sign is written, with the values of its digits: digits, and between any
two of them a low line or nothing. -/
inductive Numeral : Text → List ℕ → Prop where
  | one {c : Char} {d : ℕ} (hc : digitValue? c = some d) : Numeral [c] [d]
  | digit {c : Char} {d : ℕ} {s : Text} {ds : List ℕ} (hc : digitValue? c = some d)
      (hs : Numeral s ds) : Numeral (c :: s) (d :: ds)
  | lowLine {c : Char} {d : ℕ} {s : Text} {ds : List ℕ} (hc : digitValue? c = some d)
      (hs : Numeral s ds) : Numeral (c :: '_' :: s) (d :: ds)

/-- Whether a text spells a number without a sign, with no more digits than there may be. -/
def SpellsNat (s : Text) (n : ℕ) : Prop :=
  ∃ ds, Numeral s ds ∧ ds.length ≤ maxDigits ∧ n = Nat.ofDigits 10 ds.reverse

/-- Whether a text spells a number, with a sign in front or none. -/
def SpellsInt (s : Text) (k : ℤ) : Prop :=
  ∃ digits n, SpellsNat digits n ∧
    ((s = digits ∨ s = '+' :: digits) ∧ k = n ∨ s = '-' :: digits ∧ k = -n)

/-- What may stand behind a digit of a number: nothing, or more digits, perhaps behind a low line.
-/
def FollowsDigit (s : Text) (ds : List ℕ) : Prop :=
  (s = [] ∧ ds = []) ∨ Numeral s ds ∨ ∃ rest, s = '_' :: rest ∧ Numeral rest ds

section

variable {c : Char} {s rest : Text} {ds done values : List ℕ}

/-! ### The grammar -/

lemma not_numeral_nil : ¬ Numeral [] ds := by
  rintro ⟨⟩

lemma numeral_cons_iff :
    Numeral (c :: rest) ds ↔
      ∃ d tail, digitValue? c = some d ∧ FollowsDigit rest tail ∧ ds = d :: tail := by
  constructor
  · rintro (hc | ⟨hc, hs⟩ | ⟨hc, hs⟩)
    · exact ⟨_, _, hc, .inl ⟨rfl, rfl⟩, rfl⟩
    · exact ⟨_, _, hc, .inr (.inl hs), rfl⟩
    · exact ⟨_, _, hc, .inr (.inr ⟨_, rfl, hs⟩), rfl⟩
  · rintro ⟨d, tail, hc, ⟨rfl, rfl⟩ | hs | ⟨rest, rfl, hs⟩, rfl⟩
    · exact .one hc
    · exact .digit hc hs
    · exact .lowLine hc hs

lemma followsDigit_nil_iff : FollowsDigit [] ds ↔ ds = [] := by
  simp [FollowsDigit, not_numeral_nil]

lemma followsDigit_cons_iff :
    FollowsDigit (c :: rest) ds ↔ Numeral (c :: rest) ds ∨ c = '_' ∧ Numeral rest ds := by
  simp [FollowsDigit]

/-- Neither a low line nor a sign is a digit. -/
lemma digitValue?_eq_none_of_mem (h : c ∈ ['_', '-', '+']) : digitValue? c = none := by
  simp only [List.mem_cons, List.not_mem_nil, or_false] at h
  rcases h with rfl | rfl | rfl <;> decide

lemma not_numeral_of_mem (h : c ∈ ['_', '-', '+']) : ¬ Numeral (c :: rest) ds := by
  rw [numeral_cons_iff, digitValue?_eq_none_of_mem h]
  rintro ⟨d, tail, hc, -⟩
  contradiction

/-! ### Reading -/

/-- Digits are read from a numeral, or from what follows a digit if one was read before. -/
lemma digits?_eq_some_iff {afterDigit : Bool} :
    digits? done afterDigit s = some values ↔
      ∃ ds, (if afterDigit then FollowsDigit s ds else Numeral s ds) ∧
        values = done.reverse ++ ds := by
  induction s generalizing done afterDigit with
  | nil =>
      rw [digits?]
      cases afterDigit <;> simp [not_numeral_nil, followsDigit_nil_iff, eq_comm]
  | cons c rest ih =>
      rw [digits?]
      cases hc : digitValue? c with
      | some d =>
          have hne : c ≠ '_' := by
            rintro rfl
            rw [digitValue?_eq_none_of_mem (by simp)] at hc
            contradiction
          have hwhole (ds : List ℕ) :
              (if afterDigit then FollowsDigit (c :: rest) ds else Numeral (c :: rest) ds) ↔
                ∃ tail, FollowsDigit rest tail ∧ ds = d :: tail := by
            cases afterDigit <;> simp [followsDigit_cons_iff, numeral_cons_iff, hc, hne]
          simp only [hwhole, ih, if_true, List.reverse_cons, List.append_assoc,
            List.singleton_append]
          constructor
          · rintro ⟨tail, htail, rfl⟩
            exact ⟨_, ⟨tail, htail, rfl⟩, rfl⟩
          · rintro ⟨_, ⟨tail, htail, rfl⟩, rfl⟩
            exact ⟨tail, htail, rfl⟩
      | none =>
          have hnot (ds : List ℕ) : ¬ Numeral (c :: rest) ds := by
            simp [numeral_cons_iff, hc]
          by_cases hline : c = '_'
          · subst hline
            cases afterDigit <;> simp [followsDigit_cons_iff, hnot, ih]
          · simp [followsDigit_cons_iff, hnot, hline]

lemma foldl_digits (ds : List ℕ) :
    ds.foldl (fun value d => 10 * value + d) 0 = Nat.ofDigits 10 ds.reverse := by
  rw [Nat.ofDigits_eq_foldr, List.foldr_reverse]
  simp only [Nat.cast_id, Nat.add_comm]

lemma nat?_eq_some_iff {n : ℕ} : nat? s = some n ↔ SpellsNat s n := by
  simp only [nat?, Option.bind_eq_some_iff, digits?_eq_some_iff, Bool.false_eq_true, if_false,
    List.reverse_nil, List.nil_append, exists_eq_right', ofDigits?, foldl_digits]
  refine exists_congr fun ds => and_congr_right fun _ => ?_
  split
  · next hfew => simp [hfew, eq_comm]
  · next hmany => simp [hmany]

/-- No number without a sign starts with one. -/
lemma not_spellsNat_sign {n : ℕ} (h : c = '-' ∨ c = '+') : ¬ SpellsNat (c :: rest) n := by
  rintro ⟨ds, hdigits, -⟩
  exact not_numeral_of_mem (by rcases h with rfl | rfl <;> simp) hdigits

lemma spellsInt_minus_iff {k : ℤ} :
    SpellsInt ('-' :: rest) k ↔ ∃ n : ℕ, SpellsNat rest n ∧ -(n : ℤ) = k := by
  constructor
  · rintro ⟨digits, n, hn, ⟨rfl | heq, rfl⟩ | ⟨heq, rfl⟩⟩
    · exact absurd hn (not_spellsNat_sign (.inl rfl))
    · simp at heq
    · rw [(List.cons.inj heq).2]
      exact ⟨n, hn, rfl⟩
  · rintro ⟨n, hn, rfl⟩
    exact ⟨rest, n, hn, .inr ⟨rfl, rfl⟩⟩

lemma spellsInt_plus_iff {k : ℤ} :
    SpellsInt ('+' :: rest) k ↔ ∃ n : ℕ, SpellsNat rest n ∧ (n : ℤ) = k := by
  constructor
  · rintro ⟨digits, n, hn, ⟨rfl | heq, rfl⟩ | ⟨heq, rfl⟩⟩
    · exact absurd hn (not_spellsNat_sign (.inr rfl))
    · rw [(List.cons.inj heq).2]
      exact ⟨n, hn, rfl⟩
    · simp at heq
  · rintro ⟨n, hn, rfl⟩
    exact ⟨rest, n, hn, .inl ⟨.inr rfl, rfl⟩⟩

/-- Without a sign, a number is spelled by its digits. -/
lemma spellsInt_iff_of_ne {k : ℤ} (hminus : ∀ digits, s ≠ '-' :: digits)
    (hplus : ∀ digits, s ≠ '+' :: digits) :
    SpellsInt s k ↔ ∃ n : ℕ, SpellsNat s n ∧ (n : ℤ) = k := by
  constructor
  · rintro ⟨digits, n, hn, ⟨rfl | heq, rfl⟩ | ⟨heq, rfl⟩⟩
    · exact ⟨n, hn, rfl⟩
    · exact absurd heq (hplus digits)
    · exact absurd heq (hminus digits)
  · rintro ⟨n, hn, rfl⟩
    exact ⟨s, n, hn, .inl ⟨.inl rfl, rfl⟩⟩

/-- **A whole number is read** where one is spelled, blanks around it aside, and nowhere else. -/
lemma int?_eq_some_iff {k : ℤ} : int? s = some k ↔ SpellsInt (trim s) k := by
  rw [int?]
  split
  · next digits h =>
      rw [h, spellsInt_minus_iff, Option.map_eq_some_iff]
      simp only [bind, pure, Option.bind_eq_some_iff, nat?_eq_some_iff, Option.some.injEq,
        exists_exists_and_eq_and]
  · next digits h =>
      rw [h, spellsInt_plus_iff, Option.map_eq_some_iff]
      simp only [nat?_eq_some_iff, Int.ofNat_eq_natCast]
  · next hminus hplus =>
      rw [spellsInt_iff_of_ne hminus hplus, Option.map_eq_some_iff]
      simp only [nat?_eq_some_iff, Int.ofNat_eq_natCast]

end

end Text

end GeneratedCode
