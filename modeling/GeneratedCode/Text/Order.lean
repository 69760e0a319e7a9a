import GeneratedCode.Text.Range

/-!
The order of texts: character by character, by code point, and a text before those that it starts.

`precedes` is a linear order: `precedes_total`, `precedes_trans` and `precedes_antisymm`.
-/

namespace GeneratedCode

namespace Text

/-- Whether the first text is the second or comes before it. -/
def precedes : Text → Text → Bool
  | [], _ => true
  | _ :: _, [] => false
  | a :: s, b :: t => a.toNat < b.toNat || (a = b && precedes s t)

theorem precedes_total (s t : Text) : precedes s t = true ∨ precedes t s = true := by
  induction s generalizing t with
  | nil => exact .inl rfl
  | cons a s ih =>
      cases t with
      | nil => exact .inr rfl
      | cons b t =>
          rcases Nat.lt_trichotomy a.toNat b.toNat with h | h | h
          · simp [precedes, h]
          · rcases ih t with ht | ht <;> simp [precedes, Char.toNat_inj.1 h, ht]
          · simp [precedes, h]

theorem precedes_trans {s t u : Text} (hst : precedes s t = true) (htu : precedes t u = true) :
    precedes s u = true := by
  induction s generalizing t u with
  | nil => rfl
  | cons a s ih =>
      cases t with
      | nil => simp [precedes] at hst
      | cons b t =>
          cases u with
          | nil => simp [precedes] at htu
          | cons c u =>
              simp only [precedes, Bool.or_eq_true, Bool.and_eq_true, decide_eq_true_eq]
                at hst htu ⊢
              rcases hst with hab | ⟨rfl, hst⟩
              · rcases htu with hbc | ⟨rfl, _⟩
                · exact .inl (Nat.lt_trans hab hbc)
                · exact .inl hab
              · rcases htu with hbc | ⟨rfl, htu⟩
                · exact .inl hbc
                · exact .inr ⟨rfl, ih hst htu⟩

theorem precedes_antisymm {s t : Text} (hst : precedes s t = true) (hts : precedes t s = true) :
    s = t := by
  induction s generalizing t with
  | nil =>
      cases t with
      | nil => rfl
      | cons b t => simp [precedes] at hts
  | cons a s ih =>
      cases t with
      | nil => simp [precedes] at hst
      | cons b t =>
          simp only [precedes, Bool.or_eq_true, Bool.and_eq_true, decide_eq_true_eq] at hst hts
          rcases hst with hab | ⟨rfl, hst⟩
          · rcases hts with hba | ⟨rfl, _⟩ <;> omega
          · rcases hts with hba | ⟨_, hts⟩
            · omega
            · rw [ih hst hts]

end Text

end GeneratedCode
