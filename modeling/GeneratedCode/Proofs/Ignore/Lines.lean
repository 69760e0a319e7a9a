import Mathlib.Data.List.DropRight
import Mathlib.Data.List.TakeWhile
import Mathlib.Tactic
import GeneratedCode.Ignore.Rules

/-!
Lines of ignore files as they are read.

Blanks at the end of a line are dropped, and what stands in front of a character that is not blank
has no say in it (`dropBlanks_append`). A line that holds a pattern is then its sign and a body
(`ofLine?_signed_eq_ok_iff`). Rules hold the patterns of their lines (`ofLines_eq_ok_iff`), those of
one line just its pattern (`ofLines_singleton`).
-/

namespace GeneratedCode

namespace Ignore

open Text

/-! ### Blanks at the end -/

/-- What is dropped from the end of a text stands behind the last character that stays. -/
lemma rdropWhile_append {p : Char → Bool} {c : Char} (hc : p c = false) (before after : Text) :
    (before ++ c :: after).rdropWhile p = before ++ c :: after.rdropWhile p := by
  have hreverse : (before ++ c :: after).reverse = after.reverse ++ c :: before.reverse := by simp
  rw [List.rdropWhile, hreverse, List.dropWhile_append]
  split
  · next hempty =>
      have hafter : after.rdropWhile p = [] := by
        rw [List.rdropWhile, List.isEmpty_iff.1 hempty]
        rfl
      rw [hafter, List.dropWhile_cons_of_neg (by simp [hc])]
      simp
  · rw [List.rdropWhile]
    simp

lemma trimRight_append {c : Char} (hc : isBlank c = false) (before after : Text) :
    trimRight (before ++ c :: after) = before ++ c :: trimRight after :=
  rdropWhile_append hc before after

/-- What is dropped are blanks. -/
lemma exists_blanks (line : Text) :
    ∃ blanks, line = trimRight line ++ blanks ∧ ∀ c ∈ blanks, isBlank c = true := by
  refine ⟨(line.reverse.takeWhile isBlank).reverse, ?_, ?_⟩
  · rw [trimRight, ← List.reverse_append, List.takeWhile_append_dropWhile, List.reverse_reverse]
  · intro c hc
    exact List.mem_takeWhile_imp (List.mem_reverse.1 hc)

lemma trimRight_eq_nil_iff {line : Text} : trimRight line = [] ↔ ∀ c ∈ line, isBlank c = true := by
  rw [trimRight, List.reverse_eq_nil_iff, List.dropWhile_eq_nil_iff]
  simp

lemma trimRight_ne_nil {c : Char} (hc : isBlank c = false) {line : Text} (h : c ∈ line) :
    trimRight line ≠ [] := by
  intro hnil
  rw [trimRight_eq_nil_iff.1 hnil c h] at hc
  contradiction

/-- Up to a character that is neither blank nor a backslash, a line is not looked at. -/
lemma dropBlanks_append {c : Char} (hc : isBlank c = false) (hescape : c ≠ '\\')
    (before after : Text) :
    dropBlanks (before ++ c :: after) = before ++ c :: dropBlanks after := by
  have hsuffix : "\\ ".toList.isSuffixOf (before ++ c :: after) =
      "\\ ".toList.isSuffixOf after := by
    have hspace : c ≠ ' ' := by
      rintro rfl
      contradiction
    rw [List.isSuffixOf, List.isSuffixOf, List.reverse_append, List.reverse_cons, List.append_assoc]
    match after.reverse with
    | [] => simp [List.isPrefixOf, hspace.symm]
    | [d] => simp [List.isPrefixOf, hescape.symm]
    | d :: e :: rest => simp [List.isPrefixOf]
  rw [dropBlanks, dropBlanks, hsuffix, trimRight_append hc]
  split <;> rfl

lemma dropBlanks_slash (before after : Text) :
    dropBlanks (before ++ '/' :: after) = before ++ '/' :: dropBlanks after :=
  dropBlanks_append rfl (by simp) before after

lemma dropBlanks_sign (body : Text) : dropBlanks ('!' :: body) = '!' :: dropBlanks body :=
  dropBlanks_append rfl (by simp) [] body

lemma dropBlanks_of_blank {line : Text} (h : trimRight line = []) : dropBlanks line = [] := by
  rw [dropBlanks, if_neg, h]
  intro hsuffix
  have hmem : '\\' ∈ line := (List.isSuffixOf_iff_suffix.1 hsuffix).subset (by simp)
  have hblank := trimRight_eq_nil_iff.1 h _ hmem
  contradiction

/-- A line is what is left of it and some blanks. -/
lemma exists_dropBlanks (line : Text) :
    ∃ blanks, line = dropBlanks line ++ blanks ∧ ∀ c ∈ blanks, isBlank c = true := by
  rw [dropBlanks]
  split
  · exact ⟨[], by simp, by simp⟩
  · exact exists_blanks line

/-! ### Patterns of lines -/

/-- A body with the sign that negates it, or without. -/
def signed (negated : Bool) (body : Text) : Text :=
  if negated then '!' :: body else body

/-- Whether a line looks like a comment, blanks in front aside. -/
def LooksLikeComment (line : Text) : Prop :=
  (trimLeft line).head? = some '#'

instance (line : Text) : Decidable (LooksLikeComment line) :=
  inferInstanceAs (Decidable (_ = _))

lemma mem_of_looksLikeComment {line : Text} (h : LooksLikeComment line) : '#' ∈ line :=
  (List.dropWhile_sublist isBlank).subset (List.mem_of_mem_head? h)

lemma ofLine?_of_nil {line : Text} (h : dropBlanks line = []) :
    Pattern.ofLine? line = .ok none := by
  rw [Pattern.ofLine?, h]

lemma ofLine?_comment (line : Text) : Pattern.ofLine? ('#' :: line) = .ok none := by
  have htext : dropBlanks ('#' :: line) = '#' :: dropBlanks line :=
    dropBlanks_append rfl (by simp) [] line
  rw [Pattern.ofLine?, htext]
  simp

/-- A line that is no comment is read as its body is. -/
lemma ofLine?_signed {negated : Bool} {body : Text}
    (h : negated = false → ∃ c rest, dropBlanks body = c :: rest ∧ c ≠ '#' ∧ c ≠ '!') :
    Pattern.ofLine? (signed negated body) =
      match Shape.ofBody? (dropBlanks body) with
      | none => .error (.invalidPattern (signed negated body))
      | some shape =>
          if shape.isReversed then .error .reversedRange else .ok (some ⟨negated, shape⟩) := by
  cases negated with
  | true =>
      have htext : dropBlanks (signed true body) = '!' :: dropBlanks body := dropBlanks_sign body
      rw [Pattern.ofLine?, htext]
      cases hshape : Shape.ofBody? (dropBlanks body) <;> simp [hshape]
  | false =>
      obtain ⟨c, rest, hbody, hcomment, hsign⟩ := h rfl
      have htext : dropBlanks (signed false body) = c :: rest := hbody
      rw [Pattern.ofLine?, htext, hbody]
      cases hshape : Shape.ofBody? (c :: rest) <;> simp [hshape, hsign]

/-- A line that is no comment is read if its body is, and holds what that says. -/
lemma ofLine?_signed_eq_ok_iff {negated : Bool} {body : Text} {pattern? : Option Pattern}
    (h : negated = false → ∃ c rest, dropBlanks body = c :: rest ∧ c ≠ '#' ∧ c ≠ '!') :
    Pattern.ofLine? (signed negated body) = .ok pattern? ↔
      ∃ shape, Shape.ofBody? (dropBlanks body) = some shape ∧ shape.isReversed = false ∧
        pattern? = some ⟨negated, shape⟩ := by
  rw [ofLine?_signed h]
  cases hshape : Shape.ofBody? (dropBlanks body) with
  | none => simp
  | some shape =>
      simp only [Option.some.injEq, exists_eq_left']
      cases hreversed : shape.isReversed with
      | true => simp
      | false =>
          rw [if_neg (by simp)]
          exact ⟨fun h => ⟨rfl, (Except.ok.inj h).symm⟩, fun h => by rw [h.2]⟩

/-! ### Rules of lines -/

lemma bind_eq_ok_iff {ε α β : Type} {x : Except ε α} {f : α → Except ε β} {b : β} :
    (x >>= f) = .ok b ↔ ∃ a, x = .ok a ∧ f a = .ok b := by
  cases x <;> simp [bind, Except.bind]

lemma ofLines_eq_ok_iff {lines : List Text} {rules : Rules} :
    Rules.ofLines lines = .ok rules ↔
      rules.lines = lines.filter (!·.isEmpty) ∧
        Rules.readPatterns rules.lines = .ok rules.patterns := by
  obtain ⟨kept, patterns⟩ := rules
  rw [Rules.ofLines, bind_eq_ok_iff]
  constructor
  · rintro ⟨read, hread, hrules⟩
    obtain ⟨rfl, rfl⟩ := Rules.mk.inj (Except.ok.inj hrules)
    exact ⟨rfl, hread⟩
  · rintro ⟨rfl, hread⟩
    exact ⟨patterns, hread, rfl⟩

/-! ### Rules of one line -/

lemma ofLines_singleton (line : Text) :
    Rules.ofLines [line] =
      (Pattern.ofLine? line).map fun pattern? =>
        ⟨[line].filter (!·.isEmpty), pattern?.toList⟩ := by
  cases line with
  | nil => rfl
  | cons c line =>
      rw [Rules.ofLines, List.filter_cons_of_pos (by simp), List.filter_nil]
      simp only [Rules.readPatterns]
      cases Pattern.ofLine? (c :: line) with
      | error failure => rfl
      | ok pattern? => simp [bind, Except.bind, pure, Except.pure, Except.map]

/-- What a pattern decides about a path, if there is one and it matches. -/
def decision (pattern? : Option Pattern) (path : Text) : Option Verdict :=
  pattern?.bind fun pattern =>
    if pattern.shape.matches path then some pattern.verdict else none

lemma decision_eq_iff {negated : Bool} {shape other : Shape} {path x : Text} :
    decision (some ⟨negated, shape⟩) path = decision (some ⟨negated, other⟩) x ↔
      shape.matches path = other.matches x := by
  rw [decision, decision, Option.bind_some, Option.bind_some]
  cases shape.matches path <;> cases other.matches x <;> simp [Pattern.verdict]

lemma decision_of_matches {pattern : Pattern} {path : Text}
    (h : pattern.shape.matches path = true) :
    decision (some pattern) path = some pattern.verdict := by
  rw [decision, Option.bind_some, if_pos h]

/-- The rules of one line decide what its pattern does. -/
lemma verdict?_of_ofLines {line : Text} {pattern? : Option Pattern} {rules : Rules}
    (hpattern : Pattern.ofLine? line = .ok pattern?) (h : Rules.ofLines [line] = .ok rules)
    (path : Text) : rules.verdict? path = decision pattern? (relative path) := by
  rw [ofLines_singleton, hpattern] at h
  obtain rfl := Except.ok.inj h
  cases pattern? with
  | none => rfl
  | some pattern =>
      rw [Rules.verdict?, decision]
      simp only [Option.toList_some, List.reverse_singleton, List.find?_singleton, Option.bind_some]
      split <;> rfl

lemma exists_rules {lines : List Text} (h : (Rules.ofLines lines).toOption.isSome = true) :
    ∃ rules, Rules.ofLines lines = .ok rules := by
  cases hrules : Rules.ofLines lines with
  | error failure =>
      rw [hrules] at h
      contradiction
  | ok rules => exact ⟨rules, rfl⟩

lemma exists_rules_of_verdict? {lines : List Text} {path : Text} {verdict : Verdict}
    (h : (Rules.ofLines lines).toOption.map (·.verdict? path) = some (some verdict)) :
    ∃ rules, Rules.ofLines lines = .ok rules ∧ rules.verdict? path = some verdict := by
  obtain ⟨rules, hrules⟩ := exists_rules (by rw [← Option.isSome_map, h]; rfl)
  rw [hrules] at h
  exact ⟨rules, hrules, Option.some.inj h⟩

/-- A line whose rules are read has a pattern that was read, or none. -/
lemma exists_ofLine?_of_ofLines {line : Text} {rules : Rules}
    (h : Rules.ofLines [line] = .ok rules) : ∃ pattern?, Pattern.ofLine? line = .ok pattern? := by
  rw [ofLines_singleton] at h
  cases hpattern : Pattern.ofLine? line with
  | error failure =>
      rw [hpattern] at h
      contradiction
  | ok pattern? => exact ⟨pattern?, rfl⟩

end Ignore

end GeneratedCode
