import GeneratedCode.Text.Range

/-!
Texts with some of their places marked.

A place of a text lies in front of a character or at the end. What follows the marked places is the
view of a marked text (`Marked.rests`). All marks are moved at once, in one pass through the text:
over one character of a class (`Marked.one`), or over any run of such characters (`Marked.run`).

* `mem_rests_one`, `mem_rests_run` and `mem_rests_union` say what follows the marks afterwards.
* `isMarked_iff` and `reachesEnd_iff` say which marks two tests look for.
-/

namespace GeneratedCode

namespace Text

/-- A text of whose places some are marked. -/
inductive Marked where
  | atEnd (mark : Bool)
  | before (mark : Bool) (c : Char) (rest : Marked)
  deriving DecidableEq, Repr

namespace Marked

/-- The text without its marks. -/
def text : Marked → Text
  | atEnd _ => []
  | before _ c rest => c :: rest.text

/-- What follows each marked place. -/
def rests : Marked → List Text
  | atEnd mark => if mark then [[]] else []
  | before mark c rest => if mark then (c :: rest.text) :: rest.rests else rest.rests

/-- A text without marks. -/
def unmarked : Text → Marked
  | [] => atEnd false
  | c :: s => before false c (unmarked s)

/-- A text with a mark at its start. -/
def ofText : Text → Marked
  | [] => atEnd true
  | c :: s => before true c (unmarked s)

/-- Moves each mark over one character of `p`; `arrives` says that a mark comes to the first place.
A mark that cannot be moved is lost. -/
def oneFrom (p : Char → Bool) (arrives : Bool) : Marked → Marked
  | atEnd _ => atEnd arrives
  | before mark c rest => before arrives c (rest.oneFrom p (mark && p c))

/-- Moves each mark over one character of `p`. -/
def one (p : Char → Bool) (t : Marked) : Marked :=
  t.oneFrom p false

/-- Marks the places that lie behind a mark and characters of `p`; `arrives` says that there is
such a mark in front of the text. -/
def runFrom (p : Char → Bool) (arrives : Bool) : Marked → Marked
  | atEnd mark => atEnd (mark || arrives)
  | before mark c rest =>
      before (mark || arrives) c (rest.runFrom p ((mark || arrives) && p c))

/-- Moves each mark over any number of characters of `p`, none included. -/
def run (p : Char → Bool) (t : Marked) : Marked :=
  t.runFrom p false

/-- The marks of two texts that differ in nothing else. -/
def union : Marked → Marked → Marked
  | before a c t, before b _ u => before (a || b) c (t.union u)
  | atEnd a, atEnd b => atEnd (a || b)
  | t, _ => t

/-- Whether there is a mark. -/
def isMarked : Marked → Bool
  | atEnd mark => mark
  | before mark _ rest => mark || rest.isMarked

/-- Whether the end is marked, or the place in front of a line feed that ends the text. -/
def reachesEnd : Marked → Bool
  | atEnd mark => mark
  | before mark c (atEnd last) => (mark && c = '\n') || last
  | before _ _ rest => rest.reachesEnd

/-! ### The text stays -/

@[simp] theorem text_unmarked (s : Text) : (unmarked s).text = s := by
  induction s with
  | nil => rfl
  | cons c s ih => rw [unmarked, text, ih]

@[simp] theorem text_ofText (s : Text) : (ofText s).text = s := by
  cases s with
  | nil => rfl
  | cons c s => rw [ofText, text, text_unmarked]

@[simp] theorem text_oneFrom (p : Char → Bool) (arrives : Bool) (t : Marked) :
    (t.oneFrom p arrives).text = t.text := by
  induction t generalizing arrives with
  | atEnd mark => rfl
  | before mark c rest ih => rw [oneFrom, text, ih, text]

@[simp] theorem text_one (p : Char → Bool) (t : Marked) : (t.one p).text = t.text :=
  text_oneFrom p false t

@[simp] theorem text_runFrom (p : Char → Bool) (arrives : Bool) (t : Marked) :
    (t.runFrom p arrives).text = t.text := by
  induction t generalizing arrives with
  | atEnd mark => rfl
  | before mark c rest ih => rw [runFrom, text, ih, text]

@[simp] theorem text_run (p : Char → Bool) (t : Marked) : (t.run p).text = t.text :=
  text_runFrom p false t

@[simp] theorem text_union (t u : Marked) : (t.union u).text = t.text := by
  fun_induction union t u with
  | case1 a c t b d u ih => rw [text, ih, text]
  | case2 a b => rfl
  | case3 t u => rfl

/-! ### What follows the marks -/

theorem mem_rests_before {mark : Bool} {c : Char} {t : Marked} {r : Text} :
    r ∈ (before mark c t).rests ↔ (mark = true ∧ r = c :: t.text) ∨ r ∈ t.rests := by
  rw [rests]
  cases mark <;> simp

theorem mem_rests_atEnd {mark : Bool} {r : Text} :
    r ∈ (atEnd mark).rests ↔ mark = true ∧ r = [] := by
  rw [rests]
  cases mark <;> simp

@[simp] theorem rests_unmarked (s : Text) : (unmarked s).rests = [] := by
  induction s with
  | nil => rfl
  | cons c s ih => rw [unmarked, rests, ih]; rfl

@[simp] theorem rests_ofText (s : Text) : (ofText s).rests = [s] := by
  cases s with
  | nil => rfl
  | cons c s => rw [ofText, rests, rests_unmarked, text_unmarked]; rfl

theorem mem_rests_oneFrom {p : Char → Bool} {arrives : Bool} {t : Marked} {r : Text} :
    r ∈ (t.oneFrom p arrives).rests ↔
      (arrives = true ∧ r = t.text) ∨ ∃ c, p c = true ∧ c :: r ∈ t.rests := by
  induction t generalizing arrives with
  | atEnd mark => simp [oneFrom, mem_rests_atEnd, text]
  | before mark d rest ih =>
      simp only [oneFrom, mem_rests_before, text_oneFrom, ih, text]
      constructor
      · rintro (h | ⟨hmark, rfl⟩ | ⟨c, hc, hr⟩)
        · exact .inl h
        · exact .inr ⟨d, by simp_all, .inl ⟨by simp_all, rfl⟩⟩
        · exact .inr ⟨c, hc, .inr hr⟩
      · rintro (h | ⟨c, hc, ⟨hmark, hr⟩ | hr⟩)
        · exact .inl h
        · obtain ⟨rfl, rfl⟩ := List.cons.inj hr
          exact .inr (.inl ⟨by simp [hmark, hc], rfl⟩)
        · exact .inr (.inr ⟨c, hc, hr⟩)

/-- Behind a mark that was moved over one character stands what stood behind that character. -/
theorem mem_rests_one {p : Char → Bool} {t : Marked} {r : Text} :
    r ∈ (t.one p).rests ↔ ∃ c, p c = true ∧ c :: r ∈ t.rests := by
  rw [one, mem_rests_oneFrom]
  simp

theorem mem_rests_runFrom {p : Char → Bool} {arrives : Bool} {t : Marked} {r : Text} :
    r ∈ (t.runFrom p arrives).rests ↔
      (arrives = true ∧ ∃ m, (∀ c ∈ m, p c = true) ∧ t.text = m ++ r) ∨
        ∃ m, (∀ c ∈ m, p c = true) ∧ m ++ r ∈ t.rests := by
  induction t generalizing arrives with
  | atEnd mark =>
      simp only [runFrom, mem_rests_atEnd, text, Bool.or_eq_true]
      constructor
      · rintro ⟨h | h, rfl⟩
        · exact .inr ⟨[], by simp, h, rfl⟩
        · exact .inl ⟨h, [], by simp, rfl⟩
      · rintro (⟨h, m, _, hm⟩ | ⟨m, _, h, hm⟩)
        · exact ⟨.inr h, (List.append_eq_nil_iff.1 hm.symm).2⟩
        · exact ⟨.inl h, (List.append_eq_nil_iff.1 hm).2⟩
  | before mark d rest ih =>
      simp only [runFrom, mem_rests_before, text_runFrom, ih, text, Bool.or_eq_true,
        Bool.and_eq_true]
      constructor
      · rintro (⟨h | h, rfl⟩ | ⟨⟨h | h, hd⟩, m, hm, hr⟩ | ⟨m, hm, hr⟩)
        · exact .inr ⟨[], by simp, .inl ⟨h, rfl⟩⟩
        · exact .inl ⟨h, [], by simp, rfl⟩
        · exact .inr ⟨d :: m, by simp_all, .inl ⟨h, by simp [hr]⟩⟩
        · exact .inl ⟨h, d :: m, by simp_all, by simp [hr]⟩
        · exact .inr ⟨m, hm, .inr hr⟩
      · rintro (⟨h, m, hm, hr⟩ | ⟨m, hm, ⟨h, hr⟩ | hr⟩)
        · cases m with
          | nil => exact .inl ⟨.inr h, hr.symm⟩
          | cons c m =>
              obtain ⟨rfl, htail⟩ := List.cons.inj hr
              exact .inr (.inl ⟨⟨.inr h, hm d (by simp)⟩, m, fun c hc => hm c (by simp [hc]),
                htail⟩)
        · cases m with
          | nil => exact .inl ⟨.inl h, hr⟩
          | cons c m =>
              obtain ⟨rfl, htail⟩ := List.cons.inj hr
              exact .inr (.inl ⟨⟨.inl h, hm c (by simp)⟩, m, fun d hd => hm d (by simp [hd]),
                htail.symm⟩)
        · exact .inr (.inr ⟨m, hm, hr⟩)

/-- Behind a mark that was moved over a run stands what stood behind those characters. -/
theorem mem_rests_run {p : Char → Bool} {t : Marked} {r : Text} :
    r ∈ (t.run p).rests ↔ ∃ m, (∀ c ∈ m, p c = true) ∧ m ++ r ∈ t.rests := by
  rw [run, mem_rests_runFrom]
  simp

theorem mem_rests_union {t u : Marked} (h : t.text = u.text) {r : Text} :
    r ∈ (t.union u).rests ↔ r ∈ t.rests ∨ r ∈ u.rests := by
  induction t generalizing u with
  | atEnd a =>
      cases u with
      | atEnd b => cases a <;> cases b <;> simp [union, rests]
      | before b d u => simp [text] at h
  | before a c t ih =>
      cases u with
      | atEnd b => simp [text] at h
      | before b d u =>
          obtain ⟨rfl, htail⟩ := List.cons.inj h
          rw [union, mem_rests_before, mem_rests_before, mem_rests_before, text_union, ih htail,
            htail]
          cases a <;> cases b <;> simp [or_assoc, or_left_comm]

theorem isMarked_iff {t : Marked} : t.isMarked = true ↔ t.rests ≠ [] := by
  induction t with
  | atEnd mark => cases mark <;> simp [isMarked, rests]
  | before mark c rest ih => cases mark <;> simp [isMarked, rests, ih]

theorem reachesEnd_iff {t : Marked} :
    t.reachesEnd = true ↔ [] ∈ t.rests ∨ ['\n'] ∈ t.rests := by
  fun_induction reachesEnd t with
  | case1 mark => simp [mem_rests_atEnd]
  | case2 mark c last =>
      simp only [mem_rests_before, mem_rests_atEnd, text, Bool.or_eq_true, Bool.and_eq_true,
        decide_eq_true_eq]
      constructor
      · rintro (⟨h, rfl⟩ | h)
        · simp [h]
        · simp [h]
      · rintro ((⟨_, h⟩ | ⟨h, _⟩) | (⟨h, hc⟩ | ⟨_, h⟩))
        · simp at h
        · exact .inr h
        · exact .inl ⟨h, by simpa [eq_comm] using hc⟩
        · simp at h
  | case3 mark c rest hne ih =>
      have htext : rest.text ≠ [] := by
        cases rest with
        | atEnd last => exact absurd rfl (hne last)
        | before => simp [text]
      rw [ih, mem_rests_before, mem_rests_before]
      constructor
      · rintro (h | h)
        · exact .inl (.inr h)
        · exact .inr (.inr h)
      · rintro ((⟨_, h⟩ | h) | (⟨_, h⟩ | h))
        · simp at h
        · exact .inl h
        · exact absurd (List.cons.inj h).2.symm htext
        · exact .inr h

end Marked

end Text

end GeneratedCode
