import Mathlib.Tactic
import GeneratedCode.Ignore.Pattern

/-!
Rows of segments, and what they look at.

Matching a row looks only at what follows the marks (`matchRow_congr`), and more marks only match
more (`matchRow_mono`). A name of a path is passed by a segment that spells it
(`mem_rests_pass_iff`).

* `matchPath_deep_of_tied`: a row that may match in any directory matches what it would if it were
  tied to its place.
* `matchRow_eq_false`, `matchRow_of_double`: a name between two slashes matches nothing.
* `matchPath_past_name`: a row of one name in any directory looks past names that do not start as
  it does.
-/

namespace GeneratedCode

namespace Text

namespace Marked

/-- What follows a mark of the first text follows one of the second. -/
def Within (t u : Marked) : Prop :=
  ∀ r, r ∈ t.rests → r ∈ u.rests

/-- Two texts whose marks are followed by the same. -/
def Alike (t u : Marked) : Prop :=
  ∀ r, r ∈ t.rests ↔ r ∈ u.rests

variable {t u : Marked}

lemma Within.one (h : t.Within u) (p : Char → Bool) : (t.one p).Within (u.one p) := by
  intro r hr
  obtain ⟨c, hc, hrest⟩ := mem_rests_one.1 hr
  exact mem_rests_one.2 ⟨c, hc, h _ hrest⟩

lemma Within.run (h : t.Within u) (p : Char → Bool) : (t.run p).Within (u.run p) := by
  intro r hr
  obtain ⟨m, hm, hrest⟩ := mem_rests_run.1 hr
  exact mem_rests_run.2 ⟨m, hm, h _ hrest⟩

lemma isMarked_iff_exists : t.isMarked = true ↔ ∃ r, r ∈ t.rests := by
  rw [isMarked_iff]
  exact ⟨fun h => List.exists_mem_of_ne_nil _ h, fun ⟨r, h⟩ => List.ne_nil_of_mem h⟩

lemma Within.isMarked (h : t.Within u) (ht : t.isMarked = true) : u.isMarked = true := by
  obtain ⟨r, hr⟩ := isMarked_iff_exists.1 ht
  exact isMarked_iff_exists.2 ⟨r, h r hr⟩

lemma Within.reachesEnd (h : t.Within u) (ht : t.reachesEnd = true) : u.reachesEnd = true :=
  reachesEnd_iff.2 ((reachesEnd_iff.1 ht).imp (h _) (h _))

lemma Alike.within (h : t.Alike u) : t.Within u :=
  fun r => (h r).1

lemma Alike.symm (h : t.Alike u) : u.Alike t :=
  fun r => (h r).symm

lemma Alike.one (h : t.Alike u) (p : Char → Bool) : (t.one p).Alike (u.one p) :=
  fun r => ⟨h.within.one p r, h.symm.within.one p r⟩

lemma Alike.isMarked (h : t.Alike u) : t.isMarked = u.isMarked :=
  Bool.eq_iff_iff.2 ⟨h.within.isMarked, h.symm.within.isMarked⟩

/-- What follows a mark is the end of the text. -/
lemma suffix_of_mem_rests {r : Text} (h : r ∈ t.rests) : r <:+ t.text := by
  induction t with
  | atEnd mark =>
      obtain ⟨-, rfl⟩ := mem_rests_atEnd.1 h
      exact List.suffix_rfl
  | before mark c rest ih =>
      rcases mem_rests_before.1 h with ⟨-, rfl⟩ | hrest
      · exact List.suffix_rfl
      · exact (ih hrest).trans (List.suffix_cons c rest.text)

end Marked

end Text

namespace Ignore

open Text Marked

/-! ### What the steps of matching look at -/

variable {t u : Marked} {r x : Text}

lemma mem_rests_behindDeeper :
    r ∈ (behindDeeper t).rests ↔
      r ∈ t.rests ∨ ∃ c m, c ≠ '\n' ∧ (∀ d ∈ m, d ≠ '\n') ∧ '/' :: c :: (m ++ r) ∈ t.rests := by
  rw [behindDeeper, mem_rests_union (by simp), mem_rests_run]
  simp only [mem_rests_one, decide_eq_true_eq]
  constructor
  · rintro (h | ⟨m, hm, c, hc, d, rfl, h⟩)
    · exact .inl h
    · exact .inr ⟨c, m, hc, hm, h⟩
  · rintro (h | ⟨c, m, hc, hm, h⟩)
    · exact .inl h
    · exact .inr ⟨m, hm, c, hc, '/', rfl, h⟩

lemma mem_rests_behindDirectories :
    r ∈ (behindDirectories t).rests ↔
      r ∈ t.rests ∨ ∃ c m, c ≠ '\n' ∧ (∀ d ∈ m, d ≠ '\n') ∧ c :: (m ++ '/' :: r) ∈ t.rests := by
  rw [behindDirectories, mem_rests_union (by simp), mem_rests_one]
  simp only [mem_rests_run, mem_rests_one, decide_eq_true_eq]
  constructor
  · rintro (h | ⟨d, rfl, m, hm, c, hc, h⟩)
    · exact .inl h
    · exact .inr ⟨c, m, hc, hm, h⟩
  · rintro (h | ⟨c, m, hc, hm, h⟩)
    · exact .inl h
    · exact .inr ⟨'/', rfl, m, hm, c, hc, h⟩

/-- A text that a segment spells as a name. -/
def Segment.Spells : Segment → Text → Prop
  | deep, m => m = []
  | anyName, m => m ≠ [] ∧ '/' ∉ m
  | glob g, m => g.Spells m

/-- Behind a segment stands what stood behind a name that it spells. -/
lemma mem_rests_pass_iff {segment : Segment} :
    r ∈ (segment.pass t).rests ↔ ∃ m, segment.Spells m ∧ m ++ r ∈ t.rests := by
  cases segment with
  | deep =>
      constructor
      · intro h
        exact ⟨[], rfl, h⟩
      · rintro ⟨m, rfl, h⟩
        exact h
  | anyName =>
      simp only [Segment.pass, mem_rests_run, mem_rests_one, decide_eq_true_eq]
      constructor
      · rintro ⟨m, hm, c, hc, h⟩
        refine ⟨c :: m, ⟨by simp, fun hmem => ?_⟩, h⟩
        rcases List.mem_cons.1 hmem with heq | hmem
        · exact hc heq.symm
        · exact hm _ hmem rfl
      · rintro ⟨m, ⟨hne, hslash⟩, h⟩
        obtain ⟨c, m, rfl⟩ := List.exists_cons_of_ne_nil hne
        have hall : ∀ d ∈ c :: m, d ≠ '/' := fun d hd heq => hslash (heq ▸ hd)
        exact ⟨m, fun d hd => hall d (by simp [hd]), c, hall c (by simp), h⟩
  | glob g => exact Glob.mem_rests_pass_iff

lemma pass_within (h : t.Within u) (segment : Segment) :
    (segment.pass t).Within (segment.pass u) := by
  intro r hr
  obtain ⟨m, hm, hrest⟩ := mem_rests_pass_iff.1 hr
  exact mem_rests_pass_iff.2 ⟨m, hm, h _ hrest⟩

lemma behindDeeper_within (h : t.Within u) : (behindDeeper t).Within (behindDeeper u) := by
  intro r hr
  rcases mem_rests_behindDeeper.1 hr with hr | ⟨c, m, hc, hm, hr⟩
  · exact mem_rests_behindDeeper.2 (.inl (h _ hr))
  · exact mem_rests_behindDeeper.2 (.inr ⟨c, m, hc, hm, h _ hr⟩)

lemma closes_mono (h : t.Within u) {segment : Segment} (ht : segment.closes t = true) :
    segment.closes u = true := by
  cases segment with
  | deep => rfl
  | anyName =>
      rw [Segment.closes, Bool.or_eq_true] at ht ⊢
      exact ht.imp h.reachesEnd (h.one _).reachesEnd
  | glob g =>
      rw [Segment.closes, Bool.or_eq_true] at ht ⊢
      exact ht.imp (h.one _).isMarked h.reachesEnd

/-- With more marks, no row stops matching. -/
lemma matchRow_mono (h : t.Within u) {slash : Bool} {row : List Segment}
    (ht : matchRow slash row t = true) : matchRow slash row u = true := by
  induction row generalizing slash t u with
  | nil => exact h.isMarked ht
  | cons segment row ih =>
      by_cases hdeep : segment = .deep
      · rw [matchRow, if_pos hdeep] at ht ⊢
        cases row with
        | nil => exact (h.one _).isMarked ht
        | cons next row => exact ih (behindDeeper_within h) ht
      · rw [matchRow, if_neg hdeep] at ht ⊢
        have hbehind : (segment.pass (if slash then t.one (· = '/') else t)).Within
            (segment.pass (if slash then u.one (· = '/') else u)) := by
          refine pass_within ?_ segment
          cases slash with
          | false => exact h
          | true => exact h.one _
        cases row with
        | nil => exact closes_mono hbehind ht
        | cons next row => exact ih hbehind ht

/-- Matching a row looks only at what follows the marks. -/
lemma matchRow_congr (h : t.Alike u) (slash : Bool) (row : List Segment) :
    matchRow slash row t = matchRow slash row u :=
  Bool.eq_iff_iff.2 ⟨matchRow_mono h.within, matchRow_mono h.symm.within⟩

lemma matchRow_false_cons {segment : Segment} (h : segment ≠ .deep) (row : List Segment) :
    matchRow false (segment :: row) t =
      if row.isEmpty then segment.closes (segment.pass t)
      else matchRow true row (segment.pass t) := by
  rw [matchRow, if_neg h]
  rfl

lemma matchPath_tied {segment : Segment} (h : segment ≠ .deep) (row : List Segment) (x : Text) :
    matchPath (segment :: row) x = matchRow false (segment :: row) (ofText x) := by
  rw [matchPath]
  intro next more heq
  exact h (List.cons.inj heq).1

/-- What a row matches at its place, it matches in any directory. -/
lemma matchPath_deep_of_tied {segment : Segment} (h : segment ≠ .deep) {row : List Segment}
    (hx : matchPath (segment :: row) x = true) : matchPath (.deep :: segment :: row) x = true := by
  rw [matchPath_tied h] at hx
  rw [matchPath]
  exact matchRow_mono (fun r hr => mem_rests_behindDirectories.2 (.inl hr)) hx

/-- A name behind a slash is a name behind the marks that are moved over a slash. -/
lemma matchRow_true_cons {segment : Segment} (h : segment ≠ .deep) (row : List Segment) :
    matchRow true (segment :: row) t = matchRow false (segment :: row) (t.one (· = '/')) := by
  rw [matchRow, matchRow, if_neg h, if_neg h]
  rfl

/-! ### What matches nothing -/

lemma alike_unmarked (h : t.rests = []) : t.Alike (.atEnd false) := by
  intro r
  rw [h, rests]
  rfl

lemma pass_unmarked (segment : Segment) : segment.pass (.atEnd false) = .atEnd false := by
  cases segment with
  | deep => rfl
  | anyName => rfl
  | glob g =>
      rw [Segment.pass]
      induction g with
      | nil => rfl
      | cons atom g ih => rw [Glob.pass_cons]; cases atom <;> exact ih

/-- Without a mark, nothing matches. -/
lemma matchRow_unmarked (slash : Bool) (row : List Segment) :
    matchRow slash row (.atEnd false) = false := by
  induction row generalizing slash with
  | nil => rfl
  | cons segment row ih =>
      rw [matchRow]
      split
      · split
        · rfl
        · exact ih true
      · next hdeep =>
          have hstart : (if slash then (atEnd false).one (· = '/') else atEnd false) =
              .atEnd false := by
            cases slash <;> rfl
          have hcloses : segment.closes (.atEnd false) = false := by
            cases segment with
            | deep => contradiction
            | anyName => rfl
            | glob g => rfl
          simp only [hstart, pass_unmarked, ih, hcloses, ite_self]

/-- Without a mark in front of a slash, no further name is found. -/
lemma matchRow_eq_false {row : List Segment} (hrow : row ≠ [])
    (ht : (t.one (· = '/')).rests = []) : matchRow true row t = false := by
  induction row generalizing t with
  | nil => contradiction
  | cons segment row ih =>
      by_cases hdeep : segment = .deep
      · subst hdeep
        rw [matchRow, if_pos rfl]
        cases row with
        | nil =>
            rw [List.isEmpty_nil, if_pos rfl, (alike_unmarked ht).isMarked]
            rfl
        | cons next row =>
            -- `**` as well has to pass a slash before anything else
            have hsame : (behindDeeper t).Alike t := by
              intro r
              rw [mem_rests_behindDeeper]
              refine ⟨?_, .inl⟩
              rintro (h | ⟨c, m, -, -, h⟩)
              · exact h
              · have hslash : c :: (m ++ r) ∈ (t.one (· = '/')).rests :=
                  mem_rests_one.2 ⟨'/', by simp, h⟩
                rw [ht] at hslash
                contradiction
            have hnone : ((behindDeeper t).one (· = '/')).rests = [] := by
              rw [List.eq_nil_iff_forall_not_mem]
              intro r hr
              rw [hsame.one, ht] at hr
              contradiction
            exact ih (by simp) hnone
      · rw [matchRow_true_cons hdeep, matchRow_congr (alike_unmarked ht), matchRow_unmarked]

/-- A text without two slashes in a row has no name of no characters in it. -/
lemma matchRow_of_double {first : Segment} (hfirst : first ≠ .deep) {row : List Segment}
    (hrow : row ≠ []) (ht : ∀ r, ¬ '/' :: '/' :: r <:+ t.text) :
    matchRow false (first :: .glob [] :: row) t = false := by
  rw [matchRow_false_cons hfirst, if_neg (by simp), matchRow_true_cons (by simp),
    matchRow_false_cons (by simp), if_neg (by simpa using hrow)]
  refine matchRow_eq_false hrow ?_
  rw [List.eq_nil_iff_forall_not_mem]
  intro r hr
  obtain ⟨c, hc, h⟩ := mem_rests_one.1 hr
  obtain ⟨d, hd, h⟩ := mem_rests_one.1 h
  obtain ⟨rfl, rfl⟩ : c = '/' ∧ d = '/' := ⟨of_decide_eq_true hc, of_decide_eq_true hd⟩
  have hsuffix := suffix_of_mem_rests h
  have htext : (first.pass t).text = t.text := by
    cases first with
    | deep => rfl
    | anyName => simp [Segment.pass]
    | glob g => simp [Segment.pass]
  rw [htext] at hsuffix
  exact ht r hsuffix

/-! ### Names that do not start as the row does -/

/-- A row that starts with a character looks only at the marks in front of it. -/
lemma matchRow_first {b : Char} {g : Glob} {row : List Segment}
    (h : (t.one (· = b)).Alike (u.one (· = b))) :
    matchRow false (.glob (.one (.exactly b) :: g) :: row) t =
      matchRow false (.glob (.one (.exactly b) :: g) :: row) u := by
  have hfirst (t : Marked) : matchRow false (.glob (.one (.exactly b) :: g) :: row) t =
      matchRow false (.glob g :: row) (t.one (· = b)) := by
    rw [matchRow_false_cons (by simp), matchRow_false_cons (by simp)]
    rfl
  rw [hfirst, hfirst, matchRow_congr h]

/-- A path whose first name starts otherwise is not matched by a row that is tied to the top. -/
lemma matchPath_of_head_ne {b : Char} {g : Glob} {row : List Segment} (h : x.head? ≠ some b) :
    matchPath (.glob (.one (.exactly b) :: g) :: row) x = false := by
  have hnone : ((ofText x).one (· = b)).Alike ((atEnd false).one (· = b)) := by
    intro r
    simp only [mem_rests_one, rests_ofText, List.mem_singleton, decide_eq_true_eq]
    constructor
    · rintro ⟨c, rfl, rfl⟩
      exact absurd rfl h
    · rintro ⟨c, -, hr⟩
      contradiction
  rw [matchPath, matchRow_first hnone, matchRow_unmarked]
  simp

/-- A slash of a path is the one behind its first name, or further behind. -/
lemma eq_or_exists_of_append_slash {name y m r : Text} (hslash : '/' ∉ name)
    (h : m ++ '/' :: r = name ++ '/' :: y) :
    m = name ∧ r = y ∨ ∃ more, m = name ++ '/' :: more ∧ y = more ++ '/' :: r := by
  induction name generalizing m with
  | nil =>
      cases m with
      | nil => exact .inl ⟨rfl, (List.cons.inj h).2⟩
      | cons c m =>
          obtain ⟨rfl, hrest⟩ := List.cons.inj h
          exact .inr ⟨m, rfl, hrest.symm⟩
  | cons a name ih =>
      cases m with
      | nil =>
          obtain ⟨rfl, -⟩ := List.cons.inj h
          simp at hslash
      | cons c m =>
          obtain ⟨rfl, hrest⟩ := List.cons.inj h
          rcases ih (fun hmem => hslash (by simp [hmem])) hrest with
            ⟨rfl, rfl⟩ | ⟨more, rfl, rfl⟩
          · exact .inl ⟨rfl, rfl⟩
          · exact .inr ⟨more, rfl, rfl⟩

/-- In front of the same character, a path is marked as it is without its first name, if that
starts otherwise. -/
lemma alike_behindDirectories {b : Char} {name y : Text} (hname : name ≠ []) (hslash : '/' ∉ name)
    (hbreak : '\n' ∉ name) (hfirst : name.head? ≠ some b) (hy : y.head? ≠ some '/') :
    ((behindDirectories (ofText (name ++ '/' :: y))).one (· = b)).Alike
      ((behindDirectories (ofText y)).one (· = b)) := by
  obtain ⟨a, name, rfl⟩ := List.exists_cons_of_ne_nil hname
  have hnameBreak : ∀ f ∈ a :: name, f ≠ '\n' := fun f hf heq => hbreak (heq ▸ hf)
  intro r
  simp only [mem_rests_one, mem_rests_behindDirectories, rests_ofText, List.mem_singleton,
    decide_eq_true_eq]
  refine exists_congr fun c => and_congr_right fun hc => ?_
  subst hc
  constructor
  · rintro (heq | ⟨d, m, hd, hm, heq⟩)
    · have hhead := (List.cons.inj heq).1
      exact absurd (congrArg some hhead.symm) hfirst
    · have hall : ∀ f ∈ d :: m, f ≠ '\n' := List.forall_mem_cons.2 ⟨hd, hm⟩
      rcases eq_or_exists_of_append_slash hslash
        (show (d :: m) ++ '/' :: c :: r = (a :: name) ++ '/' :: y from heq) with
        ⟨-, rfl⟩ | ⟨more, hmore, rfl⟩
      · exact .inl rfl
      · rw [hmore] at hall
        cases more with
        | nil => exact absurd rfl hy
        | cons e more =>
            exact .inr ⟨e, more, hall e (by simp), fun f hf => hall f (by simp [hf]), rfl⟩
  · rintro (rfl | ⟨d, m, hd, hm, rfl⟩)
    · exact .inr ⟨a, name, hnameBreak a (by simp), fun f hf => hnameBreak f (by simp [hf]), rfl⟩
    · refine .inr ⟨a, name ++ '/' :: d :: m, hnameBreak a (by simp), ?_, by simp⟩
      have hrest : ∀ f ∈ '/' :: d :: m, f ≠ '\n' :=
        List.forall_mem_cons.2 ⟨by simp, List.forall_mem_cons.2 ⟨hd, hm⟩⟩
      exact List.forall_mem_append.2 ⟨fun f hf => hnameBreak f (by simp [hf]), hrest⟩

/-- A row of any directory and then a name looks past a first name that starts otherwise. -/
lemma matchPath_past_name {b : Char} {g : Glob} {row : List Segment} {name y : Text}
    (hname : name ≠ []) (hslash : '/' ∉ name) (hbreak : '\n' ∉ name)
    (hfirst : name.head? ≠ some b) (hy : y.head? ≠ some '/') :
    matchPath (.deep :: .glob (.one (.exactly b) :: g) :: row) (name ++ '/' :: y) =
      matchPath (.deep :: .glob (.one (.exactly b) :: g) :: row) y :=
  matchRow_first (alike_behindDirectories hname hslash hbreak hfirst hy)

/-! ### Any name -/

/-- Any name in any directory is the last one, if no line feed is in front of it. -/
lemma matchPath_deep_anyName {before last tail : Text}
    (hbefore : before = [] ∨ ∃ c m, before = c :: (m ++ ['/'])) (hbreak : '\n' ∉ before)
    (hlast : last ≠ []) (hslash : '/' ∉ last) (htail : tail = [] ∨ tail = ['/']) :
    matchPath [.deep, .anyName] (before ++ (last ++ tail)) = true := by
  have hmark : last ++ tail ∈ (behindDirectories (ofText (before ++ (last ++ tail)))).rests := by
    rw [mem_rests_behindDirectories, rests_ofText, List.mem_singleton]
    rcases hbefore with rfl | ⟨c, m, rfl⟩
    · exact .inl rfl
    · have hall : ∀ d ∈ c :: (m ++ ['/']), d ≠ '\n' := fun d hd heq => hbreak (heq ▸ hd)
      exact .inr ⟨c, m, hall c (by simp), fun d hd => hall d (by simp [hd]), by simp⟩
  have hbehind : tail ∈ (Segment.anyName.pass
      (behindDirectories (ofText (before ++ (last ++ tail))))).rests :=
    mem_rests_pass_iff.2 ⟨last, ⟨hlast, hslash⟩, hmark⟩
  rw [matchPath, matchRow_false_cons (by simp), List.isEmpty_nil, if_pos rfl, Segment.closes,
    Bool.or_eq_true, reachesEnd_iff, reachesEnd_iff]
  rcases htail with rfl | rfl
  · exact .inl (.inl hbehind)
  · exact .inr (.inl (mem_rests_one.2 ⟨'/', by simp, hbehind⟩))

end Ignore

end GeneratedCode
