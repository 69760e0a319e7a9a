import Mathlib.Tactic
import GeneratedCode.Proofs.Ignore.Nested

/-!
Where the lines of a nested ignore file have a say.

A line is rewritten by putting the names of its directory in front of it, and what comes out is read
like any line. So the names are read as patterns: a line has a say in all directories whose names
they spell (`matches_spelled_iff`), and an exclamation mark in front of the first is taken for the
sign of a negated line (`readNames`). A slash alone becomes the name of the directory and a slash,
which is not tied to the top, and what looks like a comment is not rewritten at all.

* `Leaks`: the paths outside of the directory that a line decides about all the same.
* `not_leaks`: there are none if each name is read as it stands, unless the line is a slash alone or
  looks like a comment.
* `rebase_confined_iff`: the main result; there is no other case.
-/

namespace GeneratedCode

namespace Ignore

open Text GeneratedCode.Path

/-! ### Lines in a directory of any names -/

/-- Whether a line is rewritten, to one that is no comment. -/
structure IsRewritten (directory line : Text) : Prop where
  ne_nil : line ≠ []
  not_looksLikeComment : ¬ LooksLikeComment line
  not_comment : line.head? = some '!' ∨ directory.head? ≠ some '#'

/-- The names of a directory as they are read in front of a line: an exclamation mark at their start
is the sign of a line that has none. -/
def readNames (line : Text) : List Text → List Text
  | ('!' :: name) :: names =>
      if line.head? = some '!' then ('!' :: name) :: names else name :: names
  | names => names

lemma readNames_of_head?_ne {line : Text} {names : List Text}
    (h : line.head? = some '!' ∨ (joinSlash names).head? ≠ some '!') :
    readNames line names = names := by
  rw [readNames.eq_def]
  split
  · next name names =>
      obtain ⟨rest, hrest⟩ := exists_joinSlash '!' name names
      rw [hrest] at h
      rw [if_pos (h.resolve_right (by simp))]
  · rfl

lemma readNames_ne_nil {line : Text} {names : List Text} (h : names ≠ []) :
    readNames line names ≠ [] := by
  rw [readNames.eq_def]
  split
  · split <;> simp
  · exact h

lemma joinSlash_sign (name : Text) (names : List Text) :
    joinSlash (('!' :: name) :: names) = '!' :: joinSlash (name :: names) := by
  cases names <;> rfl

lemma exists_sign {names : List Text} (hnames : names ≠ [])
    (h : (joinSlash names).head? = some '!') :
    ∃ name others, names = ('!' :: name) :: others := by
  obtain ⟨first, others, rfl⟩ := List.exists_cons_of_ne_nil hnames
  cases first with
  | nil => cases others <;> simp [joinSlash] at h
  | cons c name =>
      obtain ⟨rest, hrest⟩ := exists_joinSlash c name others
      rw [hrest] at h
      obtain rfl := Option.some.inj h
      exact ⟨name, others, rfl⟩

lemma rebaseBody_cons (c : Char) (directory body : Text) :
    rebaseBody (c :: directory) body = c :: rebaseBody directory body := by
  rw [rebaseBody_eq, rebaseBody_eq, List.cons_append]

section

variable {names : List Text} {line y : Text}

/-- A rewritten line is the sign of a negated line or none, the names of the directory as they are
read, and what the body says behind them. -/
lemma exists_rebase_eq (hbreak : '\n' ∉ line) (hnames : names ≠ [])
    (hname : ∀ name ∈ readNames line names, IsName name)
    (h : IsRewritten (joinSlash names) line) :
    ∃ negated body, rebase (joinSlash names) line = signed negated body ∧
      dropBlanks body = joinSlash (readNames line names) ++
        '/' :: dropBlanks (behindDirectory (bodyOf line)) ∧
      (negated = false → ∃ c rest, dropBlanks body = c :: rest ∧ c ≠ '#' ∧ c ≠ '!') := by
  obtain ⟨negated, body, rfl, hbodyOf, hsign⟩ := exists_signed line
  rw [hbodyOf]
  have hrebase (hdirectory : joinSlash names ≠ []) :
      rebase (joinSlash names) (signed negated body) =
        signed negated (rebaseBody (joinSlash names) body) :=
    rebase_signed hbreak h.ne_nil h.not_looksLikeComment hdirectory hsign
  by_cases hread : (signed negated body).head? = some '!' ∨ (joinSlash names).head? ≠ some '!'
  · -- the names are read as they stand
    rw [readNames_of_head?_ne hread] at hname ⊢
    have hdirectory := joinSlash_ne_nil hnames hname
    refine ⟨negated, _, hrebase hdirectory, dropBlanks_rebaseBody _ body, ?_⟩
    rintro rfl
    obtain ⟨c, rest, hcons⟩ := List.exists_cons_of_ne_nil hdirectory
    have hfirst {d : Char} (hd : (signed false body).head? = some '!' ∨
        (joinSlash names).head? ≠ some d) : c ≠ d := by
      rintro rfl
      exact hd.resolve_left (hsign rfl) (by rw [hcons]; rfl)
    rw [dropBlanks_rebaseBody, hcons]
    exact ⟨c, _, rfl, hfirst h.not_comment, hfirst hread⟩
  · -- the line has no sign, and the first name starts with one
    obtain ⟨hline, hhead⟩ := not_or.1 hread
    rw [ne_eq, not_not] at hhead
    obtain ⟨name, others, rfl⟩ := exists_sign hnames hhead
    obtain rfl : negated = false := by
      by_contra htrue
      rw [Bool.not_eq_false] at htrue
      exact hline (by rw [htrue]; rfl)
    have hdirectory := joinSlash_sign name others
    refine ⟨true, rebaseBody (joinSlash (name :: others)) body, ?_, ?_, by simp⟩
    · rw [hrebase (by simp [hdirectory]), hdirectory, rebaseBody_cons]
      rfl
    · rw [dropBlanks_rebaseBody, readNames, if_neg hline]

end

/-! ### What a body in a directory matches -/

/-- A slash alone leaves nothing behind the directory. -/
lemma dropBlanks_behindDirectory_eq_nil_iff {body : Text} :
    dropBlanks (behindDirectory body) = [] ↔ dropBlanks body = ['/'] := by
  have hmem (hne : '/' ∈ behindDirectory body) : dropBlanks (behindDirectory body) ≠ [] :=
    List.ne_nil_of_mem ((mem_dropBlanks_iff rfl _).2 hne)
  by_cases hhead : body.head? = some '/'
  · obtain ⟨rest, rfl⟩ := List.head?_eq_some_iff.1 hhead
    have htext : dropBlanks ('/' :: rest) = '/' :: dropBlanks rest := dropBlanks_slash [] rest
    rw [behindDirectory, if_pos hhead, htext]
    simp
  · have hbody : dropBlanks body ≠ ['/'] := fun heq => head?_dropBlanks hhead (by rw [heq]; rfl)
    refine iff_of_false (hmem ?_) hbody
    rw [behindDirectory, if_neg hhead]
    split
    · next hslash =>
        obtain ⟨k, hk⟩ := exists_dropEnd '/' body
        rw [hk]
        exact List.mem_append_left _ (List.contains_iff_mem.1 hslash)
    · simp

lemma splitSlash_eq_singleton_nil_iff {s : Text} : splitSlash s = [[]] ↔ s = [] :=
  ⟨fun h => (eq_of_splitSlash_eq h).1, fun h => by rw [h]; rfl⟩

/-- The row of a name that may be anywhere, and of all that is inside. -/
lemma segments?_inside {name : Text} {segments : List Segment} :
    segments? [deepText, name, deepText] = some segments ↔
      ∃ segment, Segment.ofText? name = some segment ∧ segments = [.deep, segment, .deep] := by
  have hdeep : Segment.ofText? deepText = some .deep := ofText?_eq_deep_iff.2 rfl
  simp only [segments?_cons, hdeep, segments?_nil, Option.some.injEq]
  grind

/-- No segment of names other than `**` is any number of directories. -/
lemma deep_notMem {names : List Text} {segments : List Segment} (hdeep : deepText ∉ names)
    (h : segments? names = some segments) : .deep ∉ segments := by
  induction names generalizing segments with
  | nil =>
      obtain rfl := Option.some.inj h
      simp
  | cons name names ih =>
      obtain ⟨first, rest, hfirst, hrest, rfl⟩ := segments?_cons.1 h
      intro hmem
      rcases List.mem_cons.1 hmem with rfl | hmem
      · exact hdeep (by simp [ofText?_eq_deep_iff.1 hfirst])
      · exact ih (fun hname => hdeep (by simp [hname])) hrest hmem

/-- Whether the names of a directory, read as patterns, spell those of another one, and what is
behind them matches a path there. -/
def Reaches (names : List Text) (s : Text) (others : List Text) (x : Text) : Prop :=
  ∃ segments row, segments? names = some segments ∧
    segments? (tiedRow (splitSlash s)) = some row ∧
    List.Forall₂ Segment.Spells segments others ∧ below row x = true

/-- Whether a path lies in a directory, wherever it is, that a name spells as a pattern. -/
def Inside (name y : Text) : Prop :=
  ∃ segment before other x, Segment.ofText? name = some segment ∧ IsAbove before ∧
    segment.Spells other ∧ y = before ++ (other ++ '/' :: x)

section

variable {names : List Text} {s y : Text} {shape : Shape}

/-- A name alone matches all that is in a directory of such a name. -/
lemma matches_inside_iff {name : Text} (hname : IsName name) (hdeep : name ≠ deepText)
    (h : Shape.ofBody? (name ++ ['/']) = some shape) (hy : y.head? ≠ some '/') :
    shape.matches y = true ↔ Inside name y := by
  obtain ⟨-, segments, hsegments, -, hmatches⟩ := ofBody?_eq_some h
  rw [normalise_inside hname hdeep rfl] at hsegments hmatches
  obtain ⟨segment, hsegment, rfl⟩ := segments?_inside.1 hsegments
  have hne : segment ≠ .deep := fun heq => hdeep (ofText?_eq_deep_iff.1 (heq ▸ hsegment))
  have hmatch : shape.matches y = matchPath [.deep, segment, .deep] y := by
    rw [hmatches (by simp) (by simp) y hy, below]
    simp
  rw [hmatch, matchPath_inside_iff hne, Inside]
  simp [hsegment]

/-- **In front of a row**, the names of a directory are read as patterns. -/
lemma matches_spelled_iff (hnames : names ≠ []) (hname : ∀ name ∈ names, IsName name)
    (hdeep : deepText ∉ names) (hinside : names.length = 1 → s ≠ [])
    (h : Shape.ofBody? (joinSlash names ++ '/' :: s) = some shape) (hy : y.head? ≠ some '/') :
    shape.matches y = true ↔
      ∃ others x, Reaches names s others x ∧ y = joinSlash others ++ '/' :: x := by
  obtain ⟨-, segments, hsegments, -, hmatches⟩ := ofBody?_eq_some h
  rw [normalise_names hnames hname hdeep fun hone =>
    mt splitSlash_eq_singleton_nil_iff.1 (hinside hone)] at hsegments hmatches
  obtain ⟨first, row, hfirst, hrow, rfl⟩ := segments?_append.1 hsegments
  have hs := splitSlash_ne_nil s
  have hfirstDeep := deep_notMem hdeep hfirst
  have hmatch : shape.matches y = matchPath (first ++ row) y := by
    obtain ⟨name, others, rfl⟩ := List.exists_cons_of_ne_nil hnames
    obtain ⟨segment, rest, -, -, rfl⟩ := segments?_cons.1 hfirst
    have hnameDeep : name ≠ deepText := fun heq => hdeep (by simp [heq])
    have hsegment : segment ≠ .deep := fun heq => hfirstDeep (by simp [heq])
    rw [hmatches (by simp [hnameDeep]) (by simp [hnameDeep]) y hy, below]
    simp [hsegment]
  rw [hmatch, matchPath_append_iff (segments_ne_nil hnames hfirst) hfirstDeep
    (segments_ne_nil (tiedRow_ne_nil hs) hrow) (segments_ne (collapseDeep_ne _) hrow)]
  simp only [Reaches, hfirst, hrow, Option.some.injEq]
  grind

/-- What a name alone reaches at the top is inside. -/
lemma inside_of_reaches {name s : Text} {others : List Text} {x : Text}
    (h : Reaches [name] s others x) : Inside name (joinSlash others ++ '/' :: x) := by
  obtain ⟨segments, row, hsegments, -, hspells, -⟩ := h
  obtain ⟨segment, rest, hsegment, hrest, rfl⟩ := segments?_cons.1 hsegments
  obtain rfl := Option.some.inj hrest
  obtain ⟨other, more, hother, hmore, rfl⟩ := List.forall₂_cons_left_iff.1 hspells
  obtain rfl := List.forall₂_nil_left_iff.1 hmore
  exact ⟨segment, [], other, x, hsegment, .inl rfl, hother, rfl⟩

end

/-! ### Lines that are not confined -/

/-- A line of the ignore file in a directory, and a path outside that it decides about. -/
inductive Leaks (names : List Text) (line y : Text) : Prop where
  /-- What looks like a comment is not rewritten, so that it matches what it does at the top. -/
  | comment {pattern : Pattern} (hlooks : LooksLikeComment line)
      (hpattern : Pattern.ofLine? line = .ok (some pattern))
      (hmatch : pattern.shape.matches y = true)
  /-- A slash alone leaves the name of the directory and a slash, which may be anywhere. -/
  | slash {name : Text} (hrewritten : IsRewritten (joinSlash names) line)
      (hslash : dropBlanks (bodyOf line) = ['/']) (hname : readNames line names = [name])
      (hinside : Inside name y)
  /-- The names of the directory are read as patterns, which may spell another directory. -/
  | spelled {others : List Text} {x : Text} (hrewritten : IsRewritten (joinSlash names) line)
      (hreaches : Reaches (readNames line names) (dropBlanks (behindDirectory (bodyOf line)))
        others x)
      (hother : joinSlash others ≠ joinSlash names) (hpath : y = joinSlash others ++ '/' :: x)

section

variable {names : List Text} {line y : Text}

/-- A slash alone in a directory of one name. -/
lemma leaks_iff_of_slash {name : Text} (hrewritten : IsRewritten (joinSlash names) line)
    (hname : readNames line names = [name]) (hslash : dropBlanks (bodyOf line) = ['/']) :
    Leaks names line y ↔ Inside name y := by
  refine ⟨fun h => ?_, .slash hrewritten hslash hname⟩
  cases h with
  | comment hlooks => exact absurd hlooks hrewritten.not_looksLikeComment
  | slash _ _ hother hinside =>
      rw [hname] at hother
      rwa [List.singleton_inj.1 hother]
  | spelled _ hreaches _ hpath =>
      rw [hname] at hreaches
      exact hpath ▸ inside_of_reaches hreaches

/-- Any other line that is rewritten. -/
lemma leaks_iff_of_not_slash (hrewritten : IsRewritten (joinSlash names) line)
    (hslash : (readNames line names).length = 1 → dropBlanks (bodyOf line) ≠ ['/'])
    (hout : ¬ joinSlash names ++ ['/'] <+: y) :
    Leaks names line y ↔
      ∃ others x, Reaches (readNames line names) (dropBlanks (behindDirectory (bodyOf line)))
        others x ∧ y = joinSlash others ++ '/' :: x := by
  constructor
  · intro h
    cases h with
    | comment hlooks => exact absurd hlooks hrewritten.not_looksLikeComment
    | slash _ hline hname => exact absurd hline (hslash (by rw [hname]; rfl))
    | spelled _ hreaches _ hpath => exact ⟨_, _, hreaches, hpath⟩
  · rintro ⟨others, x, hreaches, hpath⟩
    refine .spelled hrewritten hreaches (fun heq => hout ⟨x, ?_⟩) hpath
    rw [hpath, heq]
    simp

/-- What a rewritten line decides about outside of the directory. -/
lemma decision_of_isRewritten_iff {pattern? : Option Pattern} (hbreak : '\n' ∉ line)
    (hnames : names ≠ []) (hname : ∀ name ∈ readNames line names, IsName name)
    (hdeep : deepText ∉ readNames line names) (hrewritten : IsRewritten (joinSlash names) line)
    (hpattern : Pattern.ofLine? (rebase (joinSlash names) line) = .ok pattern?)
    (hy : y.head? ≠ some '/') (hout : ¬ joinSlash names ++ ['/'] <+: y) :
    decision pattern? y = none ↔ ¬ Leaks names line y := by
  obtain ⟨negated, body, hrebase, htext, hfirst⟩ := exists_rebase_eq hbreak hnames hname hrewritten
  rw [hrebase] at hpattern
  obtain ⟨shape, hbody, -, rfl⟩ := (ofLine?_signed_eq_ok_iff hfirst).1 hpattern
  rw [htext] at hbody
  suffices hmatches : shape.matches y = true ↔ Leaks names line y by
    rw [← hmatches, decision, Option.bind_some]
    simp
  by_cases hslash :
      (readNames line names).length = 1 ∧ dropBlanks (bodyOf line) = ['/']
  · obtain ⟨name, hone⟩ := List.length_eq_one_iff.1 hslash.1
    rw [hone] at hname hdeep hbody
    rw [dropBlanks_behindDirectory_eq_nil_iff.2 hslash.2, joinSlash] at hbody
    have hnameDeep : name ≠ deepText := fun heq => hdeep (by simp [heq])
    rw [leaks_iff_of_slash hrewritten hone hslash.2]
    exact matches_inside_iff (hname name (by simp)) hnameDeep hbody hy
  · have hslash := not_and.1 hslash
    rw [leaks_iff_of_not_slash hrewritten hslash hout]
    exact matches_spelled_iff (readNames_ne_nil hnames) hname hdeep
      (fun hone => mt dropBlanks_behindDirectory_eq_nil_iff.1 (hslash hone)) hbody hy

/-- What looks like a comment decides wherever its pattern matches. -/
lemma decision_eq_none_iff_of_looksLikeComment {pattern? : Option Pattern}
    (hlooks : LooksLikeComment line) (hpattern : Pattern.ofLine? line = .ok pattern?) :
    decision pattern? y = none ↔ ¬ Leaks names line y := by
  have hleaks : Leaks names line y ↔
      ∃ pattern, pattern? = some pattern ∧ pattern.shape.matches y = true := by
    constructor
    · intro h
      cases h with
      | comment _ hother hmatch => exact ⟨_, Except.ok.inj (hpattern.symm.trans hother), hmatch⟩
      | slash hrewritten => exact absurd hlooks hrewritten.not_looksLikeComment
      | spelled hrewritten => exact absurd hlooks hrewritten.not_looksLikeComment
    · rintro ⟨pattern, rfl, hmatch⟩
      exact .comment hlooks hpattern hmatch
  rw [hleaks, decision]
  cases pattern? <;> simp

/-- What is neither rewritten nor looks like a comment holds no pattern. -/
lemma ofLine?_of_not_isRewritten (hbreak : '\n' ∉ line) (hlooks : ¬ LooksLikeComment line)
    (h : ¬ IsRewritten (joinSlash names) line) :
    Pattern.ofLine? (rebase (joinSlash names) line) = .ok none := by
  by_cases hne : line = []
  · subst hne
    rfl
  · have hcomment : ¬ (line.head? = some '!' ∨ (joinSlash names).head? ≠ some '#') :=
      fun hor => h ⟨hne, hlooks, hor⟩
    obtain ⟨hline, hhead⟩ := not_or.1 hcomment
    rw [ne_eq, not_not] at hhead
    obtain ⟨directory, hdirectory⟩ := List.head?_eq_some_iff.1 hhead
    have hrebase : rebase (joinSlash names) (signed false line) =
        signed false (rebaseBody (joinSlash names) line) :=
      rebase_signed hbreak hne hlooks (by simp [hdirectory]) fun _ => hline
    rw [show line = signed false line from rfl, hrebase, hdirectory, rebaseBody_cons]
    exact ofLine?_comment _

lemma slash_notMem_of_mem_readNames (hname : ∀ name ∈ names, IsName name) {name : Text}
    (h : name ∈ readNames line names) : '/' ∉ name := by
  rw [readNames.eq_def] at h
  split at h
  · next first others =>
      split at h
      · exact (hname name h).2
      · rcases List.mem_cons.1 h with rfl | h
        · exact fun hmem => (hname _ (List.mem_cons_self)).2 (by simp [hmem])
        · exact (hname name (by simp [h])).2
  · exact (hname name h).2

/-- **Names that are read as they stand** keep a line in their directory, unless it looks like a
comment, or is a slash alone in a directory of the top. -/
lemma not_leaks (hread : ∀ name ∈ names, Segment.ofText? name = some (spelling name))
    (hsign : line.head? = some '!' ∨ (joinSlash names).head? ≠ some '!')
    (hlooks : ¬ LooksLikeComment line)
    (hslash : names.length = 1 → dropBlanks (bodyOf line) ≠ ['/']) : ¬ Leaks names line y := by
  have hnames := readNames_of_head?_ne hsign
  intro h
  cases h with
  | comment hyes => contradiction
  | slash _ hline hone =>
      rw [hnames] at hone
      exact hslash (by rw [hone]; rfl) hline
  | spelled _ hreaches hother =>
      obtain ⟨segments, row, hsegments, -, hspells, -⟩ := hreaches
      rw [hnames, segments?_eq_spellings hread] at hsegments
      obtain rfl := Option.some.inj hsegments
      exact hother (by rw [spells_spellings_iff.1 hspells])

/-- **A line is confined to its directory**: written for the top of the project, the line of an
ignore file in some directory decides nothing about a path outside of it, if and only if the line
does not leak to the path. -/
theorem rebase_confined_iff {rules : Rules} (hbreak : '\n' ∉ line) (hnames : names ≠ [])
    (hname : ∀ name ∈ names, IsName name)
    (hread : ∀ name ∈ readNames line names, name ≠ [] ∧ name ≠ deepText) (hy : IsRelative y)
    (hout : ¬ joinSlash names ++ ['/'] <+: y)
    (h : Rules.ofLines [rebase (joinSlash names) line] = .ok rules) :
    rules.verdict? y = none ↔ ¬ Leaks names line y := by
  obtain ⟨pattern?, hpattern⟩ := exists_ofLine?_of_ofLines h
  rw [verdict?_of_ofLines hpattern h, hy.relative_eq]
  by_cases hlooks : LooksLikeComment line
  · rw [rebase_looksLikeComment hbreak hlooks] at hpattern
    exact decision_eq_none_iff_of_looksLikeComment hlooks hpattern
  · by_cases hrewritten : IsRewritten (joinSlash names) line
    · have hreadName (name : Text) (hmem : name ∈ readNames line names) : IsName name :=
        ⟨(hread name hmem).1, slash_notMem_of_mem_readNames hname hmem⟩
      exact decision_of_isRewritten_iff hbreak hnames hreadName
        (fun hmem => (hread _ hmem).2 rfl) hrewritten hpattern hy.head?_ne hout
    · obtain rfl := Except.ok.inj
        (hpattern.symm.trans (ofLine?_of_not_isRewritten hbreak hlooks hrewritten))
      refine iff_of_true rfl fun hleaks => ?_
      cases hleaks with
      | comment hyes => contradiction
      | slash hyes => contradiction
      | spelled hyes => contradiction

/-- Signs of comments and negations, and blanks, do no harm inside the name of a directory. -/
theorem rebase_confined_of_signs :
    ∃ rules, Rules.ofLines [rebase "UI/#old !".toList "*.Designer.cs".toList] = .ok rules ∧
      rules.verdict? "Models/Order.Designer.cs".toList = none := by
  have hread : ∀ name ∈ ["UI".toList, "#old !".toList],
      Segment.ofText? name = some (spelling name) := by decide +kernel
  have hpath : IsRelative "Models/Order.Designer.cs".toList :=
    ⟨["Models".toList, "Order.Designer.cs".toList], by decide, by decide, .inl rfl⟩
  obtain ⟨rules, hrules⟩ := exists_rules
    (by decide +kernel : (Rules.ofLines
      [rebase "UI/#old !".toList "*.Designer.cs".toList]).toOption.isSome = true)
  refine ⟨rules, hrules, ?_⟩
  exact (rebase_confined_iff (by decide) (List.cons_ne_nil "UI".toList ["#old !".toList])
    (by decide) (by decide) hpath (by decide) hrules).2
    (not_leaks hread (by decide) (by decide) (by decide))

/-- A wildcard in the name of a directory, a slash alone, and a pattern that looks like a comment
have a say outside of the directory. -/
theorem lines_leak :
    (¬ "d*/".toList <+: "de/A.cs".toList ∧
      ∃ rules, Rules.ofLines [rebase "d*".toList "A.cs".toList] = .ok rules ∧
        rules.verdict? "de/A.cs".toList = some .ignored) ∧
    (¬ "d/".toList <+: "e/d/A.cs".toList ∧
      ∃ rules, Rules.ofLines [rebase "d".toList "/".toList] = .ok rules ∧
        rules.verdict? "e/d/A.cs".toList = some .ignored) ∧
    (¬ "d/".toList <+: " #A.cs".toList ∧
      ∃ rules, Rules.ofLines [rebase "d".toList " #A.cs".toList] = .ok rules ∧
        rules.verdict? " #A.cs".toList = some .ignored) := by
  refine ⟨⟨by decide, ?_⟩, ⟨by decide, ?_⟩, ⟨by decide, ?_⟩⟩
  · exact exists_rules_of_verdict? (by decide +kernel)
  · exact exists_rules_of_verdict? (by decide +kernel)
  · exact exists_rules_of_verdict? (by decide +kernel)

end

end Ignore

end GeneratedCode
