import Mathlib.Tactic
import GeneratedCode.Proofs.Ignore.Nested

/-!
The meaning of the lines of a nested ignore file.

A line should decide about a path in its directory what it decides there about the rest of the
path. For some lines and paths it does not once it is written for the top of the project
(`Skewed`): for a line of blanks, a pattern that looks like a comment, a directory with blanks
behind its slash, and two rows that mean less at the top than they spell.

* `skewed_of_looksLikeComment_iff`, `skewed_of_spaced_iff`, `skewed_of_not_spaced_iff`: what is
  skewed, by the kind of the line.
* `not_skewed`: a line without blanks at its ends is not, for paths without line feeds, unless its
  row is `**` alone.
* `rebase_keeps_meaning_iff`: the main result; there is no other case.
-/

namespace GeneratedCode

namespace Ignore

open Text GeneratedCode.Path

/-! ### Lines that do not keep their meaning -/

/-- A line, and a path that the rewritten line does not decide about as the line does. -/
inductive Skewed (line x : Text) : Prop where
  /-- A line of blanks, which is rewritten although it holds no pattern. -/
  | blank (hne : line ≠ []) (hblank : trimRight line = [])
  /-- What looks like a comment is not rewritten, so that it matches nothing in the directory. -/
  | comment {pattern : Pattern} (hlooks : LooksLikeComment line)
      (hpattern : Pattern.ofLine? line = .ok (some pattern)) (htied : ¬ Roams (dropBlanks line))
      (hmatch : pattern.shape.matches x = true)
  /-- A row of `**` alone matches all that is in a directory, but not each path on its own. -/
  | inside {pattern : Pattern} (hlooks : ¬ LooksLikeComment line)
      (hpattern : Pattern.ofLine? line = .ok (some pattern))
      (hrow : normalise (splitSlash (dropBlanks (bodyOf line))) = [deepText])
      (hmatch : pattern.shape.matches x = false)
  /-- Any name in any directory is read as everything at the top, and as a row in a directory; line
  feeds make a difference. -/
  | anyName {pattern : Pattern} (hlooks : ¬ LooksLikeComment line)
      (hpattern : Pattern.ofLine? line = .ok (some pattern))
      (hrow : normalise (splitSlash (dropBlanks (bodyOf line))) = [deepText, ['*']])
      (hmatch : Shape.everything.matches x ≠ matchPath [.deep, .anyName] x)
  /-- A directory with blanks behind its slash is tied to its place, and matches nothing deeper. -/
  | spaced {pattern : Pattern} {tied : Shape} (hlooks : ¬ LooksLikeComment line)
      (hpattern : Pattern.ofLine? line = .ok (some pattern)) (hspaced : Spaced (bodyOf line))
      (htied : Shape.ofBody? ('/' :: dropBlanks (bodyOf line)) = some tied)
      (hmatch : pattern.shape.matches x = true) (hdeeper : tied.matches x = false)

section

variable {line directory x : Text} {pattern? : Option Pattern}

lemma skewed_of_looksLikeComment_iff (hlooks : LooksLikeComment line)
    (hpattern : Pattern.ofLine? line = .ok pattern?) :
    Skewed line x ↔
      ∃ pattern, pattern? = some pattern ∧ ¬ Roams (dropBlanks line) ∧
        pattern.shape.matches x = true := by
  constructor
  · intro h
    cases h with
    | blank _ hblank =>
        exact absurd hblank (trimRight_ne_nil rfl (mem_of_looksLikeComment hlooks))
    | @comment pattern _ hother htied hmatch =>
        exact ⟨pattern, Except.ok.inj (hpattern.symm.trans hother), htied, hmatch⟩
    | inside hnot => contradiction
    | anyName hnot => contradiction
    | spaced hnot => contradiction
  · rintro ⟨pattern, rfl, htied, hmatch⟩
    exact .comment hlooks hpattern htied hmatch

/-- What a line that looks like a comment decides in the directory. -/
lemma decision_of_looksLikeComment_iff (hlooks : LooksLikeComment line)
    (hpattern : Pattern.ofLine? line = .ok pattern?) (hdirectory : IsPlainDirectory directory)
    (hx : x.head? ≠ some '/') :
    decision pattern? (directory ++ '/' :: x) = decision pattern? x ↔ ¬ Skewed line x := by
  rw [skewed_of_looksLikeComment_iff hlooks hpattern]
  cases pattern? with
  | none => exact iff_of_true rfl (by simp)
  | some pattern =>
      rw [decision_eq_iff]
      obtain ⟨hroams, hmatch⟩ | ⟨htied, hmatch⟩ :=
        matches_of_looksLikeComment hlooks hpattern hdirectory hx
      · refine iff_of_true hmatch ?_
        rintro ⟨other, -, htied, -⟩
        exact htied hroams
      · rw [hmatch]
        cases hown : pattern.shape.matches x <;> simp [htied, hown]

end

section

variable {line directory x : Text} {pattern : Pattern}

lemma skewed_of_spaced_iff {tied : Shape} (hlooks : ¬ LooksLikeComment line)
    (hblank : trimRight line ≠ []) (hpattern : Pattern.ofLine? line = .ok (some pattern))
    (hspaced : Spaced (bodyOf line))
    (htied : Shape.ofBody? ('/' :: dropBlanks (bodyOf line)) = some tied) :
    Skewed line x ↔ pattern.shape.matches x = true ∧ tied.matches x = false := by
  obtain ⟨name, -, hrow, -⟩ := normalise_of_spaced hspaced
  refine ⟨fun h => ?_, fun h => .spaced hlooks hpattern hspaced htied h.1 h.2⟩
  cases h with
  | blank _ hnil => contradiction
  | comment hnot => contradiction
  | inside _ _ hother => simp [hrow] at hother
  | anyName _ _ hother => simp [hrow] at hother
  | spaced _ hother _ htied' hmatch hdeeper =>
      obtain rfl := Option.some.inj (Except.ok.inj (hpattern.symm.trans hother))
      obtain rfl := Option.some.inj (htied.symm.trans htied')
      exact ⟨hmatch, hdeeper⟩

lemma skewed_of_not_spaced_iff (hlooks : ¬ LooksLikeComment line) (hblank : trimRight line ≠ [])
    (hpattern : Pattern.ofLine? line = .ok (some pattern)) (hspaced : ¬ Spaced (bodyOf line)) :
    Skewed line x ↔
      normalise (splitSlash (dropBlanks (bodyOf line))) = [deepText] ∧
          pattern.shape.matches x = false ∨
        normalise (splitSlash (dropBlanks (bodyOf line))) = [deepText, ['*']] ∧
          Shape.everything.matches x ≠ matchPath [.deep, .anyName] x := by
  constructor
  · intro h
    cases h with
    | blank _ hnil => contradiction
    | comment hnot => contradiction
    | inside _ hother hrow hmatch =>
        obtain rfl := Option.some.inj (Except.ok.inj (hpattern.symm.trans hother))
        exact .inl ⟨hrow, hmatch⟩
    | anyName _ _ hrow hmatch => exact .inr ⟨hrow, hmatch⟩
    | spaced _ _ hyes => contradiction
  · rintro (⟨hrow, hmatch⟩ | ⟨hrow, hmatch⟩)
    · exact .inside hlooks hpattern hrow hmatch
    · exact .anyName hlooks hpattern hrow hmatch

/-- What a body matches is what its row matches below a directory, but for two rows. -/
lemma below_eq_matches_iff {body : Text} {shape : Shape} {segments : List Segment}
    (hbody : Shape.ofBody? body = some shape)
    (hsegments : segments? (normalise (splitSlash body)) = some segments)
    (hx : x.head? ≠ some '/') :
    below segments x = shape.matches x ↔
      ¬ (normalise (splitSlash body) = [deepText] ∧ shape.matches x = false ∨
        normalise (splitSlash body) = [deepText, ['*']] ∧
          Shape.everything.matches x ≠ matchPath [.deep, .anyName] x) := by
  obtain ⟨-, other, hother, -, hmatches⟩ := ofBody?_eq_some hbody
  obtain rfl := Option.some.inj (hsegments.symm.trans hother)
  by_cases hdeep : normalise (splitSlash body) = [deepText]
  · rw [hdeep] at hsegments ⊢
    obtain rfl := (segments_eq_deep_iff hsegments).2 rfl
    cases hown : shape.matches x <;> simp [below]
  · by_cases hany : normalise (splitSlash body) = [deepText, ['*']]
    · obtain rfl := Option.some.inj (hbody.symm.trans (ofBody?_anyName hany))
      rw [hany] at hsegments ⊢
      obtain rfl : [.deep, .anyName] = segments := Option.some.inj hsegments
      have hbelow : below [.deep, .anyName] x = matchPath [.deep, .anyName] x := rfl
      rw [hbelow]
      simpa using eq_comm
    · simp [hdeep, hany, hmatches hdeep hany x hx]

/-- A line with a pattern that is no comment has a body. -/
lemma exists_first {negated : Bool} {body : Text}
    (hlooks : ¬ LooksLikeComment (signed negated body))
    (hblank : trimRight (signed negated body) ≠ [])
    (hsign : negated = false → body.head? ≠ some '!') (hnegated : negated = false) :
    ∃ c rest, dropBlanks body = c :: rest ∧ c ≠ '#' ∧ c ≠ '!' := by
  subst hnegated
  obtain ⟨blanks, hbody, hblanks⟩ := exists_dropBlanks body
  have hne : dropBlanks body ≠ [] := by
    intro hnil
    rw [hnil, List.nil_append] at hbody
    exact hblank (trimRight_eq_nil_iff.2 (hbody ▸ hblanks))
  obtain ⟨c, rest, htext⟩ := List.exists_cons_of_ne_nil hne
  rw [htext] at hbody
  refine ⟨c, rest, htext, ?_, ?_⟩
  · rintro rfl
    exact hlooks (by rw [hbody]; rfl)
  · rintro rfl
    exact hsign rfl (by rw [hbody]; rfl)

/-- What any other line becomes, and what that decides in the directory. -/
lemma exists_decision_of_body {pattern? : Option Pattern} (hbreak : '\n' ∉ line)
    (hlooks : ¬ LooksLikeComment line) (hblank : trimRight line ≠ [])
    (hpattern : Pattern.ofLine? line = .ok pattern?) (hdirectory : IsPlainDirectory directory)
    (hx : IsRelative x) :
    ∃ rebased?, Pattern.ofLine? (rebase directory line) = .ok rebased? ∧
      (decision rebased? (directory ++ '/' :: x) = decision pattern? x ↔ ¬ Skewed line x) := by
  obtain ⟨negated, body, rfl, hbodyOf, hsign⟩ := exists_signed line
  have hne : signed negated body ≠ [] := by
    intro hnil
    rw [hnil] at hblank
    exact hblank rfl
  obtain ⟨shape, hbody, hreversed, rfl⟩ :=
    (ofLine?_signed_eq_ok_iff (exists_first hlooks hblank hsign)).1 hpattern
  rw [rebase_signed hbreak hne hlooks hdirectory.ne_nil hsign]
  by_cases hspaced : Spaced body
  · obtain ⟨row, tied, hread, hsame, htied, hmatch⟩ :=
      exists_ofBody?_spaced hdirectory hspaced hbody
    have hskewed := skewed_of_spaced_iff (x := x) hlooks hblank hpattern
      (hbodyOf.symm ▸ hspaced) (hbodyOf.symm ▸ htied)
    have htext : dropBlanks (rebaseBody directory body) = directory ++ '/' :: dropBlanks body := by
      rw [dropBlanks_rebaseBody, behindDirectory_of_spaced hspaced]
    refine ⟨_, ofLine?_directory hdirectory htext hread (hsame.trans hreversed), ?_⟩
    obtain ⟨hrow, hloose⟩ := hmatch x hx.head?_ne
    rw [decision_eq_iff, hskewed, Shape.matches, hrow]
    cases htrue : tied.matches x with
    | true => simp [hloose htrue]
    | false => cases shape.matches x <;> simp
  · obtain ⟨row, segments, hread, hsame, hsegments, hmatch⟩ :=
      exists_ofBody?_rebaseBody hdirectory hspaced hbody
    have hskewed := skewed_of_not_spaced_iff (x := x) hlooks hblank hpattern
      (hbodyOf.symm ▸ hspaced)
    refine ⟨_, ofLine?_directory hdirectory (dropBlanks_rebaseBody directory body) hread
      (hsame.trans hreversed), ?_⟩
    have hrow : (Shape.segments row).matches (directory ++ '/' :: x) = below segments x :=
      hmatch x hx
    rw [decision_eq_iff, hrow, hskewed, hbodyOf, below_eq_matches_iff hbody hsegments hx.head?_ne]

/-- What a line of blanks becomes, and what that decides in the directory. -/
lemma exists_decision_of_blank {pattern? : Option Pattern} (hbreak : '\n' ∉ line)
    (hblank : trimRight line = []) (hpattern : Pattern.ofLine? line = .ok pattern?)
    (hdirectory : IsPlainDirectory directory) :
    ∃ rebased?, Pattern.ofLine? (rebase directory line) = .ok rebased? ∧
      (decision rebased? (directory ++ '/' :: x) = decision pattern? x ↔ ¬ Skewed line x) := by
  rw [ofLine?_of_nil (dropBlanks_of_blank hblank)] at hpattern
  obtain rfl := Except.ok.inj hpattern
  by_cases hne : line = []
  · subst hne
    refine ⟨none, rfl, iff_of_true rfl fun h => ?_⟩
    cases h with
    | blank hnot => contradiction
    | comment hlooks => cases hlooks
    | inside _ hother => cases hother
    | anyName _ hother => cases hother
    | spaced _ hother => cases hother
  · obtain ⟨row, hread, hmatch⟩ := ofLine?_rebase_blank hbreak hdirectory hne hblank
    refine ⟨_, hread, iff_of_false ?_ fun h => h (.blank hne hblank)⟩
    have hignored := @decision_of_matches ⟨false, .segments row⟩ _ (hmatch x)
    rw [hignored]
    exact Option.some_ne_none _

end

/-- **A line without blanks at its ends** is skewed for no path without a line feed, unless its row
is `**` alone. -/
lemma not_skewed {line x : Text} (hstart : trimLeft line = line)
    (hend : dropBlanks line = line) (hrow : normalise (splitSlash (bodyOf line)) ≠ [deepText])
    (hx : IsRelative x) (hbreak : '\n' ∉ x) : ¬ Skewed line x := by
  have hbody : dropBlanks (bodyOf line) = bodyOf line := by
    obtain ⟨negated, body, rfl, hbodyOf, -⟩ := exists_signed line
    rw [hbodyOf]
    cases negated with
    | false => exact hend
    | true => exact (List.cons.inj ((dropBlanks_sign body).symm.trans hend)).2
  have hfirst (b : Char) (rest : Text) (hline : line = b :: rest) : isBlank b = false := by
    by_contra hb
    have hle := (List.dropWhile_sublist isBlank (l := rest)).length_le
    rw [hline, trimLeft, List.dropWhile_cons_of_pos (by simpa using hb)] at hstart
    rw [hstart, List.length_cons] at hle
    omega
  intro h
  cases h with
  | blank hne hblank =>
      obtain ⟨c, rest, hline⟩ := List.exists_cons_of_ne_nil hne
      exact trimRight_ne_nil (hfirst c rest hline) (by simp [hline]) hblank
  | comment hlooks hpattern =>
      obtain ⟨b, rest, htext, hb⟩ := exists_blank_of_looksLikeComment hlooks hpattern
      rw [hend] at htext
      exact absurd hb (by simp [hfirst b rest htext])
  | inside _ _ hdeep => exact hrow (hbody ▸ hdeep)
  | anyName _ _ _ hmatch =>
      obtain ⟨before, last, tail, rfl, hbefore, hlast, hslash, htail⟩ := hx.exists_last
      have hnames : '\n' ∉ before := fun hmem => hbreak (by simp [hmem])
      have heverything : Shape.everything.matches (before ++ (last ++ tail)) = true := by
        obtain ⟨c, rest, rfl⟩ := List.exists_cons_of_ne_nil hlast
        rw [Shape.matches, List.any_eq_true]
        refine ⟨c, by simp, ?_⟩
        rw [bne_iff_ne]
        rintro rfl
        exact hbreak (by simp)
      exact hmatch (heverything.trans
        (matchPath_deep_anyName hbefore hnames hlast hslash htail).symm)
  | spaced _ _ hspaced => exact hspaced.1 hbody

/-- **A line keeps its meaning**: written for the top of the project, the line of an ignore file in
some directory is read, and decides about a path in the directory what it decides there about the
rest of the path, if and only if the line and the rest are not skewed. -/
theorem rebase_keeps_meaning_iff {line directory x : Text} {rules : Rules} (hbreak : '\n' ∉ line)
    (hdirectory : IsPlainDirectory directory) (hx : IsRelative x)
    (h : Rules.ofLines [line] = .ok rules) :
    ∃ rebased, Rules.ofLines [rebase directory line] = .ok rebased ∧
      (rebased.verdict? (directory ++ '/' :: x) = rules.verdict? x ↔ ¬ Skewed line x) := by
  obtain ⟨pattern?, hpattern⟩ := exists_ofLine?_of_ofLines h
  have hdecision : ∃ rebased?, Pattern.ofLine? (rebase directory line) = .ok rebased? ∧
      (decision rebased? (directory ++ '/' :: x) = decision pattern? x ↔ ¬ Skewed line x) := by
    by_cases hlooks : LooksLikeComment line
    · refine ⟨pattern?, ?_, decision_of_looksLikeComment_iff hlooks hpattern hdirectory hx.head?_ne⟩
      rw [rebase_looksLikeComment hbreak hlooks, hpattern]
    · by_cases hblank : trimRight line = []
      · exact exists_decision_of_blank hbreak hblank hpattern hdirectory
      · exact exists_decision_of_body hbreak hlooks hblank hpattern hdirectory hx
  obtain ⟨rebased?, hread, hiff⟩ := hdecision
  have hrules := ofLines_singleton (rebase directory line)
  rw [hread] at hrules
  refine ⟨_, hrules, ?_⟩
  rw [verdict?_of_ofLines hread hrules, verdict?_of_ofLines hpattern h,
    relative_of_directory hdirectory, hx.relative_eq]
  exact hiff

/-- A directory that may be anywhere below that of its ignore file. -/
theorem rebase_keeps_meaning_of_directory :
    ∃ rules rebased, Rules.ofLines ["Gen/".toList] = .ok rules ∧
      Rules.ofLines [rebase "a/b".toList "Gen/".toList] = .ok rebased ∧
      rebased.verdict? "a/b/x/Gen/F.cs".toList = rules.verdict? "x/Gen/F.cs".toList := by
  have hname : IsPlain "Gen".toList := by decide +kernel
  have hsegments : segments? [deepText, "Gen".toList, deepText] =
      some [.deep, spelling "Gen".toList, .deep] :=
    segments?_cons.2 ⟨_, _, rfl, segments?_cons.2 ⟨_, _, hname.ofText?, rfl, rfl⟩, rfl⟩
  have hbody : Shape.ofBody? "Gen/".toList =
      some (.segments [.deep, spelling "Gen".toList, .deep]) :=
    ofBody?_eq_segments rfl (by decide) (by decide) (by decide) (by decide) hsegments
  have hpattern : Pattern.ofLine? (signed false "Gen/".toList) = _ :=
    (ofLine?_signed_eq_ok_iff fun _ => ⟨'G', "en/".toList, by decide⟩).2 ⟨_, hbody, rfl, rfl⟩
  have hrules := ofLines_singleton "Gen/".toList
  rw [show "Gen/".toList = signed false "Gen/".toList from rfl, hpattern] at hrules
  have hnames : ∀ name ∈ ["a".toList, "b".toList], IsPlain name := by decide +kernel
  have hdirectory : IsPlainDirectory "a/b".toList :=
    ⟨["a".toList, "b".toList], by decide, hnames, rfl⟩
  have hpath : IsRelative "x/Gen/F.cs".toList :=
    ⟨["x".toList, "Gen".toList, "F.cs".toList], by decide, by decide, .inl rfl⟩
  obtain ⟨rebased, hread, hiff⟩ :=
    rebase_keeps_meaning_iff (by decide) hdirectory hpath hrules
  refine ⟨_, rebased, hrules, hread, hiff.2 ?_⟩
  exact not_skewed (by decide) (by decide) (by decide) hpath (by decide)

/-- Three blanks hold no pattern; in a nested file, they become one for all of its directory. -/
theorem blanks_lose_meaning :
    ∃ rules rebased, Rules.ofLines ["   ".toList] = .ok rules ∧
      Rules.ofLines [rebase "d".toList "   ".toList] = .ok rebased ∧
      rules.verdict? "A.cs".toList = none ∧
      rebased.verdict? "d/A.cs".toList = some .ignored := by
  have hdirectory : IsPlainDirectory "d".toList :=
    ⟨["d".toList], by decide, by decide +kernel, rfl⟩
  have hblank : Pattern.ofLine? "   ".toList = .ok none := rfl
  obtain ⟨row, hread, hmatch⟩ :=
    ofLine?_rebase_blank (by decide : '\n' ∉ "   ".toList) hdirectory (by decide) (by decide)
  have hrules := ofLines_singleton "   ".toList
  have hrebased := ofLines_singleton (rebase "d".toList "   ".toList)
  rw [hblank] at hrules
  rw [hread] at hrebased
  refine ⟨_, _, hrules, hrebased, verdict?_of_ofLines hblank hrules _, ?_⟩
  rw [verdict?_of_ofLines hread hrebased,
    show "d/A.cs".toList = "d".toList ++ '/' :: "A.cs".toList from rfl,
    relative_of_directory hdirectory]
  exact decision_of_matches (hmatch _)

end Ignore

end GeneratedCode
