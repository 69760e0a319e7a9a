import Mathlib.Tactic
import GeneratedCode.Proofs.Ignore.Rebase

/-!
What the lines of a nested ignore file become.

A line of blanks becomes one that matches all of its directory (`ofLine?_rebase_blank`), and what
looks like a comment stays as it is (`rebase_looksLikeComment`). Of any other line, the body is
rewritten (`HasBody.rebase_eq`).

* `matches_of_looksLikeComment`: a pattern that looks like a comment matches in the directory what
  it matches at the top, or nothing if it is tied to its place.
* `exists_ofBody?_rebaseBody`: the rewritten body matches what its row matches below the directory.
* `exists_ofBody?_spaced`: a directory with blanks behind its slash matches only what it would if
  it were tied to its place.
-/

namespace GeneratedCode

namespace Ignore

open Text GeneratedCode.Path

/-! ### Directories and paths -/

/-- A directory below the top whose names are made of word characters. -/
def IsPlainDirectory (directory : Text) : Prop :=
  ∃ names, names ≠ [] ∧ (∀ name ∈ names, IsPlain name) ∧ directory = joinSlash names

/-- A path from some directory, with or without a slash at its end. -/
def IsRelative (path : Text) : Prop :=
  ∃ names, names ≠ [] ∧ (∀ name ∈ names, name ≠ [] ∧ name ≠ ['.'] ∧ '/' ∉ name) ∧
    (path = joinSlash names ∨ path = joinSlash names ++ ['/'])

lemma IsPlainDirectory.exists_cons {directory : Text} (h : IsPlainDirectory directory) :
    ∃ c rest, directory = c :: rest ∧ isWordChar c = true := by
  obtain ⟨names, hne, hplain, rfl⟩ := h
  obtain ⟨name, names, rfl⟩ := List.exists_cons_of_ne_nil hne
  obtain ⟨hname, hword⟩ := hplain name (by simp)
  obtain ⟨c, name, rfl⟩ := List.exists_cons_of_ne_nil hname
  obtain ⟨rest, hrest⟩ := exists_joinSlash c name names
  exact ⟨c, rest, hrest, hword c (by simp)⟩

lemma IsPlainDirectory.ne_nil {directory : Text} (h : IsPlainDirectory directory) :
    directory ≠ [] := by
  obtain ⟨c, rest, rfl, -⟩ := h.exists_cons
  simp

/-- A path in a directory starts with a word character. -/
lemma IsPlainDirectory.head?_ne {directory : Text} (h : IsPlainDirectory directory) {c : Char}
    (hc : isWordChar c = false) (path : Text) : (directory ++ path).head? ≠ some c := by
  obtain ⟨d, rest, rfl, hd⟩ := h.exists_cons
  intro heq
  obtain rfl : d = c := Option.some.inj heq
  exact absurd hd (by simp [hc])

namespace IsRelative

variable {path : Text}

/-- No piece of a path is empty or a dot, but for the one behind a slash at the end. -/
lemma piece_ne (h : IsRelative path) (before : List Text) {after : List Text} {name : Text}
    (hpieces : splitSlash path = before ++ name :: after) (hafter : after ≠ []) :
    name ≠ [] ∧ name ≠ ['.'] := by
  obtain ⟨names, hne, hnames, hpath⟩ := h
  have hslash (other : Text) (hother : other ∈ names) : '/' ∉ other := (hnames other hother).2.2
  suffices hmem : name ∈ names from ⟨(hnames name hmem).1, (hnames name hmem).2.1⟩
  rcases hpath with hpath | hpath
  · rw [hpath, splitSlash_joinSlash hne hslash] at hpieces
    simp [hpieces]
  · rw [hpath, splitSlash_append, splitSlash_joinSlash hne hslash] at hpieces
    have hlast := congrArg List.dropLast hpieces
    have hsplit : name :: after = [name] ++ after := rfl
    rw [hsplit, ← List.append_assoc, List.dropLast_append_of_ne_nil hafter] at hlast
    rw [show names = _ from (by simpa [splitSlash] using hlast)]
    simp

lemma head?_ne (h : IsRelative path) : path.head? ≠ some '/' := by
  intro heq
  obtain ⟨rest, rfl⟩ := List.head?_eq_some_iff.1 heq
  exact (h.piece_ne [] rfl (splitSlash_ne_nil rest)).1 rfl

/-- A path does not start with what says nothing. -/
lemma relative_eq (h : IsRelative path) : relative path = path := by
  rw [relative.eq_def]
  split
  · next path => exact absurd rfl h.head?_ne
  · next path => exact absurd rfl (h.piece_ne [] rfl (splitSlash_ne_nil path)).2
  · rfl

/-- No path has two slashes in a row. -/
lemma not_double (h : IsRelative path) (r : Text) : ¬ '/' :: '/' :: r <:+ path := by
  rintro ⟨before, rfl⟩
  exact (h.piece_ne _ (splitSlash_append before ('/' :: r)) (splitSlash_ne_nil r)).1 rfl

/-- A path ends with its last name, with or without a slash behind it. -/
lemma exists_last (h : IsRelative path) :
    ∃ before last tail, path = before ++ (last ++ tail) ∧
      (before = [] ∨ ∃ c m, before = c :: (m ++ ['/'])) ∧ last ≠ [] ∧ '/' ∉ last ∧
      (tail = [] ∨ tail = ['/']) := by
  obtain ⟨names, hne, hnames, hpath⟩ := h
  obtain ⟨tail, htail, rfl⟩ : ∃ tail, (tail = [] ∨ tail = ['/']) ∧
      path = joinSlash names ++ tail := by
    rcases hpath with rfl | rfl
    · exact ⟨[], .inl rfl, by simp⟩
    · exact ⟨['/'], .inr rfl, rfl⟩
  obtain ⟨names, last, rfl⟩ := (List.eq_nil_or_concat names).resolve_left hne
  rw [List.concat_eq_append] at hnames ⊢
  obtain ⟨hlast, -, hslash⟩ := hnames last (by simp)
  cases names with
  | nil => exact ⟨[], last, tail, rfl, .inl rfl, hlast, hslash, htail⟩
  | cons name names =>
      obtain ⟨c, name, rfl⟩ := List.exists_cons_of_ne_nil (hnames name (by simp)).1
      obtain ⟨rest, hrest⟩ := exists_joinSlash c name names
      refine ⟨c :: (rest ++ ['/']), last, tail, ?_, .inr ⟨c, rest, rfl⟩, hlast, hslash, htail⟩
      rw [joinSlash_concat (by simp), hrest]
      simp

end IsRelative

/-- The directory in front of a path is not left out. -/
lemma relative_of_directory {directory : Text} (h : IsPlainDirectory directory) (path : Text) :
    relative (directory ++ '/' :: path) = directory ++ '/' :: path := by
  rw [relative.eq_def]
  split
  · next heq => exact absurd (congrArg List.head? heq) (h.head?_ne (by decide +kernel) _)
  · next heq => exact absurd (congrArg List.head? heq) (h.head?_ne (by decide +kernel) _)
  · rfl

/-! ### Lines that are rewritten -/

/-- The line without the sign that negates it. -/
def bodyOf : Text → Text
  | '!' :: rest => rest
  | line => line

/-- A line is its body, signed or not. -/
lemma exists_signed (line : Text) :
    ∃ negated body, line = signed negated body ∧ bodyOf line = body ∧
      (negated = false → body.head? ≠ some '!') := by
  rw [bodyOf.eq_def]
  split
  · next rest => exact ⟨true, rest, rfl, rfl, by simp⟩
  · next hsign =>
      refine ⟨false, line, rfl, rfl, fun _ hhead => ?_⟩
      obtain ⟨rest, rfl⟩ := List.head?_eq_some_iff.1 hhead
      exact hsign rest rfl

section

variable {directory line body : Text} {negated : Bool}

/-- A line that is rewritten: not empty and no comment, but a body, signed or not. Line feeds at its
end do not count. -/
structure HasBody (line : Text) (negated : Bool) (body : Text) : Prop where
  dropEnd_eq : dropEnd '\n' line = signed negated body
  ne_nil : signed negated body ≠ []
  not_looksLikeComment : ¬ LooksLikeComment (signed negated body)
  sign : negated = false → body.head? ≠ some '!'

/-- A line that has a body keeps its sign, and the body is rewritten. -/
lemma HasBody.rebase_eq (h : HasBody line negated body) (hdirectory : directory ≠ []) :
    rebase directory line = signed negated (rebaseBody directory body) := by
  have hcomment := h.not_looksLikeComment
  rw [LooksLikeComment] at hcomment
  rw [rebase, h.dropEnd_eq]
  simp only [List.isEmpty_eq_false_iff.2 h.ne_nil, hcomment,
    List.isEmpty_eq_false_iff.2 hdirectory, decide_false, Bool.or_false, Bool.false_eq_true,
    if_false]
  cases negated with
  | true => rfl
  | false =>
      rw [signed, if_neg (by simp)]
      split
      · exact absurd rfl (h.sign rfl)
      · rfl

lemma rebase_signed (hbreak : '\n' ∉ signed negated body) (hne : signed negated body ≠ [])
    (hcomment : ¬ LooksLikeComment (signed negated body)) (hdirectory : directory ≠ [])
    (hsign : negated = false → body.head? ≠ some '!') :
    rebase directory (signed negated body) = signed negated (rebaseBody directory body) :=
  HasBody.rebase_eq ⟨dropEnd_of_notMem hbreak, hne, hcomment, hsign⟩ hdirectory

/-- What looks like a comment is not rewritten, but for line feeds at its end. -/
lemma rebase_of_looksLikeComment (h : LooksLikeComment (dropEnd '\n' line)) :
    rebase directory line = dropEnd '\n' line := by
  rw [LooksLikeComment] at h
  rw [rebase]
  simp [h]

lemma rebase_looksLikeComment (hbreak : '\n' ∉ line) (h : LooksLikeComment line) :
    rebase directory line = line := by
  rw [← dropEnd_of_notMem hbreak] at h
  rw [rebase_of_looksLikeComment h, dropEnd_of_notMem hbreak]

/-- A body in a directory is read behind its sign, or without one. -/
lemma ofLine?_directory (hdirectory : IsPlainDirectory directory) {s : Text} {row : List Segment}
    (htext : dropBlanks body = directory ++ '/' :: s)
    (hbody : Shape.ofBody? (directory ++ '/' :: s) = some (.segments row))
    (hreversed : (Shape.segments row).isReversed = false) :
    Pattern.ofLine? (signed negated body) = .ok (some ⟨negated, .segments row⟩) := by
  obtain ⟨c, rest, hcons, -⟩ := hdirectory.exists_cons
  have hne (d : Char) (hd : isWordChar d = false) : c ≠ d := by
    rintro rfl
    exact hdirectory.head?_ne hd [] (by simp [hcons])
  have hfirst : ∃ d more, dropBlanks body = d :: more ∧ d ≠ '#' ∧ d ≠ '!' :=
    ⟨c, _, by rw [htext, hcons]; rfl, hne '#' (by decide +kernel), hne '!' (by decide +kernel)⟩
  exact (ofLine?_signed_eq_ok_iff fun _ => hfirst).2 ⟨_, htext ▸ hbody, hreversed, rfl⟩

/-- **A line of blanks** holds no pattern, but becomes one that matches all of its directory. -/
lemma ofLine?_rebase_blank (hbreak : '\n' ∉ line) (hdirectory : IsPlainDirectory directory)
    (hne : line ≠ []) (hblank : trimRight line = []) :
    ∃ row, Pattern.ofLine? (rebase directory line) = .ok (some ⟨false, .segments row⟩) ∧
      ∀ x, matchPath row (directory ++ '/' :: x) = true := by
  have hnotMem (c : Char) (hc : isBlank c = false) : c ∉ line :=
    fun hmem => trimRight_ne_nil hc hmem hblank
  have hhead (c : Char) (hc : isBlank c = false) : line.head? ≠ some c :=
    fun heq => hnotMem c hc (List.mem_of_mem_head? heq)
  have hcomment : ¬ LooksLikeComment line :=
    fun hlooks => hnotMem '#' rfl (mem_of_looksLikeComment hlooks)
  have hbehind : behindDirectory line = deepText ++ '/' :: line := by
    rw [behindDirectory, if_neg (hhead '/' rfl), dropEnd_of_notMem (hnotMem '/' rfl),
      if_neg (by simpa using hnotMem '/' rfl)]
    rfl
  have htext : dropBlanks (rebaseBody directory line) = directory ++ '/' :: "**/".toList := by
    calc dropBlanks (rebaseBody directory line)
        = directory ++ '/' :: (deepText ++ '/' :: dropBlanks line) := by
          rw [dropBlanks_rebaseBody, hbehind, dropBlanks_slash]
      _ = directory ++ '/' :: "**/".toList := by rw [dropBlanks_of_blank hblank]; rfl
  have hrebase : rebase directory (signed false line) = signed false (rebaseBody directory line) :=
    rebase_signed hbreak hne hcomment hdirectory.ne_nil fun _ => hhead '!' rfl
  have hrow : segments? (tiedRow (splitSlash "**/".toList)) = some [.deep] := rfl
  obtain ⟨names, hnames, hplain, rfl⟩ := id hdirectory
  obtain ⟨row, hbody, hreversed, hmatch⟩ := ofBody?_names hnames hplain hrow
  refine ⟨row, ?_, fun x => ?_⟩
  · rw [show line = signed false line from rfl, hrebase]
    exact ofLine?_directory hdirectory htext hbody hreversed
  · rw [hmatch, below]
    rfl

end

/-! ### Patterns that look like comments -/

/-- A body without a slash but at its end, which may match in any directory. -/
def Roams (body : Text) : Prop :=
  ∃ name, splitSlash body = [name] ∨ splitSlash body = [name, []]

/-- A pattern that looks like a comment starts with a blank. -/
lemma exists_blank_of_looksLikeComment {line : Text} {pattern : Pattern} (h : LooksLikeComment line)
    (hpattern : Pattern.ofLine? line = .ok (some pattern)) :
    ∃ b rest, dropBlanks line = b :: rest ∧ isBlank b = true := by
  have hmem : '#' ∈ dropBlanks line :=
    (mem_dropBlanks_iff rfl line).2 (mem_of_looksLikeComment h)
  obtain ⟨b, rest, htext⟩ := List.exists_cons_of_ne_nil (List.ne_nil_of_mem hmem)
  obtain ⟨blanks, hline, -⟩ := exists_dropBlanks line
  rw [htext, List.cons_append] at hline
  refine ⟨b, rest, htext, ?_⟩
  by_contra hb
  rw [LooksLikeComment, hline, trimLeft, List.dropWhile_cons_of_neg hb] at h
  obtain rfl := Option.some.inj h
  rw [hline, ofLine?_comment] at hpattern
  cases hpattern

/-- The row of a body, by whether its first name is tied to its place. -/
lemma exists_normalise {body name : Text} {pieces : List Text} (hname : name ≠ [])
    (hdeep : name ≠ deepText) (hpieces : splitSlash body = name :: pieces) :
    ∃ more, Roams body ∧ normalise (splitSlash body) = deepText :: name :: more ∨
      ¬ Roams body ∧ normalise (splitSlash body) = name :: more := by
  rw [hpieces, normalise_eq]
  by_cases hroams : Roams body
  · obtain ⟨other, hother⟩ := hroams
    rw [hpieces] at hother
    rcases hother with hother | hother
    · obtain ⟨rfl, rfl⟩ := List.cons.inj hother
      refine ⟨[], .inl ⟨⟨name, .inl hpieces⟩, ?_⟩⟩
      simp [placed_singleton hname, tiedRow, opened, collapseDeep, hdeep, hname]
    · obtain ⟨rfl, rfl⟩ := List.cons.inj hother
      refine ⟨[deepText], .inl ⟨⟨name, .inr hpieces⟩, ?_⟩⟩
      simp [placed_pair hname, tiedRow, opened, collapseDeep, hdeep]
  · have hplaced : placed (name :: pieces) = name :: pieces := by
      refine placed_of_ne (by simpa using hname) (fun other heq => ?_) fun other heq => ?_
      · exact hroams ⟨other, .inl (hpieces.trans heq)⟩
      · exact hroams ⟨other, .inr (hpieces.trans heq)⟩
    obtain ⟨more, hmore⟩ := List.head?_eq_some_iff.1 (head?_tiedRow hname pieces)
    exact ⟨more, .inr ⟨hroams, by rw [hplaced, hmore]⟩⟩

/-- The row of a body that starts with a blank. -/
lemma exists_row_of_blank {b : Char} (hb : isBlank b = true) {rest : Text} {shape : Shape}
    (hbody : Shape.ofBody? (b :: rest) = some shape) :
    ∃ g row, Roams (b :: rest) ∧ (∀ x, x.head? ≠ some '/' →
        shape.matches x = matchPath (.deep :: .glob (.one (.exactly b) :: g) :: row) x) ∨
      ¬ Roams (b :: rest) ∧ ∀ x, x.head? ≠ some '/' →
        shape.matches x = matchPath (.glob (.one (.exactly b) :: g) :: row) x := by
  have hne (c : Char) (hc : isBlank c = false) : b ≠ c := by
    rintro rfl
    rw [hb] at hc
    contradiction
  have hread {piece : Text} {first : Segment} (h : Segment.ofText? (b :: piece) = some first) :
      ∃ g, first = .glob (.one (.exactly b) :: g) :=
    ofText?_cons (hne '*' rfl) (hne '?' rfl) (hne '\\' rfl)
      (hne '[' rfl) h
  obtain ⟨-, segments, hsegments, -, hmatches⟩ := ofBody?_eq_some hbody
  obtain ⟨piece, pieces, hpieces⟩ : ∃ piece pieces,
      splitSlash (b :: rest) = (b :: piece) :: pieces := by
    obtain ⟨piece, pieces, h⟩ := List.exists_cons_of_ne_nil (splitSlash_ne_nil rest)
    exact ⟨piece, pieces, by rw [splitSlash, if_neg (hne '/' rfl), h]⟩
  have hstar : b ≠ '*' := hne '*' rfl
  obtain ⟨more, ⟨hroams, hrow⟩ | ⟨hroams, hrow⟩⟩ :=
    exists_normalise (by simp) (by simp [deepText, hstar]) hpieces
  · rw [hrow] at hsegments hmatches
    obtain ⟨_, _, hdeep, hrest, rfl⟩ := segments?_cons.1 hsegments
    obtain rfl := Option.some.inj hdeep
    obtain ⟨first, row, hfirst, -, rfl⟩ := segments?_cons.1 hrest
    obtain ⟨g, rfl⟩ := hread hfirst
    refine ⟨g, row, .inl ⟨hroams, fun x hx => ?_⟩⟩
    rw [hmatches (by simp) (by simp [hstar]) x hx, below]
    simp
  · rw [hrow] at hsegments hmatches
    obtain ⟨first, row, hfirst, -, rfl⟩ := segments?_cons.1 hsegments
    obtain ⟨g, rfl⟩ := hread hfirst
    refine ⟨g, row, .inr ⟨hroams, fun x hx => ?_⟩⟩
    rw [hmatches (by simp [deepText, hstar]) (by simp [deepText, hstar]) x hx, below]
    simp

/-- In front of any directory and a first blank, the names of a directory are passed. -/
lemma matchPath_past_names {b : Char} (hb : isBlank b = true) {g : Glob} {row : List Segment}
    {names : List Text} (hnames : names ≠ []) (hplain : ∀ name ∈ names, IsPlain name) {x : Text}
    (hx : x.head? ≠ some '/') :
    matchPath (.deep :: .glob (.one (.exactly b) :: g) :: row) (joinSlash names ++ '/' :: x) =
      matchPath (.deep :: .glob (.one (.exactly b) :: g) :: row) x := by
  have hpast (name : Text) (hname : IsPlain name) {y : Text} (hy : y.head? ≠ some '/') :
      matchPath (.deep :: .glob (.one (.exactly b) :: g) :: row) (name ++ '/' :: y) =
        matchPath (.deep :: .glob (.one (.exactly b) :: g) :: row) y := by
    refine matchPath_past_name hname.1 hname.slash_notMem (hname.notMem (by decide +kernel)) ?_ hy
    exact fun heq => hname.notMem (isWordChar_of_isBlank hb) (List.mem_of_mem_head? heq)
  induction names with
  | nil => contradiction
  | cons name names ih =>
      have hname := hplain name (by simp)
      cases names with
      | nil => exact hpast name hname hx
      | cons second names =>
          have hrest : ∀ other ∈ second :: names, IsPlain other :=
            fun other hother => hplain other (by simp [hother])
          have hhead : (joinSlash (second :: names) ++ '/' :: x).head? ≠ some '/' :=
            IsPlainDirectory.head?_ne ⟨_, List.cons_ne_nil second names, hrest, rfl⟩
              (by decide +kernel) _
          rw [joinSlash, List.append_assoc, List.cons_append, hpast name hname hhead,
            ih (by simp) hrest]
          simp

/-- **A pattern that looks like a comment** stays as it is: tied to its place, it matches nothing in
a directory; otherwise, it matches there what it matches at the top. -/
lemma matches_of_looksLikeComment {line directory x : Text} {pattern : Pattern}
    (h : LooksLikeComment line) (hpattern : Pattern.ofLine? line = .ok (some pattern))
    (hdirectory : IsPlainDirectory directory) (hx : x.head? ≠ some '/') :
    Roams (dropBlanks line) ∧
        pattern.shape.matches (directory ++ '/' :: x) = pattern.shape.matches x ∨
      ¬ Roams (dropBlanks line) ∧ pattern.shape.matches (directory ++ '/' :: x) = false := by
  obtain ⟨b, rest, htext, hb⟩ := exists_blank_of_looksLikeComment h hpattern
  have hfirst : ∃ c more, dropBlanks line = c :: more ∧ c ≠ '#' ∧ c ≠ '!' := by
    refine ⟨b, rest, htext, ?_, ?_⟩
    · rintro rfl
      contradiction
    · rintro rfl
      contradiction
  have hread : Pattern.ofLine? (signed false line) = .ok (some pattern) := hpattern
  obtain ⟨shape, hbody, -, heq⟩ := (ofLine?_signed_eq_ok_iff fun _ => hfirst).1 hread
  obtain rfl := Option.some.inj heq
  have hhead := hdirectory.head?_ne (by decide +kernel : isWordChar '/' = false) ('/' :: x)
  rw [htext] at hbody ⊢
  obtain ⟨g, row, ⟨hroams, hmatches⟩ | ⟨hroams, hmatches⟩⟩ := exists_row_of_blank hb hbody
  · refine .inl ⟨hroams, ?_⟩
    obtain ⟨names, hnames, hplain, rfl⟩ := id hdirectory
    calc shape.matches (joinSlash names ++ '/' :: x)
        = matchPath (.deep :: .glob (.one (.exactly b) :: g) :: row)
            (joinSlash names ++ '/' :: x) := hmatches _ hhead
      _ = matchPath (.deep :: .glob (.one (.exactly b) :: g) :: row) x :=
          matchPath_past_names hb hnames hplain hx
      _ = shape.matches x := (hmatches x hx).symm
  · refine .inr ⟨hroams, ?_⟩
    rw [hmatches _ hhead]
    exact matchPath_of_head_ne (hdirectory.head?_ne (isWordChar_of_isBlank hb) _)

/-! ### Any other line -/

section

variable {directory body x : Text} {shape : Shape}

/-- A name of no characters is in no path, behind any directory or not. -/
lemma below_of_double {first : Segment} (hfirst : first ≠ .deep) {row : List Segment}
    (hrow : row ≠ []) (hx : IsRelative x) :
    below (first :: .glob [] :: row) x = false ∧
      below (.deep :: first :: .glob [] :: row) x = false := by
  rw [below, below, matchPath_tied hfirst, matchPath,
    matchRow_of_double hfirst hrow (by simpa using hx.not_double),
    matchRow_of_double hfirst hrow (by simpa [behindDirectories] using hx.not_double)]
  simp

/-- **A body that is not spaced** becomes one that matches what its row matches below the
directory. -/
lemma exists_ofBody?_rebaseBody (hdirectory : IsPlainDirectory directory) (hspaced : ¬ Spaced body)
    (hbody : Shape.ofBody? (dropBlanks body) = some shape) :
    ∃ row segments,
      Shape.ofBody? (directory ++ '/' :: dropBlanks (behindDirectory body)) =
        some (.segments row) ∧
      (Shape.segments row).isReversed = shape.isReversed ∧
      segments? (normalise (splitSlash (dropBlanks body))) = some segments ∧
      ∀ x, IsRelative x → matchPath row (directory ++ '/' :: x) = below segments x := by
  obtain ⟨hplaced, segments, hsegments, hreversed, -⟩ := ofBody?_eq_some hbody
  have hne : dropBlanks body ≠ [] := by
    intro hnil
    rw [hnil] at hplaced
    exact hplaced rfl
  obtain ⟨names, hnames, hplain, rfl⟩ := hdirectory
  obtain htied | ⟨name, rest, hdeep, hrest, hrow, htied⟩ := tiedRow_behindDirectory hspaced hne
  · rw [← htied] at hsegments ⊢
    obtain ⟨row, hread, hsame, hmatch⟩ := ofBody?_names hnames hplain hsegments
    exact ⟨row, segments, hread, hsame.trans hreversed.symm, hsegments, fun x _ => hmatch x⟩
  · -- with several slashes at the end, the line is tied and the rewritten one is not; but both ask
    -- for a name of no characters
    rw [hrow] at hsegments ⊢
    obtain ⟨first, tail, hfirst, htail, rfl⟩ := segments?_cons.1 hsegments
    obtain ⟨empty, more, hempty, hmore, rfl⟩ := segments?_cons.1 htail
    have hglob : Segment.ofText? [] = some (.glob []) := by
      simp [Segment.ofText?, Glob.ofText?, Glob.ofTextFrom, deepText]
    obtain rfl := Option.some.inj (hglob.symm.trans hempty)
    have hfirstDeep : first ≠ .deep := by
      rintro rfl
      exact hdeep (ofText?_eq_deep_iff.1 hfirst)
    have hread : segments? (tiedRow (splitSlash (dropBlanks (behindDirectory body)))) =
        some (.deep :: first :: .glob [] :: more) := by
      rw [htied]
      exact segments?_cons.2 ⟨_, _, rfl, hsegments, rfl⟩
    obtain ⟨row, hread, hsame, hmatch⟩ := ofBody?_names hnames hplain hread
    refine ⟨row, _, hread, hsame.trans hreversed.symm, hsegments, fun x hx => ?_⟩
    obtain ⟨hbelow, hdeepBelow⟩ := below_of_double hfirstDeep (segments_ne_nil hrest hmore) hx
    rw [hmatch, hbelow, hdeepBelow]

/-- The row of a directory with blanks behind its slash. -/
lemma normalise_of_spaced (h : Spaced body) :
    ∃ name, name ≠ deepText ∧
      normalise (splitSlash (dropBlanks body)) = [deepText, name, deepText] ∧
      tiedRow (splitSlash (dropBlanks body)) = [name, deepText] := by
  obtain ⟨-, name, hname, hdeep, hpieces⟩ := h
  refine ⟨name, hdeep, ?_, ?_⟩
  · rw [hpieces, normalise_eq, placed_pair hname]
    simp [tiedRow, opened, collapseDeep, hdeep]
  · rw [hpieces]
    simp [tiedRow, opened, collapseDeep, hdeep]

/-- **A directory with blanks behind its slash** is tied to its place, where it matches no more than
it should. -/
lemma exists_ofBody?_spaced (hdirectory : IsPlainDirectory directory) (hspaced : Spaced body)
    (hbody : Shape.ofBody? (dropBlanks body) = some shape) :
    ∃ row tied, Shape.ofBody? (directory ++ '/' :: dropBlanks body) = some (.segments row) ∧
      (Shape.segments row).isReversed = shape.isReversed ∧
      Shape.ofBody? ('/' :: dropBlanks body) = some tied ∧
      ∀ x, x.head? ≠ some '/' → matchPath row (directory ++ '/' :: x) = tied.matches x ∧
        (tied.matches x = true → shape.matches x = true) := by
  obtain ⟨-, segments, hsegments, hreversed, hmatches⟩ := ofBody?_eq_some hbody
  obtain ⟨names, hnames, hplain, rfl⟩ := hdirectory
  obtain ⟨name, hdeep, hrow, htied⟩ := normalise_of_spaced hspaced
  rw [hrow] at hsegments hmatches
  obtain ⟨_, rest, hfirst, hrest, rfl⟩ := segments?_cons.1 hsegments
  obtain rfl := Option.some.inj hfirst
  obtain ⟨row, hread, hsame, hmatch⟩ := ofBody?_names hnames hplain (htied ▸ hrest)
  obtain ⟨first, more, hname, -, rfl⟩ := segments?_cons.1 hrest
  have hfirstDeep : first ≠ .deep := by
    rintro rfl
    exact hdeep (ofText?_eq_deep_iff.1 hname)
  have hslash : normalise (splitSlash ('/' :: dropBlanks body)) = [name, deepText] := by
    rw [splitSlash, if_pos rfl, normalise_eq, ← htied]
    rfl
  have htiedBody : Shape.ofBody? ('/' :: dropBlanks body) = some (.segments (first :: more)) :=
    ofBody?_eq_segments hslash (by simp) (by simp [hdeep]) (by simp) (by simp) hrest
  refine ⟨row, _, hread, hsame.trans hreversed.symm, htiedBody, fun x hx => ⟨?_, ?_⟩⟩
  · rw [hmatch, below, Shape.matches]
    simp [hfirstDeep]
  · intro htrue
    rw [hmatches (by simp) (by simp) x hx, below, matchPath_deep_of_tied hfirstDeep htrue]
    simp

end

end Ignore

end GeneratedCode
