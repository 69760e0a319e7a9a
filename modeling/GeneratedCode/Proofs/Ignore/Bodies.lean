import Mathlib.Tactic
import GeneratedCode.Text.WordChar
import GeneratedCode.Proofs.Ignore.Directories
import GeneratedCode.Proofs.Path.Pieces

/-!
Bodies of patterns, and how they read below a directory.

Reading a body has two parts. What its slashes say about the place is put into words (`placed`),
and the pieces are then a row that is tied to the top (`tiedRow`); `normalise_eq` puts the two
together. A body below a directory is tied to the top by the names of the directory, so only the
second part is left (`normalise_names`), unless there is a single name and nothing behind it
(`normalise_inside`).

* `ofBody?_names`: what a body says in a directory, if its row can be read.
* `ofBody?_eq_some`: what it says at the top; three rows are read as if they meant less.
-/

namespace GeneratedCode

namespace Text

/-- No range of word characters has a blank in it. -/
lemma wordChars_spare_blanks :
    ∀ r ∈ wordChars.rows.toList, 0x20 < r.1 ∧ (r.2 < 0x85 ∨ 0x85 < r.1) ∧
      (r.2 < 0xA0 ∨ 0xA0 < r.1) ∧ (r.2 < 0x1680 ∨ 0x1680 < r.1) ∧ (r.2 < 0x2000 ∨ 0x200A < r.1) ∧
      (r.2 < 0x2028 ∨ 0x2029 < r.1) ∧ (r.2 < 0x202F ∨ 0x202F < r.1) ∧
      (r.2 < 0x205F ∨ 0x205F < r.1) ∧ (r.2 < 0x3000 ∨ 0x3000 < r.1) := by
  decide +kernel

/-- No blank is part of a word. -/
lemma isWordChar_of_isBlank {c : Char} (h : isBlank c = true) : isWordChar c = false := by
  by_contra hword
  rw [Bool.not_eq_false, isWordChar] at hword
  obtain ⟨r, hr, hfirst, hlast⟩ := Ranges.exists_of_contains hword
  have hspare := wordChars_spare_blanks r (Array.mem_toList_iff.2 hr)
  simp only [isBlank, Bool.or_eq_true, Bool.and_eq_true, decide_eq_true_eq, beq_iff_eq] at h
  omega

end Text

namespace Ignore

open Text GeneratedCode.Path

/-! ### Rows that are tied to the top -/

/-- The pieces of a body with the words for the place that its slashes give. -/
def placed : List Text → List Text
  | [] :: rest => rest
  | [piece] => [deepText, piece]
  | [piece, []] => [deepText, piece, []]
  | rest => rest

/-- The pieces with the word for what lies inside, if the last one is empty. -/
def opened (pieces : List Text) : List Text :=
  if pieces.getLast? = some [] then pieces.dropLast ++ [deepText] else pieces

/-- The row of some pieces, the first of which stands at the top. -/
def tiedRow (pieces : List Text) : List Text :=
  collapseDeep (opened pieces)

lemma normalise_eq (pieces : List Text) : normalise pieces = tiedRow (placed pieces) := by
  rw [tiedRow, opened]
  match pieces with
  | [] => rfl
  | [] :: rest => rfl
  | [c :: piece] =>
      by_cases h : c :: piece = deepText
      · rw [h]
        rfl
      · simp only [normalise, placed, if_neg h]
        rfl
  | [c :: piece, []] =>
      by_cases h : c :: piece = deepText
      · rw [h]
        rfl
      · simp only [normalise, placed, if_neg h]
        rfl
  | (c :: piece) :: (d :: second) :: rest => rfl
  | (c :: piece) :: [] :: third :: rest => rfl

lemma head?_collapseDeep (pieces : List Text) : (collapseDeep pieces).head? = pieces.head? := by
  induction pieces with
  | nil => rfl
  | cons piece pieces ih =>
      rw [collapseDeep]
      split
      · next h =>
          rw [Bool.and_eq_true, decide_eq_true_eq, decide_eq_true_eq] at h
          rw [ih, h.2, h.1]
          rfl
      · rfl

/-- No `**` is left behind another. -/
lemma collapseDeep_ne (pieces more : List Text) :
    collapseDeep pieces ≠ deepText :: deepText :: more := by
  induction pieces with
  | nil => simp [collapseDeep]
  | cons piece pieces ih =>
      rw [collapseDeep]
      split
      · exact ih
      · next h =>
          rintro heq
          obtain ⟨rfl, htail⟩ := List.cons.inj heq
          have hhead := head?_collapseDeep pieces
          rw [htail] at hhead
          exact h (by simp [← hhead])

lemma collapseDeep_append {names : List Text} (h : deepText ∉ names) (pieces : List Text) :
    collapseDeep (names ++ pieces) = names ++ collapseDeep pieces := by
  induction names with
  | nil => rfl
  | cons name names ih =>
      have hname : name ≠ deepText := fun heq => h (by simp [heq])
      have hnames : deepText ∉ names := fun hmem => h (by simp [hmem])
      rw [List.cons_append, collapseDeep, if_neg (by simp [hname]), ih hnames]
      rfl

lemma opened_append (names : List Text) {pieces : List Text} (h : pieces ≠ []) :
    opened (names ++ pieces) = names ++ opened pieces := by
  rw [opened, opened, List.getLast?_append_of_ne_nil _ h, List.dropLast_append_of_ne_nil h]
  split
  · rw [List.append_assoc]
  · rfl

/-- Behind the names of a directory, a row is what it is on its own. -/
lemma tiedRow_names {names : List Text} (hnames : deepText ∉ names) {pieces : List Text}
    (h : pieces ≠ []) : tiedRow (names ++ pieces) = names ++ tiedRow pieces := by
  rw [tiedRow, tiedRow, opened_append names h, collapseDeep_append hnames]

lemma tiedRow_ne_nil {pieces : List Text} (h : pieces ≠ []) : tiedRow pieces ≠ [] := by
  intro hnil
  have hhead := head?_collapseDeep (opened pieces)
  rw [← tiedRow, hnil, eq_comm, List.head?_nil, List.head?_eq_none_iff, opened] at hhead
  split at hhead
  · simp at hhead
  · exact h hhead

lemma head?_tiedRow {piece : Text} (h : piece ≠ []) (pieces : List Text) :
    (tiedRow (piece :: pieces)).head? = some piece := by
  rw [tiedRow, head?_collapseDeep]
  cases pieces with
  | nil => simp [opened, h]
  | cons second pieces =>
      rw [show piece :: second :: pieces = [piece] ++ second :: pieces from rfl,
        opened_append [piece] (by simp)]
      rfl

/-! ### Segments -/

/-- A character that is not special stands for itself. -/
lemma ofTextFrom_cons {c : Char} (hrun : c ≠ '*') (hany : c ≠ '?') (hescape : c ≠ '\\')
    (hset : c ≠ '[') (done : Glob) (rest : Text) :
    Glob.ofTextFrom done (c :: rest) = Glob.ofTextFrom (.one (.exactly c) :: done) rest := by
  rw [Glob.ofTextFrom.eq_def]
  simp only [if_neg hrun, if_neg hany, if_neg hescape, if_neg hset]

/-- What has been read of a glob stays. -/
lemma exists_of_ofTextFrom {done g : Glob} {s : Text} (h : Glob.ofTextFrom done s = some g) :
    ∃ more, g = done.reverse ++ more := by
  have hcons {done : Glob} (atom : Atom) (ih : ∃ more, g = (atom :: done).reverse ++ more) :
      ∃ more, g = done.reverse ++ more := by
    obtain ⟨more, rfl⟩ := ih
    exact ⟨atom :: more, by simp⟩
  fun_induction Glob.ofTextFrom done s with
  | case1 done => exact ⟨[], by simpa using (Option.some.inj h).symm⟩
  | case2 done rest ih => exact hcons _ (ih h)
  | case3 done rest _ ih => exact hcons _ (ih h)
  | case4 => contradiction
  | case5 done d rest _ _ ih => exact hcons _ (ih h)
  | case6 done rest _ _ _ _ ih => exact hcons _ (ih h)
  | case7 done rest _ _ _ _ _ _ _ ih => exact hcons _ (ih h)
  | case8 done c rest _ _ _ _ ih => exact hcons _ (ih h)

/-- A piece is read as what its first character stands for, if that is not special. -/
lemma ofText?_cons {c : Char} (hrun : c ≠ '*') (hany : c ≠ '?') (hescape : c ≠ '\\')
    (hset : c ≠ '[') {piece : Text} {segment : Segment}
    (h : Segment.ofText? (c :: piece) = some segment) :
    ∃ g, segment = .glob (.one (.exactly c) :: g) := by
  rw [Segment.ofText?, if_neg (by simp [deepText, hrun]), if_neg (by simp [hrun]), Glob.ofText?,
    ofTextFrom_cons hrun hany hescape hset] at h
  obtain ⟨g, hg, rfl⟩ := Option.map_eq_some_iff.1 h
  obtain ⟨more, rfl⟩ := exists_of_ofTextFrom hg
  exact ⟨more, rfl⟩

/-- A name without a character that is special is read as the segment that spells it. -/
lemma ofText?_eq_spelling {name : Text} (hrun : '*' ∉ name) (hany : '?' ∉ name)
    (hescape : '\\' ∉ name) (hset : '[' ∉ name) :
    Segment.ofText? name = some (spelling name) := by
  have hread (done : Glob) (s : Text) (hs : ∀ c ∈ s, c ∈ name) :
      Glob.ofTextFrom done s = some (done.reverse ++ s.map fun c => .one (.exactly c)) := by
    induction s generalizing done with
    | nil => simp [Glob.ofTextFrom]
    | cons c s ih =>
        have hc : c ∈ name := hs c (by simp)
        have hne (d : Char) (hd : d ∉ name) : c ≠ d := fun heq => hd (heq ▸ hc)
        rw [ofTextFrom_cons (hne _ hrun) (hne _ hany) (hne _ hescape) (hne _ hset),
          ih _ fun d hd => hs d (by simp [hd])]
        simp
  have hdeep : name ≠ deepText := fun heq => hrun (by simp [heq, deepText])
  have hstar : name ≠ ['*'] := fun heq => hrun (by simp [heq])
  rw [Segment.ofText?, if_neg hdeep, if_neg hstar, Glob.ofText?, hread [] name fun c hc => hc]
  rfl

/-- A name of a directory of word characters. -/
def IsPlain (name : Text) : Prop :=
  name ≠ [] ∧ ∀ c ∈ name, isWordChar c = true

instance (name : Text) : Decidable (IsPlain name) :=
  decidable_of_iff (name ≠ [] ∧ name.all isWordChar = true) (by rw [IsPlain, List.all_eq_true])

namespace IsPlain

variable {name : Text}

lemma notMem (h : IsPlain name) {c : Char} (hc : isWordChar c = false) : c ∉ name := by
  intro hmem
  rw [h.2 c hmem] at hc
  contradiction

lemma slash_notMem (h : IsPlain name) : '/' ∉ name :=
  h.notMem (by decide +kernel)

lemma ne_deepText (h : IsPlain name) : name ≠ deepText := by
  rintro rfl
  exact h.notMem (by decide +kernel : isWordChar '*' = false) (by simp [deepText])

lemma ne_star (h : IsPlain name) : name ≠ ['*'] := by
  rintro rfl
  exact h.notMem (by decide +kernel : isWordChar '*' = false) (by simp)

lemma isName (h : IsPlain name) : IsName name :=
  ⟨h.1, h.slash_notMem⟩

/-- A plain name is read as the segment that spells it. -/
lemma ofText? (h : IsPlain name) : Segment.ofText? name = some (spelling name) := by
  have hnotMem (c : Char) (hc : isWordChar c = false) : c ∉ name := h.notMem hc
  exact ofText?_eq_spelling (hnotMem '*' (by decide +kernel)) (hnotMem '?' (by decide +kernel))
    (hnotMem '\\' (by decide +kernel)) (hnotMem '[' (by decide +kernel))

end IsPlain

lemma ofText?_eq_deep_iff {piece : Text} :
    Segment.ofText? piece = some .deep ↔ piece = deepText := by
  rw [Segment.ofText?]
  split
  · next h => simp [h]
  · next h =>
      split
      · simp [h]
      · simp [h]

/-- The segments that some pieces are read as. -/
def segments? (row : List Text) : Option (List Segment) :=
  row.mapM Segment.ofText?

lemma segments?_nil : segments? [] = some [] := rfl

lemma segments?_cons {piece : Text} {row : List Text} {segments : List Segment} :
    segments? (piece :: row) = some segments ↔
      ∃ first rest, Segment.ofText? piece = some first ∧ segments? row = some rest ∧
        segments = first :: rest := by
  rw [segments?, List.mapM_cons]
  simp only [Option.bind_eq_bind, Option.bind_eq_some_iff, Option.pure_def, Option.some.injEq]
  constructor
  · rintro ⟨first, hfirst, rest, hrest, rfl⟩
    exact ⟨first, rest, hfirst, hrest, rfl⟩
  · rintro ⟨first, rest, hfirst, hrest, rfl⟩
    exact ⟨first, hfirst, rest, hrest, rfl⟩

lemma segments?_append {row more : List Text} {segments : List Segment} :
    segments? (row ++ more) = some segments ↔
      ∃ first rest, segments? row = some first ∧ segments? more = some rest ∧
        segments = first ++ rest := by
  rw [segments?, List.mapM_append]
  simp only [Option.bind_eq_bind, Option.bind_eq_some_iff, Option.pure_def, Option.some.injEq]
  constructor
  · rintro ⟨first, hfirst, rest, hrest, rfl⟩
    exact ⟨first, rest, hfirst, hrest, rfl⟩
  · rintro ⟨first, rest, hfirst, hrest, rfl⟩
    exact ⟨first, hfirst, rest, hrest, rfl⟩

lemma segments?_eq_spellings {names : List Text}
    (h : ∀ name ∈ names, Segment.ofText? name = some (spelling name)) :
    segments? names = some (names.map spelling) := by
  induction names with
  | nil => rfl
  | cons name names ih =>
      exact segments?_cons.2 ⟨_, _, h name (by simp),
        ih fun other hother => h other (by simp [hother]), rfl⟩

lemma segments?_names {names : List Text} (h : ∀ name ∈ names, IsPlain name) {row : List Text}
    {segments : List Segment} (hrow : segments? row = some segments) :
    segments? (names ++ row) = some (names.map spelling ++ segments) :=
  segments?_append.2
    ⟨_, _, segments?_eq_spellings fun name hname => (h name hname).ofText?, hrow, rfl⟩

lemma segments_ne_nil {row : List Text} {segments : List Segment} (hrow : row ≠ [])
    (h : segments? row = some segments) : segments ≠ [] := by
  obtain ⟨piece, row, rfl⟩ := List.exists_cons_of_ne_nil hrow
  obtain ⟨first, rest, -, -, rfl⟩ := segments?_cons.1 h
  simp

/-- A row without a doubled `**` is read as one. -/
lemma segments_ne {row : List Text} {segments : List Segment}
    (hrow : ∀ more, row ≠ deepText :: deepText :: more) (h : segments? row = some segments) :
    ∀ more, segments ≠ .deep :: .deep :: more := by
  rintro more rfl
  match row, hrow, h with
  | [], _, h => simp [segments?_nil] at h
  | [piece], _, h =>
      obtain ⟨_, _, -, hrest, heq⟩ := segments?_cons.1 h
      obtain rfl := Option.some.inj hrest
      simp at heq
  | piece :: second :: row, hrow, h =>
      obtain ⟨_, _, hfirst, hrest, heq⟩ := segments?_cons.1 h
      obtain ⟨rfl, rfl⟩ := List.cons.inj heq
      obtain ⟨_, _, hsecond, -, heq⟩ := segments?_cons.1 hrest
      obtain ⟨rfl, rfl⟩ := List.cons.inj heq
      exact hrow row (by rw [ofText?_eq_deep_iff.1 hfirst, ofText?_eq_deep_iff.1 hsecond])

lemma segments_eq_deep_iff {row : List Text} {segments : List Segment}
    (h : segments? row = some segments) : segments = [.deep] ↔ row = [deepText] := by
  constructor
  · rintro rfl
    cases row with
    | nil => simp [segments?_nil] at h
    | cons piece row =>
        obtain ⟨_, _, hfirst, hrest, heq⟩ := segments?_cons.1 h
        obtain ⟨rfl, rfl⟩ := List.cons.inj heq
        cases row with
        | nil => rw [ofText?_eq_deep_iff.1 hfirst]
        | cons second row =>
            obtain ⟨_, _, -, -, heq⟩ := segments?_cons.1 hrest
            contradiction
  · rintro rfl
    exact (Option.some.inj h).symm

/-! ### Bodies -/

/-- Names of a directory give the place of a body that is not empty; a single name without more is
read as one that may be anywhere. -/
lemma placed_names {names : List Text} (hnames : names ≠ []) (hname : ∀ name ∈ names, IsName name)
    {pieces : List Text} (hpieces : pieces ≠ []) (h : names.length = 1 → pieces ≠ [[]]) :
    placed (names ++ pieces) = names ++ pieces := by
  match names, hnames, hname, pieces, hpieces, h with
  | [] :: _, _, hname, _, _, _ => exact absurd rfl (hname [] (by simp)).1
  | [_ :: _], _, _, [[]], _, h => exact absurd rfl (h rfl)
  | [_ :: _], _, _, [_ :: _], _, _ => rfl
  | [_ :: _], _, _, [] :: _ :: _, _, _ => rfl
  | [_ :: _], _, _, (_ :: _) :: _ :: _, _, _ => rfl
  | [_ :: _, []], _, hname, _, _, _ => exact absurd rfl (hname [] (by simp)).1
  | [_ :: _, _ :: _], _, _, _ :: _, _, _ => rfl
  | (_ :: _) :: [] :: _ :: _, _, _, _, _, _ => rfl
  | (_ :: _) :: (_ :: _) :: _ :: _, _, _, _, _, _ => rfl

/-- The names of a directory, and what a body says behind them. -/
lemma normalise_names {names : List Text} (hnames : names ≠ [])
    (hname : ∀ name ∈ names, IsName name) (hdeep : deepText ∉ names) {s : Text}
    (hinside : names.length = 1 → splitSlash s ≠ [[]]) :
    normalise (splitSlash (joinSlash names ++ '/' :: s)) = names ++ tiedRow (splitSlash s) := by
  have hs := splitSlash_ne_nil s
  rw [splitSlash_append, splitSlash_joinSlash_of_isName hnames hname, normalise_eq,
    placed_names hnames hname hs hinside, tiedRow_names hdeep hs]

/-- A name with a slash behind it is read as one that may be anywhere. -/
lemma normalise_inside {name : Text} (hname : IsName name) (hdeep : name ≠ deepText) {s : Text}
    (hs : splitSlash s = [[]]) :
    normalise (splitSlash (name ++ '/' :: s)) = [deepText, name, deepText] := by
  obtain ⟨c, rest, rfl⟩ := List.exists_cons_of_ne_nil hname.1
  rw [splitSlash_append, splitSlash_of_notMem hname.2, hs, normalise_eq]
  simp [placed, tiedRow, opened, collapseDeep, hdeep]

lemma isReversed_spelling (name : Text) : (Shape.segments [spelling name]).isReversed = false := by
  simp only [Shape.isReversed, spelling, Glob.isReversed, List.any_cons, List.any_nil,
    Bool.or_false, List.any_map]
  rw [List.any_eq_false]
  intro c _
  simp [CharSet.isReversed]

lemma isReversed_names (names : List Text) (segments : List Segment) :
    (Shape.segments (names.map spelling ++ segments)).isReversed =
      (Shape.segments segments).isReversed := by
  induction names with
  | nil => rfl
  | cons name names ih =>
      have hname := isReversed_spelling name
      simp only [Shape.isReversed, List.any_cons, List.any_nil, Bool.or_false] at hname ih ⊢
      rw [List.map_cons, List.cons_append, List.any_cons, hname, ih]
      rfl

/-- A row that starts with a plain name is read piece by piece. -/
lemma ofBody?_eq_segments {body : Text} {row : List Text} {segments : List Segment}
    (hrow : normalise (splitSlash body) = row) (hdeep : row ≠ [deepText])
    (hany : row ≠ [deepText, ['*']]) (hinside : row ≠ [deepText, ['*'], deepText])
    (hnil : row ≠ []) (hsegments : segments? row = some segments) :
    Shape.ofBody? body = some (.segments segments) := by
  subst hrow
  rw [segments?] at hsegments
  rw [Shape.ofBody?]
  simp only [hsegments, if_neg hdeep, if_neg hany, if_neg hinside, Option.map_some]

/-- Any name in any directory is read as everything. -/
lemma ofBody?_anyName {body : Text} (hrow : normalise (splitSlash body) = [deepText, ['*']]) :
    Shape.ofBody? body = some .everything := by
  rw [Shape.ofBody?]
  simp [hrow]

/-- A name with a slash behind it matches all that is in the directory of that name. -/
lemma ofBody?_inside {name s : Text} (hname : IsPlain name) (hs : splitSlash s = [[]]) :
    Shape.ofBody? (name ++ '/' :: s) = some (.segments [.deep, spelling name, .deep]) ∧
      (Shape.segments [.deep, spelling name, .deep]).isReversed = false ∧
      ∀ x, matchPath [.deep, spelling name, .deep] (name ++ '/' :: x) = true := by
  have hrow := normalise_inside hname.isName hname.ne_deepText hs
  have hread : segments? [deepText, name, deepText] = some [.deep, spelling name, .deep] :=
    segments?_cons.2 ⟨_, _, rfl, segments?_cons.2 ⟨_, _, hname.ofText?, rfl, rfl⟩, rfl⟩
  refine ⟨ofBody?_eq_segments hrow (by simp) (by simp) ?_ (by simp) hread, ?_, fun x => ?_⟩
  · simpa using hname.ne_star
  · have hspelling := isReversed_spelling name
    simp only [Shape.isReversed, List.any_cons, List.any_nil, Bool.or_false,
      Bool.false_or] at hspelling ⊢
    exact hspelling
  · exact matchPath_inside name x

/-- **A body in a directory** says what its row says below the directory. -/
lemma ofBody?_names {names : List Text} (hnames : names ≠ [])
    (hplain : ∀ name ∈ names, IsPlain name) {s : Text} {segments : List Segment}
    (hsegments : segments? (tiedRow (splitSlash s)) = some segments) :
    ∃ row, Shape.ofBody? (joinSlash names ++ '/' :: s) = some (.segments row) ∧
      (Shape.segments row).isReversed = (Shape.segments segments).isReversed ∧
      ∀ x, matchPath row (joinSlash names ++ '/' :: x) = below segments x := by
  by_cases hinside : names.length = 1 ∧ splitSlash s = [[]]
  · -- the directory itself, with all that is in it
    obtain ⟨name, rfl⟩ := List.length_eq_one_iff.1 hinside.1
    obtain ⟨hbody, hreversed, hmatch⟩ := ofBody?_inside (hplain name (by simp)) hinside.2
    have hdeep : segments = [.deep] := by
      rw [hinside.2] at hsegments
      exact (segments_eq_deep_iff hsegments).2 (by simp [tiedRow, opened, collapseDeep])
    subst hdeep
    refine ⟨_, hbody, hreversed, fun x => ?_⟩
    rw [joinSlash, hmatch, below]
    simp
  · have hs := splitSlash_ne_nil s
    have hrow := normalise_names hnames (fun name hname => (hplain name hname).isName)
      (fun hmem => (hplain _ hmem).ne_deepText rfl) (not_and.1 hinside)
    obtain ⟨name, others, rfl⟩ := List.exists_cons_of_ne_nil hnames
    have hname : name ≠ deepText := (hplain name (by simp)).ne_deepText
    have hbody := ofBody?_eq_segments hrow (by simp [hname]) (by simp [hname]) (by simp [hname])
      (by simp) (segments?_names hplain hsegments)
    have hne : segments ≠ [] := segments_ne_nil (tiedRow_ne_nil hs) hsegments
    have hcollapsed := segments_ne (collapseDeep_ne _) hsegments
    exact ⟨_, hbody, isReversed_names _ _, matchPath_names hnames hne hcollapsed⟩

/-- **A body at the top** says what its row says, but for `**` and for `**` and any name. -/
lemma ofBody?_eq_some {body : Text} {shape : Shape} (h : Shape.ofBody? body = some shape) :
    placed (splitSlash body) ≠ [] ∧
      ∃ segments, segments? (normalise (splitSlash body)) = some segments ∧
        shape.isReversed = (Shape.segments segments).isReversed ∧
        (normalise (splitSlash body) ≠ [deepText] →
          normalise (splitSlash body) ≠ [deepText, ['*']] →
          ∀ x, x.head? ≠ some '/' → shape.matches x = below segments x) := by
  have hplaced : normalise (splitSlash body) ≠ [] → placed (splitSlash body) ≠ [] := by
    intro hne hnil
    rw [normalise_eq, hnil] at hne
    exact hne rfl
  rw [Shape.ofBody?] at h
  generalize hrow : normalise (splitSlash body) = row at h hplaced ⊢
  split at h
  · contradiction
  · next hnil =>
      refine ⟨hplaced hnil, ?_⟩
      split at h
      · next hdeep =>
          refine ⟨[.deep], by rw [hdeep]; rfl, ?_, fun hne => absurd hdeep hne⟩
          rw [← Option.some.inj h]
          split <;> rfl
      · next hdeep =>
          split at h
          · next hany =>
              refine ⟨[.deep, .anyName], by rw [hany]; rfl, ?_, fun _ hne => absurd hany hne⟩
              rw [← Option.some.inj h]
              rfl
          · split at h
            · next hinside =>
                refine ⟨[.deep, .anyName, .deep], by rw [hinside]; rfl, ?_, fun _ _ x hx => ?_⟩
                · rw [← Option.some.inj h]
                  rfl
                · rw [← Option.some.inj h, below, matchPath_deep_anyName_deep hx]
                  simp [Shape.matches]
            · obtain ⟨segments, hsegments, rfl⟩ := Option.map_eq_some_iff.1 h
              refine ⟨segments, hsegments, rfl, fun hne _ x _ => ?_⟩
              have hother : segments ≠ [.deep] := fun heq =>
                hne ((segments_eq_deep_iff hsegments).1 heq)
              rw [below, Shape.matches, decide_eq_false hother, Bool.false_or]

end Ignore

end GeneratedCode
