import Mathlib.Tactic
import GeneratedCode.Proofs.Ignore.Rows

/-!
Rows of segments below a directory.

Matching moves each mark on its own (`matchRow_iff_exists`). So a row that starts with some names,
each read as a segment, matches the paths that lie in a directory whose names the segments spell,
and of which the rest of the row matches what is below (`matchPath_append_iff`), but for one thing:
the rest may be `**` alone, which holds of all that lies in the directory (`below`).

A name that is read as it stands spells only itself, and so do the names of a directory
(`matchPath_names`).
-/

namespace GeneratedCode

namespace Text

namespace Marked

variable {t u : Marked} {r : Text}

/-- A mark of a text, and what follows it as a text with its start marked. -/
lemma within_of_mem (h : r ∈ t.rests) : (ofText r).Within t := by
  intro s hs
  rw [rests_ofText, List.mem_singleton] at hs
  exact hs ▸ h

/-- A step that moves each mark on its own. -/
def IsPointwise (step : Marked → Marked) : Prop :=
  ∀ ⦃t r⦄, r ∈ (step t).rests → ∃ s ∈ t.rests, r ∈ (step (ofText s)).rests

/-- What a test finds behind a step of some marks, it finds behind the step of one of them. -/
lemma IsPointwise.exists_mem {step : Marked → Marked} (hstep : IsPointwise step)
    {test : Marked → Bool} (hmono : ∀ ⦃t u⦄, t.Within u → test t = true → test u = true)
    (h : ∃ r ∈ (step t).rests, test (ofText r) = true) :
    ∃ s ∈ t.rests, test (step (ofText s)) = true := by
  obtain ⟨r, hr, htest⟩ := h
  obtain ⟨s, hs, hrest⟩ := hstep hr
  exact ⟨s, hs, hmono (within_of_mem hrest) htest⟩

lemma isPointwise_one (p : Char → Bool) : IsPointwise (·.one p) := by
  intro t r h
  obtain ⟨c, hc, h⟩ := mem_rests_one.1 h
  exact ⟨c :: r, h, mem_rests_one.2 ⟨c, hc, by simp⟩⟩

lemma exists_isMarked (h : t.isMarked = true) : ∃ s ∈ t.rests, (ofText s).isMarked = true := by
  obtain ⟨s, hs⟩ := isMarked_iff_exists.1 h
  exact ⟨s, hs, isMarked_iff_exists.2 ⟨s, by simp⟩⟩

lemma exists_reachesEnd (h : t.reachesEnd = true) :
    ∃ s ∈ t.rests, (ofText s).reachesEnd = true := by
  rcases reachesEnd_iff.1 h with h | h
  · exact ⟨_, h, rfl⟩
  · exact ⟨_, h, rfl⟩

end Marked

end Text

namespace Ignore

open Text Marked

variable {t : Marked} {x : Text}

/-! ### Mark by mark -/

lemma isPointwise_behindDeeper : IsPointwise behindDeeper := by
  intro t r h
  rcases mem_rests_behindDeeper.1 h with h | ⟨c, m, hc, hm, h⟩
  · exact ⟨r, h, mem_rests_behindDeeper.2 (.inl (by simp))⟩
  · exact ⟨_, h, mem_rests_behindDeeper.2 (.inr ⟨c, m, hc, hm, by simp⟩)⟩

lemma isPointwise_pass (segment : Segment) : IsPointwise segment.pass := by
  intro t r h
  obtain ⟨m, hm, h⟩ := mem_rests_pass_iff.1 h
  exact ⟨_, h, mem_rests_pass_iff.2 ⟨m, hm, by simp⟩⟩

lemma exists_closes {segment : Segment} (hdeep : segment ≠ .deep) (h : segment.closes t = true) :
    ∃ s ∈ t.rests, segment.closes (ofText s) = true := by
  have hslash := isPointwise_one (· = '/')
  cases segment with
  | deep => contradiction
  | anyName =>
      simp only [Segment.closes, Bool.or_eq_true] at h ⊢
      rcases h with h | h
      · obtain ⟨s, hs, hend⟩ := exists_reachesEnd h
        exact ⟨s, hs, .inl hend⟩
      · obtain ⟨s, hs, hend⟩ := hslash.exists_mem (fun _ _ h => h.reachesEnd) (exists_reachesEnd h)
        exact ⟨s, hs, .inr hend⟩
  | glob g =>
      simp only [Segment.closes, Bool.or_eq_true] at h ⊢
      rcases h with h | h
      · obtain ⟨s, hs, hmark⟩ := hslash.exists_mem (fun _ _ h => h.isMarked) (exists_isMarked h)
        exact ⟨s, hs, .inl hmark⟩
      · obtain ⟨s, hs, hend⟩ := exists_reachesEnd h
        exact ⟨s, hs, .inr hend⟩

/-- **Marks do not mix**: a row matches at some marks if it does at one of them. -/
lemma matchRow_iff_exists {slash : Bool} {row : List Segment} :
    matchRow slash row t = true ↔ ∃ s ∈ t.rests, matchRow slash row (ofText s) = true := by
  refine ⟨fun h => ?_, fun ⟨s, hs, h⟩ => matchRow_mono (within_of_mem hs) h⟩
  induction row generalizing slash t with
  | nil => exact exists_isMarked h
  | cons segment row ih =>
      have hslash := isPointwise_one (· = '/')
      by_cases hdeep : segment = .deep
      · simp only [matchRow, if_pos hdeep] at h ⊢
        cases row with
        | nil => exact hslash.exists_mem (fun _ _ h => h.isMarked) (exists_isMarked h)
        | cons next row =>
            exact isPointwise_behindDeeper.exists_mem (fun _ _ h => matchRow_mono h) (ih h)
      · have hfirst {t : Marked} (h : matchRow false (segment :: row) t = true) :
            ∃ s ∈ t.rests, matchRow false (segment :: row) (ofText s) = true := by
          have hpass := isPointwise_pass segment
          simp only [matchRow_false_cons hdeep] at h ⊢
          cases row with
          | nil => exact hpass.exists_mem (fun _ _ h => closes_mono h) (exists_closes hdeep h)
          | cons next row => exact hpass.exists_mem (fun _ _ h => matchRow_mono h) (ih h)
        cases slash with
        | false => exact hfirst h
        | true =>
            simp only [matchRow_true_cons hdeep] at h ⊢
            exact hslash.exists_mem (fun _ _ h => matchRow_mono h) (hfirst h)

/-! ### Behind a slash -/

lemma exists_of_matchRow_true {row : List Segment} (hrow : row ≠ [])
    (h : matchRow true row (ofText x) = true) : ∃ r, x = '/' :: r := by
  by_contra hnone
  have hmarks : ((ofText x).one (· = '/')).rests = [] := by
    rw [List.eq_nil_iff_forall_not_mem]
    intro r hr
    obtain ⟨c, hc, hx⟩ := mem_rests_one.1 hr
    rw [rests_ofText, List.mem_singleton] at hx
    exact hnone ⟨r, by rw [← hx, of_decide_eq_true hc]⟩
  rw [matchRow_eq_false hrow hmarks] at h
  contradiction

lemma alike_one_slash (x : Text) : ((ofText ('/' :: x)).one (· = '/')).Alike (ofText x) := by
  intro r
  simp [mem_rests_one, rests_ofText]

/-- Whether a row, put below a directory, matches the path of what is `x` there. -/
def below (row : List Segment) (x : Text) : Bool :=
  row = [.deep] || matchPath row x

@[simp] lemma below_deep (x : Text) : below [.deep] x = true := by
  simp [below]

/-- Behind a slash, a row matches what it matches from the start of a path; `**` alone matches
everything. -/
lemma matchRow_slash {row : List Segment} (hrow : row ≠ [])
    (hcollapsed : ∀ more, row ≠ .deep :: .deep :: more) :
    matchRow true row (ofText ('/' :: x)) = below row x := by
  have hslash := alike_one_slash x
  match row, hrow, hcollapsed with
  | [.deep], _, _ =>
      rw [matchRow, below]
      simp only [List.isEmpty_nil, if_true, decide_true, Bool.true_or]
      rw [hslash.isMarked, isMarked_iff_exists]
      exact ⟨x, by simp⟩
  | .deep :: next :: row, _, hcollapsed =>
      have hnext : next ≠ .deep := by
        rintro rfl
        exact hcollapsed row rfl
      rw [matchRow, if_pos rfl, below, matchPath]
      simp only [List.isEmpty_cons, Bool.false_eq_true, if_false]
      rw [matchRow_true_cons hnext]
      simp only [List.cons.injEq, true_and, reduceCtorEq, decide_false, Bool.false_or]
      refine matchRow_congr (fun r => ?_) false (next :: row)
      simp only [mem_rests_one, mem_rests_behindDeeper, mem_rests_behindDirectories, rests_ofText,
        List.mem_singleton, decide_eq_true_eq]
      constructor
      · rintro ⟨d, rfl, h | ⟨c, m, hc, hm, h⟩⟩
        · exact .inl (List.cons.inj h).2
        · exact .inr ⟨c, m, hc, hm, (List.cons.inj h).2⟩
      · rintro (rfl | ⟨c, m, hc, hm, rfl⟩)
        · exact ⟨'/', rfl, .inl rfl⟩
        · exact ⟨'/', rfl, .inr ⟨c, m, hc, hm, rfl⟩⟩
  | .anyName :: row, _, _ =>
      rw [matchRow_true_cons (by simp), matchRow_congr hslash, below, matchPath]
      · simp
      · simp
  | .glob g :: row, _, _ =>
      rw [matchRow_true_cons (by simp), matchRow_congr hslash, below, matchPath]
      · simp
      · simp

/-! ### Names of a directory -/

/-- Behind a name that the first segment spells, a row goes on at a slash. -/
lemma matchRow_cons_iff {segment : Segment} (h : segment ≠ .deep) {row : List Segment}
    (hrow : row ≠ []) :
    matchRow false (segment :: row) t = true ↔
      ∃ name r, segment.Spells name ∧ name ++ '/' :: r ∈ t.rests ∧
        matchRow true row (ofText ('/' :: r)) = true := by
  rw [matchRow_false_cons h, if_neg (by simpa using hrow), matchRow_iff_exists]
  constructor
  · rintro ⟨s, hs, hmatch⟩
    obtain ⟨name, hname, hrest⟩ := mem_rests_pass_iff.1 hs
    obtain ⟨r, rfl⟩ := exists_of_matchRow_true hrow hmatch
    exact ⟨name, r, hname, hrest, hmatch⟩
  · rintro ⟨name, r, hname, hrest, hmatch⟩
    exact ⟨_, mem_rests_pass_iff.2 ⟨name, hname, hrest⟩, hmatch⟩

/-- Behind segments that each spell a name, a row goes on at what follows the names. -/
lemma matchRow_append_iff {segments row : List Segment} (hsegments : segments ≠ [])
    (hdeep : .deep ∉ segments) (hrow : row ≠ []) :
    matchRow false (segments ++ row) t = true ↔
      ∃ names r, List.Forall₂ Segment.Spells segments names ∧
        Path.joinSlash names ++ '/' :: r ∈ t.rests ∧
        matchRow true row (ofText ('/' :: r)) = true := by
  induction segments generalizing t with
  | nil => contradiction
  | cons segment segments ih =>
      have hfirst : segment ≠ .deep := fun heq => hdeep (by simp [heq])
      rw [List.cons_append, matchRow_cons_iff hfirst (by simp [hrow])]
      cases segments with
      | nil =>
          constructor
          · rintro ⟨name, r, hname, hrest, hmatch⟩
            exact ⟨[name], r, .cons hname .nil, hrest, hmatch⟩
          · rintro ⟨names, r, hnames, hrest, hmatch⟩
            obtain ⟨name, others, hname, hothers, rfl⟩ := List.forall₂_cons_left_iff.1 hnames
            obtain rfl := List.forall₂_nil_left_iff.1 hothers
            exact ⟨name, r, hname, hrest, hmatch⟩
      | cons second segments =>
          have hsecond : second ≠ .deep := fun heq => hdeep (by simp [heq])
          have hbehind (r : Text) :
              matchRow true (second :: segments ++ row) (ofText ('/' :: r)) = true ↔
                ∃ names y, List.Forall₂ Segment.Spells (second :: segments) names ∧
                  r = Path.joinSlash names ++ '/' :: y ∧
                  matchRow true row (ofText ('/' :: y)) = true := by
            rw [List.cons_append, matchRow_true_cons hsecond, matchRow_congr (alike_one_slash r),
              ← List.cons_append, ih (by simp) fun hmem => hdeep (by simp [hmem])]
            simp only [rests_ofText, List.mem_singleton, eq_comm]
          constructor
          · rintro ⟨name, r, hname, hrest, hmatch⟩
            obtain ⟨names, y, hnames, rfl, hgoes⟩ := (hbehind r).1 hmatch
            obtain ⟨other, others, -, -, rfl⟩ := List.forall₂_cons_left_iff.1 hnames
            exact ⟨name :: other :: others, y, .cons hname hnames,
              by simpa [Path.joinSlash] using hrest, hgoes⟩
          · rintro ⟨names, y, hnames, hrest, hmatch⟩
            obtain ⟨name, others, hname, hothers, rfl⟩ := List.forall₂_cons_left_iff.1 hnames
            obtain ⟨other, more, -, -, rfl⟩ := List.forall₂_cons_left_iff.1 hothers
            exact ⟨name, _, hname, by simpa [Path.joinSlash] using hrest,
              (hbehind _).2 ⟨_, y, hothers, rfl, hmatch⟩⟩

/-- **Names in front of a row**: it matches what it matches below the directories whose names they
spell. -/
lemma matchPath_append_iff {segments row : List Segment} (hsegments : segments ≠ [])
    (hdeep : .deep ∉ segments) (hrow : row ≠ [])
    (hcollapsed : ∀ more, row ≠ .deep :: .deep :: more) :
    matchPath (segments ++ row) x = true ↔
      ∃ names y, List.Forall₂ Segment.Spells segments names ∧
        x = Path.joinSlash names ++ '/' :: y ∧ below row y = true := by
  obtain ⟨segment, segments, rfl⟩ := List.exists_cons_of_ne_nil hsegments
  have hfirst : segment ≠ .deep := fun heq => hdeep (by simp [heq])
  rw [List.cons_append, matchPath_tied hfirst, ← List.cons_append,
    matchRow_append_iff hsegments hdeep hrow]
  simp only [rests_ofText, List.mem_singleton, matchRow_slash hrow hcollapsed, eq_comm]

/-- The segment that spells a name. -/
def spelling (name : Text) : Segment :=
  .glob (name.map fun c => .one (.exactly c))

lemma spells_spelling_iff {name m : Text} : (spelling name).Spells m ↔ name = m := by
  rw [spelling, Segment.Spells]
  induction name generalizing m with
  | nil =>
      constructor
      · rintro ⟨⟩
        rfl
      · rintro rfl
        exact .nil
  | cons c name ih =>
      rw [List.map_cons]
      constructor
      · intro h
        cases h with
        | one hc hs => rw [ih.1 hs, of_decide_eq_true hc]
      · rintro rfl
        exact .one (by simp [CharSet.accepts]) (ih.2 rfl)

lemma spells_spellings_iff {names others : List Text} :
    List.Forall₂ Segment.Spells (names.map spelling) others ↔ names = others := by
  rw [List.forall₂_map_left_iff]
  simp only [spells_spelling_iff, List.forall₂_eq_eq_eq]

lemma deep_notMem_spellings (names : List Text) : .deep ∉ names.map spelling := by
  simp [spelling]

/-- **Below a directory**: a row behind the names of a directory matches a path in it as the row
alone matches what is below. -/
lemma matchPath_names {names : List Text} (hnames : names ≠ []) {row : List Segment}
    (hrow : row ≠ []) (hcollapsed : ∀ more, row ≠ .deep :: .deep :: more) (x : Text) :
    matchPath (names.map spelling ++ row) (Path.joinSlash names ++ '/' :: x) = below row x := by
  rw [Bool.eq_iff_iff, matchPath_append_iff (by simpa using hnames) (deep_notMem_spellings names)
    hrow hcollapsed]
  constructor
  · rintro ⟨others, y, hothers, hpath, hbelow⟩
    obtain rfl := spells_spellings_iff.1 hothers
    obtain rfl := (List.cons.inj (List.append_cancel_left hpath)).2
    exact hbelow
  · intro hbelow
    exact ⟨names, x, spells_spellings_iff.2 rfl, rfl, hbelow⟩

/-! ### Names that may be anywhere -/

/-- What stands in front of a directory in a path: nothing, or names without line feeds. -/
def IsAbove (before : Text) : Prop :=
  before = [] ∨ ∃ c m, c ≠ '\n' ∧ (∀ d ∈ m, d ≠ '\n') ∧ before = c :: (m ++ ['/'])

/-- **A name and all that is inside**: the row matches what lies in a directory that the name
spells, wherever it is. -/
lemma matchPath_inside_iff {segment : Segment} (h : segment ≠ .deep) :
    matchPath [.deep, segment, .deep] x = true ↔
      ∃ before name y, IsAbove before ∧ segment.Spells name ∧
        x = before ++ (name ++ '/' :: y) := by
  have hrow (y : Text) : matchRow true [.deep] (ofText ('/' :: y)) = true := by
    rw [matchRow_slash (by simp) (by simp), below_deep]
  rw [matchPath, matchRow_cons_iff h (by simp)]
  simp only [hrow, and_true, mem_rests_behindDirectories, rests_ofText, List.mem_singleton]
  constructor
  · rintro ⟨name, y, hname, hpath | ⟨c, m, hc, hm, hpath⟩⟩
    · exact ⟨[], name, y, .inl rfl, hname, hpath.symm⟩
    · exact ⟨_, name, y, .inr ⟨c, m, hc, hm, rfl⟩, hname, by simpa using hpath.symm⟩
  · rintro ⟨before, name, y, rfl | ⟨c, m, hc, hm, rfl⟩, hname, rfl⟩
    · exact ⟨name, y, hname, .inl rfl⟩
    · exact ⟨name, y, hname, .inr ⟨c, m, hc, hm, by simp⟩⟩

/-- All that is in a directory of that name, wherever it is, includes what is in the directory. -/
lemma matchPath_inside (name x : Text) :
    matchPath [.deep, spelling name, .deep] (name ++ '/' :: x) = true :=
  (matchPath_inside_iff (by simp [spelling])).2
    ⟨[], name, x, .inl rfl, spells_spelling_iff.2 rfl, rfl⟩

/-- What lies in some directory has a slash in its path. -/
lemma matchPath_deep_anyName_deep (hx : x.head? ≠ some '/') :
    matchPath [.deep, .anyName, .deep] x = x.contains '/' := by
  rw [Bool.eq_iff_iff, matchPath_inside_iff (by simp), List.contains_iff_mem]
  constructor
  · rintro ⟨before, name, y, -, -, rfl⟩
    simp
  · intro hmem
    obtain ⟨name, y, rfl, hslash⟩ := List.eq_append_cons_of_mem hmem
    have hname : name ≠ [] := by
      rintro rfl
      exact hx rfl
    exact ⟨[], name, y, .inl rfl, ⟨hname, hslash⟩, rfl⟩

end Ignore

end GeneratedCode
