import Mathlib.Data.List.TakeWhile
import Mathlib.Tactic
import GeneratedCode.Ignore.Rules
import GeneratedCode.Proofs.Ignore.Bodies
import GeneratedCode.Proofs.Ignore.Directories
import GeneratedCode.Proofs.Ignore.Lines

/-!
Patterns that match a directory, and what is inside.

A directory is matched by its path with a slash at the end. Most patterns that match it so match
the path of everything inside as well. The others are shallow (`Shape.IsShallow`): they end in `*`,
which stands for one name, or in a set of characters that may be the slash itself.

`matches_append` is the main result, an induction along the row that follows one mark
(`matchRow_append`): what each step passes in front of the slash, it passes in the longer path too
(`Carries`). The case that is left is a glob that reaches the end, and it does so behind the slash:
then it ends in a set of that kind, or spells nothing and goes on with runs.
-/

namespace GeneratedCode

namespace Ignore

open Text Marked GeneratedCode.Path

/-! ### Shallow patterns -/

/-- Whether a glob may end in a slash: its last set of characters accepts one, and only runs follow.
-/
def Glob.MayEndInSlash (g : Glob) : Prop :=
  ∃ front set runs, g = front ++ .one set :: runs ∧ set.accepts '/' = true ∧
    ∀ atom ∈ runs, atom = .run

/-- Whether a segment may match the last name of a directory and its slash, but not what follows. -/
def Segment.IsShallow : Segment → Prop
  | deep => False
  | anyName => True
  | glob g => g.MayEndInSlash

/-- Whether a pattern of this shape may match a directory, but not what is inside. -/
def Shape.IsShallow : Shape → Prop
  | segments row => ∃ segment ∈ row.getLast?, segment.IsShallow
  | _ => False

/-- Whether the last segment of a shape is `**`. -/
def Shape.endsInDeep : Shape → Bool
  | segments row => row.getLast? = some .deep
  | _ => false

/-- What matches at any depth below a directory is not shallow. -/
lemma Shape.not_isShallow_of_endsInDeep {shape : Shape} (h : shape.endsInDeep = true) :
    ¬ shape.IsShallow := by
  cases shape with
  | everything => exact not_false
  | inDirectory => exact not_false
  | segments row =>
      rintro ⟨segment, hlast, hshallow⟩
      obtain rfl : .deep = segment := Option.some.inj ((of_decide_eq_true h).symm.trans hlast)
      exact hshallow

namespace Glob

variable {g : Glob} {m : Text}

/-- A glob that spells the empty text is made of runs. -/
lemma eq_run_of_spells_nil (h : Spells g []) : ∀ atom ∈ g, atom = .run := by
  generalize hs : ([] : Text) = s at h
  induction h with
  | nil => simp
  | one => contradiction
  | run _ _ ih =>
      obtain ⟨-, hrest⟩ := List.append_eq_nil_iff.1 hs.symm
      exact List.forall_mem_cons.2 ⟨rfl, ih hrest.symm⟩

/-- Runs spell any text without a slash, if there is one. -/
lemma spells_of_runs (hg : g ≠ []) (hruns : ∀ atom ∈ g, atom = .run) (hm : '/' ∉ m) :
    Spells g m := by
  obtain ⟨atom, rest, rfl⟩ := List.exists_cons_of_ne_nil hg
  obtain ⟨rfl, hrest⟩ := List.forall_mem_cons.1 hruns
  have hnil : Spells rest [] := by
    clear hg hruns
    induction rest with
    | nil => exact .nil
    | cons atom rest ih =>
        obtain ⟨rfl, hmore⟩ := List.forall_mem_cons.1 hrest
        exact Spells.run (r := []) (by simp) (ih hmore)
  rw [← List.append_nil m]
  exact .run hm hnil

/-- A glob that spells a text with a slash at its end may end in one. -/
lemma mayEndInSlash_of_spells (h : Spells g (m ++ ['/'])) : g.MayEndInSlash := by
  generalize hs : m ++ ['/'] = s at h
  induction h generalizing m with
  | nil => simp at hs
  | @one set c g s hc hspells ih =>
      cases m with
      | nil =>
          obtain ⟨rfl, rfl⟩ := List.cons.inj hs
          exact ⟨[], set, g, rfl, hc, eq_run_of_spells_nil hspells⟩
      | cons d m =>
          obtain ⟨front, last, runs, rfl, hlast, hruns⟩ := ih (List.cons.inj hs).2
          exact ⟨.one set :: front, last, runs, rfl, hlast, hruns⟩
  | @run r g s hr hspells ih =>
      obtain ⟨tail, htail⟩ : ∃ tail, tail ++ ['/'] = s := by
        rcases List.append_eq_append_iff.1 hs with ⟨a, rfl, ha⟩ | ⟨a, -, rfl⟩
        · rcases List.singleton_eq_append_iff.1 ha with ⟨rfl, rfl⟩ | ⟨rfl, rfl⟩
          · exact ⟨[], rfl⟩
          · simp at hr
        · exact ⟨a, rfl⟩
      obtain ⟨front, last, runs, rfl, hlast, hruns⟩ := ih htail
      exact ⟨.run :: front, last, runs, rfl, hlast, hruns⟩

end Glob

/-! ### Along a row -/

/-- Whether a text is empty or ends in a slash. -/
def EndsInSlash (s : Text) : Prop :=
  ∀ c ∈ s.getLast?, c = '/'

lemma EndsInSlash.of_isSuffix {r s : Text} (hs : EndsInSlash s) (h : r <:+ s) : EndsInSlash r := by
  obtain ⟨before, rfl⟩ := h
  intro c hc
  exact hs c (by rw [List.getLast?_append, Option.mem_def.1 hc]; rfl)

/-- A step that goes on in a longer text as it does in front of its end. -/
def Carries (x : Text) (step : Marked → Marked) : Prop :=
  ∀ ⦃s r⦄, r ∈ (step (ofText s)).rests → r <:+ s ∧ r ++ x ∈ (step (ofText (s ++ x))).rests

variable {row : List Segment} {slash : Bool} {s x : Text}

lemma carries_one (x : Text) (p : Char → Bool) : Carries x (·.one p) := by
  intro s r h
  simp only [mem_rests_one, rests_ofText, List.mem_singleton] at h ⊢
  obtain ⟨c, hc, rfl⟩ := h
  exact ⟨List.suffix_cons c r, c, hc, rfl⟩

lemma carries_pass (x : Text) (segment : Segment) : Carries x segment.pass := by
  intro s r h
  simp only [mem_rests_pass_iff, rests_ofText, List.mem_singleton] at h ⊢
  obtain ⟨m, hm, rfl⟩ := h
  exact ⟨List.suffix_append m r, m, hm, (List.append_assoc m r x).symm⟩

lemma carries_behindDeeper (x : Text) : Carries x behindDeeper := by
  intro s r h
  simp only [mem_rests_behindDeeper, rests_ofText, List.mem_singleton] at h ⊢
  rcases h with rfl | ⟨c, m, hc, hm, rfl⟩
  · exact ⟨List.suffix_rfl, .inl rfl⟩
  · exact ⟨⟨'/' :: c :: m, by simp⟩, .inr ⟨c, m, hc, hm, by simp⟩⟩

lemma carries_behindDirectories (x : Text) : Carries x behindDirectories := by
  intro s r h
  simp only [mem_rests_behindDirectories, rests_ofText, List.mem_singleton] at h ⊢
  rcases h with rfl | ⟨c, m, hc, hm, rfl⟩
  · exact ⟨List.suffix_rfl, .inl rfl⟩
  · exact ⟨⟨c :: (m ++ ['/']), by simp⟩, .inr ⟨c, m, hc, hm, by simp⟩⟩

/-- Behind such a step, a row that goes on in a longer text does so too. -/
lemma Carries.matchRow {step : Marked → Marked} (hstep : Carries x step)
    (hrow : ∀ s, EndsInSlash s → Ignore.matchRow slash row (ofText s) = true →
      Ignore.matchRow slash row (ofText (s ++ x)) = true)
    (hs : EndsInSlash s) (h : Ignore.matchRow slash row (step (ofText s)) = true) :
    Ignore.matchRow slash row (step (ofText (s ++ x))) = true := by
  obtain ⟨r, hr, hmatch⟩ := matchRow_iff_exists.1 h
  obtain ⟨hsuffix, hlonger⟩ := hstep hr
  exact matchRow_iff_exists.2 ⟨r ++ x, hlonger, hrow r (hs.of_isSuffix hsuffix) hmatch⟩

lemma Carries.isMarked {step : Marked → Marked} (hstep : Carries x step)
    (h : (step (ofText s)).isMarked = true) : (step (ofText (s ++ x))).isMarked = true := by
  obtain ⟨r, hr⟩ := isMarked_iff_exists.1 h
  exact isMarked_iff_exists.2 ⟨r ++ x, (hstep hr).2⟩

/-- A glob that ends a row at the end of a directory ends it further on as well. -/
lemma closes_append {g : Glob} (hg : g ≠ []) (hend : ¬ g.MayEndInSlash) (hs : EndsInSlash s)
    (h : (Segment.glob g).closes ((Segment.glob g).pass (ofText s)) = true) :
    (Segment.glob g).closes ((Segment.glob g).pass (ofText (s ++ x))) = true := by
  simp only [Segment.closes, Bool.or_eq_true] at h ⊢
  rcases h with h | h
  · left
    obtain ⟨r, hr⟩ := isMarked_iff_exists.1 h
    obtain ⟨c, hc, hr⟩ := mem_rests_one.1 hr
    exact isMarked_iff_exists.2 ⟨r ++ x, mem_rests_one.2 ⟨c, hc, (carries_pass x _ hr).2⟩⟩
  · simp only [reachesEnd_iff, mem_rests_pass_iff, rests_ofText, List.mem_singleton,
      List.append_nil, exists_eq_right] at h
    rcases h with h | ⟨m, -, rfl⟩
    · rcases List.eq_nil_or_concat' s with rfl | ⟨m, c, rfl⟩
      · -- only runs, which go on to the next slash or to the end
        have hruns := Glob.eq_run_of_spells_nil h
        have hspells : g.Spells (x.takeWhile (· ≠ '/')) := by
          refine Glob.spells_of_runs hg hruns fun hmem => ?_
          simpa using List.mem_takeWhile_imp hmem
        have hbehind : x.dropWhile (· ≠ '/') ∈ ((Segment.glob g).pass (ofText ([] ++ x))).rests :=
          mem_rests_pass_iff.2 ⟨_, hspells, by simp⟩
        have hfirst := List.head?_dropWhile_not (· ≠ '/') x
        cases hrest : x.dropWhile (· ≠ '/') with
        | nil =>
            rw [hrest] at hbehind
            exact .inr (reachesEnd_iff.2 (.inl hbehind))
        | cons c r =>
            rw [hrest] at hbehind hfirst
            have hslash : decide (c = '/') = true := by simpa using hfirst
            exact .inl (isMarked_iff_exists.2 ⟨r, mem_rests_one.2 ⟨c, hslash, hbehind⟩⟩)
      · obtain rfl : c = '/' := hs c (by simp)
        exact absurd (Glob.mayEndInSlash_of_spells h) hend
    · have hbreak := hs '\n' (by simp)
      contradiction

/-- **Along a row** whose last segment is not shallow, what matches a directory matches what is
inside. -/
lemma matchRow_append (hlast : ∀ segment ∈ row.getLast?, ¬ segment.IsShallow ∧ segment ≠ .glob [])
    (hs : EndsInSlash s) (h : matchRow slash row (ofText s) = true) :
    matchRow slash row (ofText (s ++ x)) = true := by
  induction row generalizing slash s with
  | nil => exact isMarked_iff_exists.2 ⟨s ++ x, by simp⟩
  | cons segment row ih =>
      have hrest (next : Segment) (more : List Segment) (hrow : row = next :: more) (s : Text)
          (hs : EndsInSlash s) (h : matchRow true row (ofText s) = true) :
          matchRow true row (ofText (s ++ x)) = true := by
        refine ih (fun last hmem => hlast last ?_) hs h
        rw [hrow] at hmem ⊢
        exact hmem
      by_cases hdeep : segment = .deep
      · rw [matchRow, if_pos hdeep] at h ⊢
        cases row with
        | nil => exact (carries_one x _).isMarked h
        | cons next more => exact (carries_behindDeeper x).matchRow (hrest next more rfl) hs h
      · have hfirst (s : Text) (hs : EndsInSlash s)
            (h : matchRow false (segment :: row) (ofText s) = true) :
            matchRow false (segment :: row) (ofText (s ++ x)) = true := by
          rw [matchRow_false_cons hdeep] at h ⊢
          cases row with
          | cons next more => exact (carries_pass x segment).matchRow (hrest next more rfl) hs h
          | nil =>
              obtain ⟨hshallow, hempty⟩ := hlast segment rfl
              cases segment with
              | deep => contradiction
              | anyName => exact absurd trivial hshallow
              | glob g => exact closes_append (fun hg => hempty (by rw [hg])) hshallow hs h
        cases slash with
        | false => exact hfirst s hs h
        | true =>
            rw [matchRow_true_cons hdeep] at h ⊢
            exact (carries_one x _).matchRow hfirst hs h

/-! ### Patterns as they are read -/

lemma Glob.length_le_of_ofTextFrom {done g : Glob} {s : Text} (h : ofTextFrom done s = some g) :
    done.length + min 1 s.length ≤ g.length := by
  fun_induction ofTextFrom done s with
  | case1 done =>
      obtain rfl := Option.some.inj h
      simp
  | case4 => contradiction
  | _ =>
      rename_i ih
      have hlength := ih h
      simp only [List.length_cons] at hlength ⊢
      omega

/-- No piece is read as a glob that spells nothing but the empty text. -/
lemma ofText?_ne_glob_nil {piece : Text} (h : piece ≠ []) :
    Segment.ofText? piece ≠ some (.glob []) := by
  intro hread
  rw [Segment.ofText?] at hread
  split at hread
  · contradiction
  · split at hread
    · contradiction
    · obtain ⟨g, hg, hnil⟩ := Option.map_eq_some_iff.1 hread
      obtain rfl := Segment.glob.inj hnil
      have hlength := Glob.length_le_of_ofTextFrom hg
      have hpos := List.length_pos_iff.2 h
      simp only [List.length_nil] at hlength
      omega

lemma getLast?_collapseDeep (pieces : List Text) :
    (collapseDeep pieces).getLast? = pieces.getLast? := by
  induction pieces with
  | nil => rfl
  | cons piece pieces ih =>
      rw [collapseDeep]
      split
      · next h =>
          rw [Bool.and_eq_true, decide_eq_true_eq, decide_eq_true_eq] at h
          obtain ⟨next, more, rfl⟩ := List.exists_cons_of_ne_nil (l := pieces)
            (by rintro rfl; simp at h)
          rw [ih, List.getLast?_cons_cons]
      · rw [List.getLast?_cons, List.getLast?_cons, ih]

/-- The last piece of a row is not empty: what is inside is asked for in words. -/
lemma getLast?_tiedRow_ne (pieces : List Text) : (tiedRow pieces).getLast? ≠ some [] := by
  rw [tiedRow, getLast?_collapseDeep, opened]
  split
  · simp [deepText]
  · assumption

lemma exists_of_mem_getLast? {pieces : List Text} {row : List Segment}
    (h : segments? pieces = some row) {segment : Segment} (hlast : segment ∈ row.getLast?) :
    ∃ piece ∈ pieces.getLast?, Segment.ofText? piece = some segment := by
  rcases List.eq_nil_or_concat' pieces with rfl | ⟨before, piece, rfl⟩
  · obtain rfl := Option.some.inj h
    contradiction
  · obtain ⟨first, rest, -, hrest, rfl⟩ := segments?_append.1 h
    obtain ⟨last, more, hpiece, hmore, rfl⟩ := segments?_cons.1 hrest
    rw [segments?_nil] at hmore
    obtain rfl := Option.some.inj hmore
    rw [List.getLast?_concat, Option.mem_some_iff] at hlast
    exact ⟨piece, by simp, hlast ▸ hpiece⟩

lemma segments?_of_ofBody? {body : Text} {row : List Segment}
    (h : Shape.ofBody? body = some (.segments row)) :
    segments? (normalise (splitSlash body)) = some row := by
  rw [Shape.ofBody?] at h
  generalize normalise (splitSlash body) = pieces at h ⊢
  split at h
  · contradiction
  · split at h
    · split at h <;> simp at h
    · split at h
      · simp at h
      · split at h
        · simp at h
        · obtain ⟨segments, hsegments, heq⟩ := Option.map_eq_some_iff.1 h
          obtain rfl := Shape.segments.inj heq
          exact hsegments

/-- The last segment of a pattern that was read spells more than the empty text. -/
lemma getLast?_ne_of_ofBody? {body : Text} {row : List Segment}
    (h : Shape.ofBody? body = some (.segments row)) : row.getLast? ≠ some (.glob []) := by
  intro hlast
  obtain ⟨piece, hmem, hpiece⟩ := exists_of_mem_getLast? (segments?_of_ofBody? h) hlast
  have hne : piece ≠ [] := by
    rintro rfl
    rw [normalise_eq] at hmem
    exact getLast?_tiedRow_ne _ hmem
  exact ofText?_ne_glob_nil hne hpiece

/-- **What matches a directory matches what is inside**, if it was read and is not shallow. -/
lemma matches_append {body : Text} {shape : Shape} (hbody : Shape.ofBody? body = some shape)
    (hshallow : ¬ shape.IsShallow) (hs : EndsInSlash s) (h : shape.matches s = true) :
    shape.matches (s ++ x) = true := by
  cases shape with
  | everything =>
      rw [Shape.matches, List.any_append, Bool.or_eq_true]
      exact .inl h
  | inDirectory =>
      rw [Shape.matches, List.contains_iff_mem] at h ⊢
      exact List.mem_append_left x h
  | segments row =>
      have hlast : ∀ segment ∈ row.getLast?, ¬ segment.IsShallow ∧ segment ≠ .glob [] := by
        intro segment hmem
        refine ⟨fun hsegment => hshallow ⟨segment, hmem, hsegment⟩, ?_⟩
        rintro rfl
        exact getLast?_ne_of_ofBody? hbody hmem
      rw [Shape.matches] at h ⊢
      cases row with
      | nil => exact matchRow_append hlast hs h
      | cons first rest =>
          by_cases hdeep : first = .deep
          · subst hdeep
            cases rest with
            | nil => exact matchRow_append hlast hs h
            | cons next more =>
                rw [matchPath] at h ⊢
                exact (carries_behindDirectories x).matchRow
                  (fun s hs h => matchRow_append hlast hs h) hs h
          · rw [matchPath_tied (by simpa using hdeep)] at h ⊢
            exact matchRow_append hlast hs h

/-! ### Rules without negation -/

/-- What a path may start with stands in front of its first slash, or is that slash. -/
lemma relative_append {path : Text} (hne : path ≠ []) (hends : EndsInSlash path) (rest : Text) :
    relative (path ++ rest) = relative path ++ rest ∧ relative path <:+ path := by
  match path, hne, hends with
  | [c], _, hends =>
      obtain rfl : c = '/' := hends c rfl
      exact ⟨rfl, List.nil_suffix⟩
  | c :: second :: path, _, _ =>
      by_cases hslash : c = '/'
      · subst hslash
        exact ⟨rfl, List.suffix_cons '/' (second :: path)⟩
      · by_cases hdot : c = '.' ∧ second = '/'
        · obtain ⟨rfl, rfl⟩ := hdot
          exact ⟨rfl, ['.', '/'], rfl⟩
        · have hsame (y : Text) : relative (c :: second :: y) = c :: second :: y := by
            rw [relative]
            · simpa using hslash
            · simpa using hdot
          rw [List.cons_append, List.cons_append, hsame, hsame]
          exact ⟨rfl, List.suffix_rfl⟩

variable {lines : List Text} {rules : Rules} {pattern : Pattern}

/-- The pattern of a line takes something back only if the line says so. -/
lemma ofLine?_eq_some {line : Text} (h : Pattern.ofLine? line = .ok (some pattern)) :
    (∃ body, Shape.ofBody? body = some pattern.shape) ∧
      (pattern.negated = true → line.head? = some '!') := by
  rw [Pattern.ofLine?] at h
  split at h
  · simp at h
  · simp at h
  · next c rest hne htext =>
      obtain ⟨blanks, hline, -⟩ := exists_dropBlanks line
      dsimp only at h
      split at h
      · simp at h
      · next shape hbody =>
          split at h
          · simp at h
          · obtain rfl := Option.some.inj (Except.ok.inj h)
            refine ⟨⟨_, hbody⟩, fun hnegated => ?_⟩
            rw [hline, htext, of_decide_eq_true hnegated]
            rfl

lemma exists_line_of_readPatterns {patterns : List Pattern}
    (h : Rules.readPatterns lines = .ok patterns) (hmem : pattern ∈ patterns) :
    ∃ line ∈ lines, Pattern.ofLine? line = .ok (some pattern) := by
  induction lines generalizing patterns with
  | nil =>
      obtain rfl := Except.ok.inj h
      contradiction
  | cons line lines ih =>
      rw [Rules.readPatterns, bind_eq_ok_iff] at h
      obtain ⟨pattern?, hfirst, h⟩ := h
      obtain ⟨rest, hrest, h⟩ := bind_eq_ok_iff.1 h
      obtain rfl := Except.ok.inj h
      rcases List.mem_append.1 hmem with hmem | hmem
      · exact ⟨line, by simp, by rw [hfirst, Option.mem_toList.1 hmem]⟩
      · obtain ⟨other, hother, hread⟩ := ih hrest hmem
        exact ⟨other, by simp [hother], hread⟩

/-- Each pattern of some rules is that of a line. -/
lemma exists_line_of_mem (h : Rules.ofLines lines = .ok rules) (hmem : pattern ∈ rules.patterns) :
    ∃ line ∈ lines, Pattern.ofLine? line = .ok (some pattern) := by
  obtain ⟨hlines, hpatterns⟩ := ofLines_eq_ok_iff.1 h
  obtain ⟨line, hline, hread⟩ := exists_line_of_readPatterns hpatterns hmem
  rw [hlines] at hline
  exact ⟨line, List.mem_of_mem_filter hline, hread⟩

/-- Without negation, what some pattern matches is ignored. -/
lemma ignores_iff (h : Rules.ofLines lines = .ok rules)
    (hplain : ∀ line ∈ lines, line.head? ≠ some '!') (path : Text) :
    rules.ignores path = true ↔
      ∃ pattern ∈ rules.patterns, pattern.shape.matches (relative path) = true := by
  have hverdict : ∀ pattern ∈ rules.patterns, pattern.verdict = .ignored := by
    intro pattern hmem
    obtain ⟨line, hline, hread⟩ := exists_line_of_mem h hmem
    have hnegated : pattern.negated = false := by
      rw [Bool.eq_false_iff]
      exact fun hnegated => hplain line hline ((ofLine?_eq_some hread).2 hnegated)
    rw [Pattern.verdict, hnegated]
    rfl
  rw [Rules.ignores, decide_eq_true_eq, Rules.verdict?, Option.map_eq_some_iff]
  constructor
  · rintro ⟨pattern, hfind, -⟩
    have hmatch := List.find?_some hfind
    exact ⟨pattern, List.mem_reverse.1 (List.mem_of_find?_eq_some hfind), hmatch⟩
  · rintro ⟨pattern, hmem, hmatch⟩
    have hsome : (rules.patterns.reverse.find? (·.shape.matches (relative path))).isSome = true :=
      List.find?_isSome.2 ⟨pattern, List.mem_reverse.2 hmem, hmatch⟩
    obtain ⟨found, hfind⟩ := Option.isSome_iff_exists.1 hsome
    exact ⟨found, hfind, hverdict found (List.mem_reverse.1 (List.mem_of_find?_eq_some hfind))⟩

/-- Whether a shallow pattern matches a directory that leads to a path. -/
def Rules.CutOff (rules : Rules) (path : Text) : Prop :=
  ∃ directory rest, path = directory ++ '/' :: rest ∧
    ∃ pattern ∈ rules.patterns, pattern.shape.IsShallow ∧
      pattern.shape.matches (relative (directory ++ ['/'])) = true

/-- **What lies in an ignored directory** is ignored itself, or cut off by a shallow pattern. -/
lemma ignores_or_cutOff (h : Rules.ofLines lines = .ok rules)
    (hplain : ∀ line ∈ lines, line.head? ≠ some '!') {directory rest : Text}
    (hignored : rules.ignores (directory ++ ['/']) = true) :
    rules.ignores (directory ++ '/' :: rest) = true ∨
      rules.CutOff (directory ++ '/' :: rest) := by
  obtain ⟨pattern, hmem, hmatch⟩ := (ignores_iff h hplain _).1 hignored
  by_cases hshallow : pattern.shape.IsShallow
  · exact .inr ⟨directory, rest, rfl, pattern, hmem, hshallow, hmatch⟩
  · obtain ⟨line, -, hline⟩ := exists_line_of_mem h hmem
    obtain ⟨⟨body, hbody⟩, -⟩ := ofLine?_eq_some hline
    have hends : EndsInSlash (directory ++ ['/']) := by simp [EndsInSlash]
    obtain ⟨hrelative, hsuffix⟩ := relative_append (by simp) hends rest
    refine .inl ((ignores_iff h hplain _).2 ⟨pattern, hmem, ?_⟩)
    rw [List.append_cons, hrelative]
    exact matches_append hbody hshallow (hends.of_isSuffix hsuffix) hmatch

end Ignore

end GeneratedCode
