import Mathlib.Tactic
import GeneratedCode.Ignore.Nested
import GeneratedCode.Proofs.Ignore.Bodies
import GeneratedCode.Proofs.Ignore.Lines

/-!
The bodies of rewritten lines.

A rewritten body is its directory, a slash, and what it says behind that (`rebaseBody_eq`).
`rebaseBody` looks at a body as it stands, and the reader at what is left of it without the blanks
at its end. That makes no difference but to a directory with blanks behind its slash (`Spaced`),
which is tied to its place where it should not be (`behindDirectory_of_spaced`). Of any other body
the row is kept (`tiedRow_behindDirectory`), or it asks for a name of no characters and matches
nothing anyway.
-/

namespace GeneratedCode

namespace Ignore

open Text GeneratedCode.Path

/-! ### The body of the rewritten line -/

lemma exists_dropEnd (c : Char) (s : Text) : ∃ k, s = dropEnd c s ++ List.replicate k c := by
  refine ⟨(s.reverse.takeWhile (· == c)).length, ?_⟩
  have hreplicate : (s.reverse.takeWhile (· == c)) =
      List.replicate (s.reverse.takeWhile (· == c)).length c := by
    rw [List.eq_replicate_iff]
    refine ⟨rfl, fun d hd => ?_⟩
    have hd := List.mem_takeWhile_imp hd
    exact beq_iff_eq.1 hd
  calc s = (s.reverse.takeWhile (· == c) ++ s.reverse.dropWhile (· == c)).reverse := by
        rw [List.takeWhile_append_dropWhile, List.reverse_reverse]
    _ = dropEnd c s ++ (s.reverse.takeWhile (· == c)).reverse := by
        rw [List.reverse_append, dropEnd]
    _ = dropEnd c s ++ List.replicate (s.reverse.takeWhile (· == c)).length c := by
        rw [hreplicate, List.reverse_replicate, List.length_replicate]

lemma dropEnd_of_notMem {c : Char} {s : Text} (h : c ∉ s) : dropEnd c s = s := by
  obtain ⟨k, hk⟩ := exists_dropEnd c s
  cases k with
  | zero => rw [List.replicate_zero, List.append_nil] at hk; exact hk.symm
  | succ k =>
      rw [hk] at h
      simp at h

lemma dropEnd_dropEnd (c : Char) (s : Text) : dropEnd c (dropEnd c s) = dropEnd c s :=
  List.rdropWhile_idempotent _ s

lemma dropEnd_append {c d : Char} (h : d ≠ c) (before after : Text) :
    dropEnd c (before ++ d :: after) = before ++ d :: dropEnd c after :=
  @rdropWhile_append (· == c) d (beq_false_of_ne h) before after

/-- The pieces of a name with slashes behind it. -/
lemma splitSlash_replicate {name : Text} (h : '/' ∉ name) (k : ℕ) :
    splitSlash (name ++ List.replicate k '/') = name :: List.replicate k [] := by
  induction k generalizing name with
  | zero => rw [List.replicate_zero, List.append_nil, splitSlash_of_notMem h]; rfl
  | succ k ih =>
      have hrest := @ih [] (by simp)
      rw [List.nil_append] at hrest
      rw [List.replicate_succ, splitSlash_append, splitSlash_of_notMem h, hrest]
      rfl

/-- What a rewritten body says behind its directory and a slash. -/
def behindDirectory (body : Text) : Text :=
  if body.head? = some '/' then body.tail
  else if (dropEnd '/' body).contains '/' then body
  else "**/".toList ++ body

lemma rebaseBody_eq (directory body : Text) :
    rebaseBody directory body = directory ++ '/' :: behindDirectory body := by
  rw [rebaseBody, behindDirectory]
  split
  · next hhead =>
      obtain ⟨rest, rfl⟩ := List.head?_eq_some_iff.1 hhead
      rfl
  · split
    · rfl
    · simp

lemma dropBlanks_rebaseBody (directory body : Text) :
    dropBlanks (rebaseBody directory body) =
      directory ++ '/' :: dropBlanks (behindDirectory body) := by
  rw [rebaseBody_eq, dropBlanks_slash]

/-- A directory with blanks behind its slash. -/
def Spaced (body : Text) : Prop :=
  dropBlanks body ≠ body ∧
    ∃ name, name ≠ [] ∧ name ≠ deepText ∧ splitSlash (dropBlanks body) = [name, []]

/-- What a character in the text is in, is in it without the blanks at its end. -/
lemma mem_dropBlanks_iff {c : Char} (hc : isBlank c = false) (body : Text) :
    c ∈ dropBlanks body ↔ c ∈ body := by
  obtain ⟨blanks, hbody, hblanks⟩ := exists_dropBlanks body
  refine ⟨fun h => by rw [hbody]; simp [h], fun h => ?_⟩
  rw [hbody] at h
  rcases List.mem_append.1 h with h | h
  · exact h
  · rw [hblanks c h] at hc
    contradiction

/-- Slashes at the end with blanks behind them are not at the end. -/
lemma dropEnd_of_dropBlanks_ne {body : Text} (h : dropBlanks body ≠ body) :
    dropEnd '/' body = body := by
  obtain ⟨blanks, hbody, hblanks⟩ := exists_dropBlanks body
  obtain ⟨k, hk⟩ := exists_dropEnd '/' body
  cases k with
  | zero => rw [List.replicate_zero, List.append_nil] at hk; exact hk.symm
  | succ k =>
      have hne : blanks ≠ [] := by
        rintro rfl
        exact h (by rw [List.append_nil] at hbody; exact hbody.symm)
      have hlast : '/' ∈ blanks := by
        have hblank := List.getLast?_append_of_ne_nil (dropBlanks body) hne
        rw [← hbody, hk, List.replicate_succ', ← List.append_assoc, List.getLast?_concat] at hblank
        exact List.mem_of_getLast? hblank.symm
      have hslash := hblanks _ hlast
      contradiction

/-- A single piece is all of the text. -/
lemma eq_of_splitSlash_eq {text name : Text} (h : splitSlash text = [name]) :
    text = name ∧ '/' ∉ name := by
  refine ⟨?_, notMem_of_mem_splitSlash (h ▸ List.mem_cons_self : name ∈ splitSlash text)⟩
  rw [← joinSlash_splitSlash text, h]
  rfl

lemma eq_concat_of_splitSlash_eq {text name : Text} (h : splitSlash text = [name, []]) :
    text = name ++ ['/'] ∧ '/' ∉ name := by
  refine ⟨?_, notMem_of_mem_splitSlash (h ▸ List.mem_cons_self : name ∈ splitSlash text)⟩
  rw [← joinSlash_splitSlash text, h]
  rfl

lemma head?_splitSlash {text : Text} (hne : text ≠ []) (hhead : text.head? ≠ some '/') :
    (splitSlash text).head? ≠ some [] := by
  obtain ⟨c, rest, rfl⟩ := List.exists_cons_of_ne_nil hne
  have hc : c ≠ '/' := fun heq => hhead (by rw [heq]; rfl)
  obtain ⟨piece, pieces, h⟩ := List.exists_cons_of_ne_nil (splitSlash_ne_nil rest)
  rw [splitSlash, if_neg hc, h]
  simp

/-! ### Rows of the rewritten body -/

/-- The pieces of a body with a slash inside, or with more slashes at the end than one, give its
place. -/
lemma placed_of_ne {pieces : List Text} (hhead : pieces.head? ≠ some [])
    (hone : ∀ name, pieces ≠ [name]) (htwo : ∀ name, pieces ≠ [name, []]) :
    placed pieces = pieces := by
  match pieces, hhead, hone, htwo with
  | [], _, _, _ => rfl
  | [] :: _, hhead, _, _ => exact absurd rfl hhead
  | [name], _, hone, _ => exact absurd rfl (hone name)
  | [name, []], _, _, htwo => exact absurd rfl (htwo name)
  | [_ :: _, _ :: _], _, _, _ => rfl
  | (_ :: _) :: [] :: _ :: _, _, _, _ => rfl
  | (_ :: _) :: (_ :: _) :: _ :: _, _, _, _ => rfl

lemma placed_singleton {name : Text} (h : name ≠ []) : placed [name] = [deepText, name] := by
  obtain ⟨c, rest, rfl⟩ := List.exists_cons_of_ne_nil h
  rfl

lemma placed_pair {name : Text} (h : name ≠ []) : placed [name, []] = [deepText, name, []] := by
  obtain ⟨c, rest, rfl⟩ := List.exists_cons_of_ne_nil h
  rfl

lemma tiedRow_deepText {name : Text} {more : List Text} (hmore : more ≠ []) :
    tiedRow (deepText :: name :: more) =
      if name = deepText then tiedRow (name :: more) else deepText :: tiedRow (name :: more) := by
  have hopened : opened (name :: more) = name :: opened more := opened_append [name] hmore
  have hdeep : opened (deepText :: name :: more) = deepText :: name :: opened more := by
    rw [show deepText :: name :: more = [deepText] ++ name :: more from rfl,
      opened_append [deepText] (by simp), hopened]
    rfl
  rw [tiedRow, tiedRow, hdeep, hopened, collapseDeep]
  simp

/-- Slashes at the end of a name that are more than one ask for a name of no characters. -/
lemma tiedRow_replicate {name : Text} (hname : name ≠ []) (k : ℕ) :
    let pieces := name :: List.replicate (k + 2) []
    tiedRow (deepText :: pieces) = normalise pieces ∨
      ∃ rest, name ≠ deepText ∧ rest ≠ [] ∧ normalise pieces = name :: [] :: rest ∧
        tiedRow (deepText :: pieces) = deepText :: name :: [] :: rest := by
  intro pieces
  have hplaced : placed pieces = pieces := by
    refine placed_of_ne (by simpa [pieces] using hname) (fun other heq => ?_) (fun other heq => ?_)
    · simp [pieces] at heq
    · simp [pieces, List.replicate_succ] at heq
  rw [normalise_eq, hplaced, tiedRow_deepText (by simp)]
  split
  · exact .inl rfl
  · next hdeep =>
      have hrest : [] :: List.replicate k ([] : Text) ≠ [] := by simp
      have hnames : deepText ∉ [name, []] := by
        intro hmem
        rcases List.mem_cons.1 hmem with heq | hmem
        · exact hdeep heq.symm
        · simp [deepText] at hmem
      have htied : tiedRow pieces = name :: [] :: tiedRow ([] :: List.replicate k []) :=
        tiedRow_names hnames hrest
      exact .inr ⟨_, hdeep, tiedRow_ne_nil hrest, htied, by rw [htied]⟩

section

variable {body : Text}

lemma head?_dropBlanks (hhead : body.head? ≠ some '/') : (dropBlanks body).head? ≠ some '/' := by
  obtain ⟨blanks, hbody, -⟩ := exists_dropBlanks body
  intro heq
  rw [hbody, List.head?_append, heq] at hhead
  exact hhead rfl

/-- A slash inside ties a body to its directory, as long as it stays inside without the blanks. -/
lemma tiedRow_of_inside (hfirst : (splitSlash (dropBlanks body)).head? ≠ some [])
    (hslash : '/' ∈ dropEnd '/' body) (h : ¬ Spaced body) :
    tiedRow (splitSlash (dropBlanks body)) = normalise (splitSlash (dropBlanks body)) := by
  have hmem : '/' ∈ dropBlanks body := by
    obtain ⟨k, hk⟩ := exists_dropEnd '/' body
    rw [mem_dropBlanks_iff rfl, hk]
    exact List.mem_append_left _ hslash
  rw [normalise_eq]
  by_cases htwo : ∃ name, splitSlash (dropBlanks body) = [name, []]
  · obtain ⟨name, hpieces⟩ := htwo
    obtain ⟨hjoined, hname⟩ := eq_concat_of_splitSlash_eq hpieces
    rw [hpieces] at hfirst ⊢
    by_cases hdeep : name = deepText
    · rw [hdeep]
      rfl
    · -- without blanks behind it, the slash would not be inside
      have hsame : dropBlanks body = body := by
        by_contra hblanks
        exact h ⟨hblanks, name, fun heq => hfirst (by rw [heq]; rfl), hdeep, hpieces⟩
      have hend : dropEnd '/' (name ++ ['/']) = dropEnd '/' name := by simp [dropEnd]
      rw [← hsame, hjoined, hend, dropEnd_of_notMem hname] at hslash
      contradiction
  · rw [placed_of_ne hfirst (fun name hpieces => ?_) fun name hpieces => htwo ⟨name, hpieces⟩]
    obtain ⟨hjoined, hname⟩ := eq_of_splitSlash_eq hpieces
    exact hname (hjoined ▸ hmem)

/-- Without a slash inside, a body may match in any directory; with several at its end, it asks for
a name of no characters. -/
lemma tiedRow_of_end (hfirst : (splitSlash (dropBlanks body)).head? ≠ some [])
    (hslash : '/' ∉ dropEnd '/' body) :
    tiedRow (deepText :: splitSlash (dropBlanks body)) = normalise (splitSlash (dropBlanks body)) ∨
      ∃ name rest, name ≠ deepText ∧ rest ≠ [] ∧
        normalise (splitSlash (dropBlanks body)) = name :: [] :: rest ∧
        tiedRow (deepText :: splitSlash (dropBlanks body)) = deepText :: name :: [] :: rest := by
  by_cases hplaced :
      placed (splitSlash (dropBlanks body)) = deepText :: splitSlash (dropBlanks body)
  · rw [normalise_eq, hplaced]
    exact .inl rfl
  · -- the row is not the plain one, so there is a slash, and nothing is dropped behind it
    have hsame : dropBlanks body = body := by
      by_contra hblanks
      rw [dropEnd_of_dropBlanks_ne hblanks, ← mem_dropBlanks_iff rfl] at hslash
      rw [splitSlash_of_notMem hslash] at hplaced hfirst
      exact hplaced (placed_singleton fun heq => hfirst (by rw [heq]; rfl))
    obtain ⟨k, hk⟩ := exists_dropEnd '/' body
    have hpieces : splitSlash (dropBlanks body) = dropEnd '/' body :: List.replicate k [] := by
      rw [hsame]
      conv_lhs => rw [hk]
      exact splitSlash_replicate hslash k
    rw [hpieces] at hfirst hplaced ⊢
    have hname : dropEnd '/' body ≠ [] := fun heq => hfirst (by rw [heq]; rfl)
    match k with
    | 0 => exact absurd (placed_singleton hname) hplaced
    | 1 => exact absurd (placed_pair hname) hplaced
    | k + 2 =>
        rcases tiedRow_replicate hname k with hrow | ⟨rest, hdeep, hrest, hrow, htied⟩
        · exact .inl hrow
        · exact .inr ⟨_, rest, hdeep, hrest, hrow, htied⟩

/-- A directory with blanks behind its slash is rewritten as if it had a slash inside. -/
lemma behindDirectory_of_spaced (h : Spaced body) : behindDirectory body = body := by
  obtain ⟨hne, name, hname, -, hpieces⟩ := h
  obtain ⟨htext, hnameSlash⟩ := eq_concat_of_splitSlash_eq hpieces
  obtain ⟨c, rest, rfl⟩ := List.exists_cons_of_ne_nil hname
  obtain ⟨blanks, hbody, -⟩ := exists_dropBlanks body
  have hhead : body.head? ≠ some '/' := by
    rw [hbody, htext]
    rintro heq
    exact hnameSlash (by simp [Option.some.inj heq])
  have hslash : (dropEnd '/' body).contains '/' = true := by
    rw [dropEnd_of_dropBlanks_ne hne, List.contains_iff_mem, ← mem_dropBlanks_iff rfl,
      htext]
    simp
  rw [behindDirectory, if_neg hhead, if_pos hslash]

/-- Any other rewritten line keeps the row, if it does not ask for a name of no characters. -/
lemma tiedRow_behindDirectory (h : ¬ Spaced body) (hne : dropBlanks body ≠ []) :
    tiedRow (splitSlash (dropBlanks (behindDirectory body))) =
        normalise (splitSlash (dropBlanks body)) ∨
      ∃ name rest, name ≠ deepText ∧ rest ≠ [] ∧
        normalise (splitSlash (dropBlanks body)) = name :: [] :: rest ∧
        tiedRow (splitSlash (dropBlanks (behindDirectory body))) =
          deepText :: name :: [] :: rest := by
  by_cases hhead : body.head? = some '/'
  · -- the slash in front is the one behind the directory
    obtain ⟨rest, rfl⟩ := List.head?_eq_some_iff.1 hhead
    have htext : dropBlanks ('/' :: rest) = '/' :: dropBlanks rest := dropBlanks_slash [] rest
    left
    rw [behindDirectory, if_pos hhead, htext, splitSlash, if_pos rfl, normalise_eq]
    rfl
  · have hfirst := head?_splitSlash hne (head?_dropBlanks hhead)
    by_cases hslash : '/' ∈ dropEnd '/' body
    · left
      rw [behindDirectory, if_neg hhead, if_pos (List.contains_iff_mem.2 hslash)]
      exact tiedRow_of_inside hfirst hslash h
    · have hpieces : splitSlash (dropBlanks ("**/".toList ++ body)) =
          deepText :: splitSlash (dropBlanks body) := by
        rw [show "**/".toList ++ body = deepText ++ '/' :: body from rfl, dropBlanks_slash,
          splitSlash_append]
        rfl
      rw [behindDirectory, if_neg hhead, if_neg fun hin => hslash (List.contains_iff_mem.1 hin),
        hpieces]
      exact tiedRow_of_end hfirst hslash

end

end Ignore

end GeneratedCode
