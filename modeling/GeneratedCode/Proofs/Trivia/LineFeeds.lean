import Mathlib.Tactic
import GeneratedCode.Proofs.Trivia.Grammar

/-!
Texts whose lines end in another way.

`Text.withLineFeeds` writes every end of a line as a line feed. It shortens a text wherever a
carriage return and a line feed end a line together, so it respects a seam between two texts only
if no such pair lies across it (`withLineFeeds_append`).

* `next?_withLineFeeds`: the first piece of the rewritten text is the first piece, rewritten; none
  starts where none did.
* `leadingOf_withLineFeeds`: so are all pieces, and the token behind them stands where the text in
  front of it ends, rewritten.
-/

namespace GeneratedCode

namespace Text

open Trivia

/-- The text with a line feed as the only end of a line. -/
def withLineFeeds : Text → Text
  | [] => []
  | '\r' :: '\n' :: rest => '\n' :: withLineFeeds rest
  | c :: rest => (if c ∈ lineBreaks then '\n' else c) :: withLineFeeds rest

example : withLineFeeds "a\r\r\nb\n\u2028".toList = "a\n\nb\n\n".toList := by decide

variable {s u : Text} {c : Char}

/-! ### Rewriting in front -/

lemma withLineFeeds_cons (h : ¬ (c = '\r' ∧ s.head? = some '\n')) :
    withLineFeeds (c :: s) = (if c ∈ lineBreaks then '\n' else c) :: withLineFeeds s := by
  rw [withLineFeeds]
  rintro rest rfl rfl
  exact h ⟨rfl, rfl⟩

lemma withLineFeeds_cons_of_notMem (hc : c ∉ lineBreaks) :
    withLineFeeds (c :: s) = c :: withLineFeeds s := by
  rw [withLineFeeds_cons, if_neg hc]
  rintro ⟨rfl, -⟩
  exact hc (by decide)

/-- What stands in front is rewritten by itself. -/
lemma head?_withLineFeeds (s : Text) :
    (withLineFeeds s).head? = s.head?.map fun c => if c ∈ lineBreaks then '\n' else c := by
  fun_cases withLineFeeds s with
  | case1 => rfl
  | case2 rest => rfl
  | case3 c rest h => rfl

lemma head?_withLineFeeds_eq_some_iff (hc : c ∉ lineBreaks) :
    (withLineFeeds s).head? = some c ↔ s.head? = some c := by
  have hfeed : '\n' ∈ lineBreaks := by decide
  rw [head?_withLineFeeds]
  cases s with
  | nil => simp
  | cons d s =>
      simp only [List.head?_cons, Option.map_some, Option.some.injEq]
      by_cases hd : d ∈ lineBreaks
      · rw [if_pos hd]
        exact ⟨fun h => absurd (h ▸ hfeed) hc, fun h => absurd (h ▸ hd) hc⟩
      · rw [if_neg hd]

/-! ### Rewriting in parts -/

/-- Two texts are rewritten one by one, unless an end of a line lies across the seam. -/
lemma withLineFeeds_append (h : ¬ (u.getLast? = some '\r' ∧ s.head? = some '\n')) :
    withLineFeeds (u ++ s) = withLineFeeds u ++ withLineFeeds s := by
  fun_induction withLineFeeds u with
  | case1 => rfl
  | case2 rest ih =>
      have hrest : ¬ (rest.getLast? = some '\r' ∧ s.head? = some '\n') := by
        intro hseam
        refine h ⟨?_, hseam.2⟩
        have hne : rest ≠ [] := by rintro rfl; simp at hseam
        rw [List.getLast?_cons_of_ne_nil (by simp), List.getLast?_cons_of_ne_nil hne, hseam.1]
      rw [List.cons_append, List.cons_append, withLineFeeds, ih hrest, List.cons_append]
  | case3 c rest hcrlf ih =>
      have hrest : ¬ (rest.getLast? = some '\r' ∧ s.head? = some '\n') := by
        intro hseam
        refine h ⟨?_, hseam.2⟩
        have hne : rest ≠ [] := by rintro rfl; simp at hseam
        rw [List.getLast?_cons_of_ne_nil hne, hseam.1]
      rw [List.cons_append, withLineFeeds_cons, ih hrest, List.cons_append]
      rintro ⟨rfl, hhead⟩
      cases rest with
      | nil => exact h ⟨rfl, by simpa using hhead⟩
      | cons d rest => exact hcrlf rest rfl (by simpa using hhead)

/-- A text within a line stays. -/
lemma withLineFeeds_of_line (h : ∀ c ∈ s, c ∉ lineBreaks) : withLineFeeds s = s := by
  induction s with
  | nil => rfl
  | cons c s ih =>
      rw [withLineFeeds_cons_of_notMem (h c (by simp)), ih fun d hd => h d (by simp [hd])]

lemma withLineFeeds_eq_nil_iff : withLineFeeds s = [] ↔ s = [] := by
  fun_cases withLineFeeds s <;> simp

/-! ### What stays -/

/-- Comments are closed where they were. -/
lemma noClose_withLineFeeds : NoClose (withLineFeeds s) ↔ NoClose s := by
  have hslash : '/' ∉ lineBreaks := by decide
  fun_induction withLineFeeds s with
  | case1 => rfl
  | case2 rest ih => simp [noClose_cons, ih]
  | case3 c rest hcrlf ih =>
      have hstar : (if c ∈ lineBreaks then '\n' else c) = '*' ↔ c = '*' := by
        split
        · next hc =>
            constructor
            · intro h
              exact absurd h (by decide)
            · rintro rfl
              exact absurd hc (by decide)
        · rfl
      rw [noClose_cons, noClose_cons, head?_withLineFeeds_eq_some_iff hslash, hstar]
      exact and_congr_right fun _ => ih

/-- A run of characters of which none ends a line is cut off where it was. -/
lemma takeWhile_withLineFeeds {p : Char → Bool} (hp : ∀ c, p c = true → c ∉ lineBreaks) :
    (withLineFeeds s).takeWhile p = s.takeWhile p := by
  have hbreak {d : Char} (hd : d ∈ lineBreaks) : p d = false := by
    cases h : p d with
    | false => rfl
    | true => exact absurd hd (hp d h)
  have hfeed : p '\n' = false := hbreak (by decide)
  have hreturn : p '\r' = false := hbreak (by decide)
  fun_induction withLineFeeds s with
  | case1 => rfl
  | case2 rest ih => simp [hfeed, hreturn]
  | case3 c rest hcrlf ih =>
      by_cases hc : c ∈ lineBreaks
      · simp [hc, hfeed, hbreak hc]
      · rw [if_neg hc, List.takeWhile_cons, List.takeWhile_cons, ih]

end Text

namespace Trivia

open Text

variable {s rest : Text} {lineStart : Bool} {t : Trivia}

/-! ### One piece -/

/-- The piece with a line feed as the only end of a line. -/
def withLineFeeds (t : Trivia) : Trivia :=
  { t with text := Text.withLineFeeds t.text }

@[simp] lemma kind_withLineFeeds (t : Trivia) : t.withLineFeeds.kind = t.kind := rfl

/-- No end of a line lies across the end of a piece. -/
lemma WellFormed.no_seam {p : Prop} (hwf : WellFormed p (rest = []) t) (hmax : Maximal t rest) :
    ¬ (t.text.getLast? = some '\r' ∧ rest.head? = some '\n') := by
  rintro ⟨hlast, hhead⟩
  have hmem : '\r' ∈ t.text := List.mem_of_getLast? hlast
  obtain ⟨kind, text⟩ := t
  have hreturn : '\r' ∈ lineBreaks := by decide
  cases kind with
  | endOfLine =>
      have hends : ∀ text ∈ lineEnds, text.getLast? = some '\r' → text = ['\r'] := by decide
      exact hmax (hends text hwf hlast) hhead
  | whitespace => exact notMem_lineBreaks_of_mem_spaces (hwf.2 _ hmem) hreturn
  | multiLineComment =>
      obtain ⟨⟨body, rfl⟩, hclosed | ⟨-, rfl⟩⟩ := hwf
      · obtain ⟨inner, rfl, -⟩ := isClosed_iff.1 hclosed
        rw [← List.append_assoc, List.getLast?_append] at hlast
        exact absurd hlast (by simp)
      · simp at hhead
  | singleLineComment => exact hwf.1 _ hmem hreturn
  | documentationComment => exact hwf.1 _ hmem hreturn
  | directive => exact hwf.1 _ hmem hreturn

lemma isClosed_withLineFeeds {body : Text} (h : IsClosed ('/' :: '*' :: body)) :
    IsClosed ('/' :: '*' :: Text.withLineFeeds body) := by
  obtain ⟨inner, rfl, hinner⟩ := isClosed_iff.1 h
  have hstar (s : Text) : Text.withLineFeeds (inner ++ '*' :: s) =
      Text.withLineFeeds inner ++ '*' :: Text.withLineFeeds s := by
    rw [withLineFeeds_append (by simp), withLineFeeds_cons_of_notMem (by decide)]
  refine isClosed_iff.2 ⟨Text.withLineFeeds inner, hstar ['/'], ?_⟩
  rw [← noClose_withLineFeeds, hstar] at hinner
  exact hinner

/-- A rewritten piece is of its kind. -/
lemma WellFormed.withLineFeeds {p : Prop} (h : WellFormed p (rest = []) t) :
    WellFormed p (Text.withLineFeeds rest = []) t.withLineFeeds := by
  obtain ⟨kind, text⟩ := t
  cases kind with
  | endOfLine =>
      have hends : ∀ text ∈ lineEnds, Text.withLineFeeds text ∈ lineEnds := by decide
      exact hends text h
  | whitespace =>
      have hsame := withLineFeeds_of_line fun c hc => notMem_lineBreaks_of_mem_spaces (h.2 c hc)
      rwa [Trivia.withLineFeeds, hsame]
  | multiLineComment =>
      obtain ⟨⟨body, rfl⟩, h⟩ := h
      have hbody : Text.withLineFeeds ('/' :: '*' :: body) =
          '/' :: '*' :: Text.withLineFeeds body := by
        rw [withLineFeeds_cons_of_notMem (by decide), withLineFeeds_cons_of_notMem (by decide)]
      refine ⟨⟨Text.withLineFeeds body, hbody.symm⟩, ?_⟩
      simp only [Trivia.withLineFeeds, List.cons_append, List.nil_append] at h ⊢
      rw [hbody]
      refine h.imp isClosed_withLineFeeds fun hopen => ?_
      rw [isUnclosed_iff, noClose_withLineFeeds, withLineFeeds_eq_nil_iff, ← isUnclosed_iff]
      exact hopen
  | singleLineComment => rwa [Trivia.withLineFeeds, withLineFeeds_of_line h.1]
  | documentationComment => rwa [Trivia.withLineFeeds, withLineFeeds_of_line h.1]
  | directive => rwa [Trivia.withLineFeeds, withLineFeeds_of_line h.1]

/-- A rewritten piece goes on as long as it can. -/
lemma Maximal.withLineFeeds (h : Maximal t rest) :
    Maximal t.withLineFeeds (Text.withLineFeeds rest) := by
  have hfeed : '\n' ∈ lineBreaks := by decide
  have hspace : '\n' ∉ spaces := by decide
  obtain ⟨kind, text⟩ := t
  cases kind with
  | endOfLine =>
      -- no piece is a carriage return any more
      have hends : ∀ text, Text.withLineFeeds text ≠ ['\r'] := by
        intro text hreturn
        have hhead := congrArg List.head? hreturn
        rw [head?_withLineFeeds] at hhead
        obtain ⟨c, -, hc⟩ := Option.map_eq_some_iff.1 hhead
        split at hc
        · exact absurd hc (by decide)
        · next hno => exact hno (hc ▸ by decide)
      exact fun hreturn => absurd hreturn (hends text)
  | multiLineComment => trivial
  | whitespace =>
      intro c hc
      rw [head?_withLineFeeds] at hc
      obtain ⟨d, hd, rfl⟩ := Option.map_eq_some_iff.1 hc
      split
      · exact hspace
      · exact h d hd
  | _ =>
      intro c hc
      rw [head?_withLineFeeds] at hc
      obtain ⟨d, hd, rfl⟩ := Option.map_eq_some_iff.1 hc
      rwa [if_pos (h d hd)]

/-- The first piece of a rewritten text is the first piece, rewritten. -/
lemma next?_withLineFeeds (h : next? lineStart s = some (t, rest)) :
    next? lineStart (Text.withLineFeeds s) = some (t.withLineFeeds, Text.withLineFeeds rest) := by
  obtain ⟨rfl, hwf, hmax⟩ := next?_eq_some_iff.1 h
  exact next?_eq_some_iff.2
    ⟨withLineFeeds_append (hwf.no_seam hmax), hwf.withLineFeeds, hmax.withLineFeeds⟩

lemma StartsNone.head?_notMem {p : Prop} (h : StartsNone p s) : ∀ c ∈ s.head?, c ∉ lineBreaks :=
  fun c hc => (h.2.2 c hc).1

/-- Where no trivia start in a text, none start in the rewritten one. -/
lemma StartsNone.withLineFeeds {p : Prop} (h : StartsNone p s) :
    StartsNone p (Text.withLineFeeds s) := by
  cases s with
  | nil => exact h
  | cons c s =>
      have hsecond {d e : Char} (he : e ∉ lineBreaks) :
          [d, e] <+: c :: Text.withLineFeeds s ↔ [d, e] <+: c :: s := by
        simp only [List.cons_prefix_cons, List.singleton_prefix_iff_head?_eq_some,
          head?_withLineFeeds_eq_some_iff he]
      rw [withLineFeeds_cons_of_notMem (h.head?_notMem c rfl)]
      exact ⟨(hsecond (by decide)).not.2 h.1, (hsecond (by decide)).not.2 h.2.1, h.2.2⟩

/-! ### All pieces -/

/-- The pieces of a rewritten text are its pieces, rewritten. -/
lemma pieces_withLineFeeds (lineStart : Bool) (s : Text) :
    pieces lineStart (Text.withLineFeeds s) =
      ((pieces lineStart s).1.map Trivia.withLineFeeds,
        Text.withLineFeeds (pieces lineStart s).2) := by
  fun_induction pieces lineStart s with
  | case1 lineStart s h =>
      exact pieces_of_none (next?_eq_none_iff.2 (next?_eq_none_iff.1 h).withLineFeeds)
  | case2 lineStart s t rest h ts after hrec ih =>
      rw [pieces_of_some (next?_withLineFeeds h), kind_withLineFeeds, ih, hrec]
      rfl

/-- A byte order mark ends no line. -/
lemma markLength_withLineFeeds (s : Text) : markLength (Text.withLineFeeds s) = markLength s := by
  have hmark : byteOrderMark ∉ lineBreaks := by decide
  simp only [markLength, head?_withLineFeeds_eq_some_iff hmark]

lemma drop_markLength_withLineFeeds (s : Text) :
    (Text.withLineFeeds s).drop (markLength s) = Text.withLineFeeds (s.drop (markLength s)) := by
  by_cases h : s.head? = some byteOrderMark
  · obtain ⟨u, rfl⟩ := List.head?_eq_some_iff.1 h
    rw [withLineFeeds_cons_of_notMem (by decide)]
    rfl
  · rw [markLength, if_neg h, List.drop_zero, List.drop_zero]

/-- Where the trivia of a text end, none start. -/
lemma startsNone_rest (s : Text) :
    StartsNone (lineStartAfter true (leadingOf s).trivia = true) (leadingOf s).rest :=
  (pieces_eq_iff.1 (show pieces true (s.drop (markLength s)) =
    ((leadingOf s).trivia, (leadingOf s).rest) from rfl)).2.2

/-- **All pieces**: in front of its first token, a rewritten text has the trivia of the text,
rewritten, and the token stands where the text in front of it ends, rewritten. -/
lemma leadingOf_withLineFeeds (s : Text) :
    leadingOf (Text.withLineFeeds s) =
      ⟨(leadingOf s).trivia.map Trivia.withLineFeeds,
        (Text.withLineFeeds (s.take (leadingOf s).position)).length,
        Text.withLineFeeds (leadingOf s).rest⟩ := by
  have hpieces : pieces true ((Text.withLineFeeds s).drop (markLength (Text.withLineFeeds s))) =
      ((leadingOf s).trivia.map Trivia.withLineFeeds, Text.withLineFeeds (leadingOf s).rest) := by
    rw [markLength_withLineFeeds, drop_markLength_withLineFeeds, pieces_withLineFeeds]
    rfl
  obtain ⟨htrivia, hrest⟩ := Prod.mk.inj hpieces
  change (leadingOf (Text.withLineFeeds s)).trivia = _ at htrivia
  change (leadingOf (Text.withLineFeeds s)).rest = _ at hrest
  -- no end of a line lies across the start of the token
  have hsplit : Text.withLineFeeds s =
      Text.withLineFeeds (s.take (leadingOf s).position) ++
        Text.withLineFeeds (leadingOf s).rest := by
    rw [leadingOf_rest, ← withLineFeeds_append, List.take_append_drop]
    rintro ⟨-, hhead⟩
    rw [← leadingOf_rest] at hhead
    exact (startsNone_rest s).head?_notMem '\n' hhead (by decide)
  have hlength := congrArg List.length hsplit
  have hdrop := congrArg List.length (leadingOf_rest (Text.withLineFeeds s))
  have hle := leadingOf_position_le (Text.withLineFeeds s)
  rw [hrest, List.length_drop] at hdrop
  rw [List.length_append] at hlength
  have hposition : (leadingOf (Text.withLineFeeds s)).position =
      (Text.withLineFeeds (s.take (leadingOf s).position)).length := by omega
  rw [← htrivia, ← hposition, ← hrest]

end Trivia

end GeneratedCode
