import Mathlib.Tactic
import GeneratedCode.Proofs.Project.Walk

/-!
Ignore files that have no say.

The ignore files of the directories of a project are looked for in a walk of their own, which skips
what the project's own ignore file ignores, or the fixed list in its place. So the ignore file of a
directory that lies in such a place is never read. `keptSourceFiles_congr` says this of two projects
that differ in nothing else (`SameBut`): their rules are the same, and so are their source files,
with the possible exception of the ignore file itself.

What the other ignore files ignore does not count: `ignored_directory_has_say` is a project in which
the ignore file at the top ignores a directory, and the one in that directory takes this back.
-/

namespace GeneratedCode

namespace Path

/-- The path of what some names lead to from a directory. -/
def pathFrom (directory : Text) (names : List Text) : Text :=
  names.foldl entryOf directory

lemma pathFrom_concat (directory : Text) (names : List Text) (name : Text) :
    pathFrom directory (names ++ [name]) = entryOf (pathFrom directory names) name := by
  rw [pathFrom, List.foldl_append]
  rfl

lemma pathFrom_nil {names : List Text} (h : ∀ name ∈ names, IsName name) :
    pathFrom [] names = joinSlash names := by
  induction names using List.reverseRecOn with
  | nil => rfl
  | append_singleton names name ih =>
      have hnames : ∀ name ∈ names, IsName name := fun other hother => h other (by simp [hother])
      rw [pathFrom_concat, ih hnames, entryOf_joinSlash hnames]

end Path

namespace Project

open Ignore GeneratedCode.Path

/-- Two projects that differ at most in the ignore file of the directory that some names lead to: it
may hold other bytes, or be missing in one of them. -/
inductive SameBut : List Text → List Entry → List Entry → Prop where
  | here {entries others : List Entry}
      (hfile : ∀ entry ∈ entries ++ others, entry.name = nestedFile →
        ∃ content, entry = .file nestedFile content)
      (hrest : entries.filter (·.name ≠ nestedFile) = others.filter (·.name ≠ nestedFile)) :
      SameBut [] entries others
  | inside (name : Text) {names : List Text} {inner other : List Entry} (before after : List Entry)
      (h : SameBut names inner other) :
      SameBut (name :: names) (before ++ .directory name inner :: after)
        (before ++ .directory name other :: after)

/-- The rules of a project whose own lines can be read. -/
lemma rules_of_ok {entries : List Entry} {own : List Text} {base : Rules}
    (hown : ownLines entries = .ok own) (hbase : Rules.ofLines own = .ok base) (nested : Bool) :
    rules entries nested =
      if nested then nestedLines base entries >>= fun lines => Rules.ofLines (own ++ lines)
      else .ok base := by
  rw [rules, hown]
  change (Rules.ofLines own >>= _) = _
  rw [hbase]
  rfl

namespace SameBut

variable {names : List Text} {entries others : List Entry}

lemma symm (h : SameBut names entries others) : SameBut names others entries := by
  induction h with
  | here hfile hrest =>
      refine .here (fun entry hentry => hfile entry ?_) hrest.symm
      rw [List.mem_append] at hentry ⊢
      exact hentry.symm
  | inside name before after _ ih => exact .inside name before after ih

/-- The names that lead there are names. -/
lemma isName (h : SameBut names entries others) (hentries : WellNamed entries) :
    ∀ name ∈ names, IsName name := by
  induction h with
  | here => simp
  | @inside name names inner other before after _ ih =>
      obtain ⟨hnames, -, hinner⟩ := hentries
      have hmem : .directory name inner ∈ before ++ .directory name inner :: after := by simp
      have hname : IsName name := hnames _ hmem
      exact List.forall_mem_cons.2 ⟨hname, ih (hinner name inner hmem)⟩

/-! ### The rules -/

/-- The project's own ignore file is the same. -/
lemma ownLines_eq (h : SameBut names entries others) : ownLines entries = ownLines others := by
  cases h with
  | here _ hrest =>
      have hfind (entries : List Entry) : entries.find? (·.name = ownFile) =
          (entries.filter (·.name ≠ nestedFile)).find? (·.name = ownFile) := by
        have hne : ownFile ≠ nestedFile := by decide
        rw [List.find?_filter]
        congr 1
        funext entry
        by_cases hname : entry.name = ownFile <;> simp [hname, hne]
      rw [ownLines, ownLines, hfind entries, hfind others, hrest]
  | inside name before after h =>
      rw [ownLines, ownLines, List.find?_append, List.find?_append, List.find?_cons,
        List.find?_cons]
      cases before.find? (·.name = ownFile) with
      | some entry => rfl
      | none => by_cases hname : name = ownFile <;> simp [Entry.name, hname]

/-- A walk that does not come to the directory finds no difference. -/
lemma walkFrom_eq {skips : Text → Bool} {directory : Text} (h : SameBut names entries others)
    (hshut : ∃ above, above ≠ [] ∧ above <+: names ∧
      skips (pathFrom directory above ++ ['/']) = true) :
    walkFrom skips directory entries = walkFrom skips directory others := by
  induction h generalizing directory with
  | here =>
      obtain ⟨above, hne, habove, -⟩ := hshut
      exact absurd (List.prefix_nil.1 habove) hne
  | @inside name names inner other before after _ ih =>
      have hstops : (Entry.directory name inner).stops skips directory =
          (Entry.directory name other).stops skips directory := by
        rw [stops_directory, stops_directory]
        split
        · rfl
        · next hopen =>
            refine ih ?_
            obtain ⟨above, hne, habove, hskip⟩ := hshut
            obtain ⟨first, rest, rfl⟩ := List.exists_cons_of_ne_nil hne
            obtain ⟨rfl, hrest⟩ := List.cons_prefix_cons.1 habove
            refine ⟨rest, ?_, hrest, hskip⟩
            rintro rfl
            exact hopen hskip
      simp only [walkFrom, files, blocks_eq_map, List.map_append, List.map_cons, hstops,
        List.filterMap_append, List.filterMap_cons, Entry.file?, Entry.name]

/-- **The rules** do not depend on an ignore file in a place that the project's own ignore file
ignores. -/
lemma rules_eq (h : SameBut names entries others) (hnames : ∀ name ∈ names, IsName name)
    (hshut : ∀ base, rules entries false = .ok base → ∃ above, above ≠ [] ∧ above <+: names ∧
      base.ignores (joinSlash above ++ ['/']) = true) :
    rules entries true = rules others true := by
  have hown := h.ownLines_eq
  cases hlines : ownLines entries with
  | error failure => rw [rules, rules, ← hown, hlines]; rfl
  | ok own =>
      rw [hlines] at hown
      cases hbase : Rules.ofLines own with
      | error failure =>
          have hfails (project : List Entry) (h : ownLines project = .ok own) :
              rules project true = .error failure := by
            rw [rules, h]
            change (Rules.ofLines own >>= _) = _
            rw [hbase]
            rfl
          rw [hfails entries hlines, hfails others hown.symm]
      | ok base =>
          obtain ⟨above, hne, habove, hskip⟩ := hshut base (rules_of_ok hlines hbase false)
          have hwalk : walk base.ignores entries = walk base.ignores others := by
            refine h.walkFrom_eq ⟨above, hne, habove, ?_⟩
            rwa [pathFrom_nil fun name hname => hnames name (habove.subset hname)]
          rw [rules_of_ok hlines hbase, rules_of_ok hown.symm hbase, nestedLines, nestedLines,
            hwalk]

/-! ### The source files -/

/-- What else there is in a directory. -/
lemma mem_of_mem (h : SameBut names entries others) {entry : Entry} (hentry : entry ∈ entries)
    (hnot : ∀ name inner, entry = .directory name inner → names = [])
    (hname : names = [] → entry.name ≠ nestedFile) : entry ∈ others := by
  cases h with
  | here _ hrest =>
      have hfilter : entry ∈ others.filter (·.name ≠ nestedFile) := by
        rw [← hrest, List.mem_filter]
        exact ⟨hentry, by simpa using hname rfl⟩
      exact List.mem_of_mem_filter hfilter
  | inside name before after _ =>
      simp only [List.mem_append, List.mem_cons] at hentry ⊢
      rcases hentry with hbefore | rfl | hafter
      · exact .inl hbefore
      · simpa using hnot _ _ rfl
      · exact .inr (.inr hafter)

/-- A directory that a walk comes to is one that it comes to in the other project. It is the same in
both, or one of those that lead to the ignore file. -/
lemma exists_visited {skips : Text → Bool} (h : SameBut names entries others) {directory : Text}
    {inner : List Entry} (hvisited : Visited skips entries directory inner) :
    ∃ other, Visited skips others directory other ∧
      (other = inner ∨ ∃ above below, names = above ++ below ∧ directory = pathFrom [] above ∧
        SameBut below inner other) := by
  induction hvisited with
  | top => exact ⟨others, .top, .inr ⟨[], names, rfl, rfl, h⟩⟩
  | @inside directory name seen inner hdirectory hmem hskip ih =>
      obtain ⟨other, hother, rfl | ⟨above, below, rfl, rfl, hbelow⟩⟩ := ih
      · exact ⟨inner, hother.inside hmem hskip, .inl rfl⟩
      · cases hbelow with
        | here hfile hrest =>
            have hname : name ≠ nestedFile := by
              intro hname
              obtain ⟨content, heq⟩ := hfile _ (List.mem_append_left _ hmem) hname
              contradiction
            have hsame := (SameBut.here hfile hrest).mem_of_mem hmem (fun _ _ _ => rfl)
              fun _ => hname
            exact ⟨inner, hother.inside hsame hskip, .inl rfl⟩
        | @inside first rest old new before after hrest =>
            simp only [List.mem_append, List.mem_cons] at hmem
            rcases hmem with hbefore | heq | hafter
            · exact ⟨inner, hother.inside (by simp [hbefore]) hskip, .inl rfl⟩
            · obtain ⟨rfl, rfl⟩ := Entry.directory.inj heq
              refine ⟨new, hother.inside (by simp) hskip,
                .inr ⟨above ++ [name], rest, ?_, ?_, hrest⟩⟩
              · simp
              · rw [pathFrom_concat]
            · exact ⟨inner, hother.inside (by simp [hafter]) hskip, .inl rfl⟩

/-- Where the rules are the same, the source files are, but for the ignore file. -/
lemma mem_paths {skips : Text → Bool} {extensions : List Text} {path : Text}
    (h : SameBut names entries others) (hne : path ≠ entryOf (pathFrom [] names) nestedFile)
    (hpath : path ∈ (sourceFiles extensions skips entries).map (·.path)) :
    path ∈ (sourceFiles extensions skips others).map (·.path) := by
  obtain ⟨file, hfile, rfl⟩ := List.mem_map.1 hpath
  obtain ⟨directory, inner, hvisited, hmem, hpath, hkept⟩ := mem_sourceFiles_iff.1 hfile
  obtain ⟨other, hother, hsame⟩ := h.exists_visited hvisited
  refine List.mem_map.2
    ⟨file, mem_sourceFiles_iff.2 ⟨directory, other, hother, ?_, hpath, hkept⟩, rfl⟩
  rcases hsame with rfl | ⟨above, below, rfl, rfl, hbelow⟩
  · exact hmem
  · refine hbelow.mem_of_mem hmem (by simp) ?_
    rintro rfl hname
    rw [List.append_nil] at hne
    exact hne (by rw [hpath, show file.name = nestedFile from hname])

end SameBut

/-- **An ignore file has no say** in a place that the project's own ignore file ignores, or the
fixed list where there is none: the rules of the project are the same whatever the file holds, and
so are its source files, or the failure to find them, with the possible exception of the ignore
file itself. -/
theorem keptSourceFiles_congr {names : List Text} {entries others : List Entry}
    (h : SameBut names entries others) (hentries : WellNamed entries) (hothers : WellNamed others)
    (hshut : ∀ base, rules entries false = .ok base → ∃ above, above ≠ [] ∧ above <+: names ∧
      base.ignores (joinSlash above ++ ['/']) = true)
    (extensions : List Text) :
    let paths (project : List Entry) : Except Failure (List Text) :=
      (keptSourceFiles extensions project).map fun files =>
        (files.map (·.path)).filter (· ≠ entryOf (joinSlash names) nestedFile)
    rules entries true = rules others true ∧ paths entries = paths others := by
  intro paths
  have hnames := h.isName hentries
  have hrules := h.rules_eq hnames hshut
  refine ⟨hrules, ?_⟩
  simp only [paths, keptSourceFiles, ← hrules]
  cases rules entries true with
  | error failure => rfl
  | ok rules =>
      have hmem (path : Text) (hne : path ≠ entryOf (joinSlash names) nestedFile) :
          path ∈ (sourceFiles extensions rules.ignores entries).map (·.path) ↔
            path ∈ (sourceFiles extensions rules.ignores others).map (·.path) := by
        rw [← pathFrom_nil hnames] at hne
        exact ⟨h.mem_paths hne, h.symm.mem_paths hne⟩
      refine congrArg Except.ok (ComesBefore.eq_of_mem_iff
        ((pairwise_sourceFiles extensions rules.ignores hentries).filter _)
        ((pairwise_sourceFiles extensions rules.ignores hothers).filter _) fun path => ?_)
      simp only [List.mem_filter, decide_eq_true_eq]
      exact and_congr_left (hmem path)

/-- What a project keeps, told by its walks. -/
lemma keptSourceFiles_of_walk {extensions : List Text} {project : List Entry} {own : List Text}
    {stops : (Text → Bool) → List Stop} (hown : ownLines project = .ok own)
    (hwalk : ∀ skips, walk skips project = stops skips) :
    keptSourceFiles extensions project = do
      let base ← Rules.ofLines own
      let rules ← Rules.ofLines (own ++ (← linesOfStops (stops base.ignores)))
      return (stops rules.ignores).flatMap (sourceFilesOf extensions rules.ignores) := by
  rw [keptSourceFiles, rules, hown]
  simp only [nestedLines, sourceFiles, hwalk, if_true]
  change (Rules.ofLines own >>= _) >>= _ = _
  rw [bind_assoc]
  simp only [bind_assoc]

/-- An ignore file that is no text, in a directory that the fixed list ignores. -/
theorem keptSourceFiles_congr_of_obj :
    let entries : List Entry :=
      [.directory "obj".toList [.file nestedFile (.ok { bytes := [0xFF] })],
        .file "K.cs".toList (.ok { bytes := [] })]
    let others : List Entry :=
      [.directory "obj".toList [], .file "K.cs".toList (.ok { bytes := [] })]
    let paths (project : List Entry) : Except Failure (List Text) :=
      (keptSourceFiles [".cs".toList] project).map fun files =>
        (files.map (·.path)).filter (· ≠ entryOf (joinSlash ["obj".toList]) nestedFile)
    SameBut ["obj".toList] entries others ∧ WellNamed entries ∧ WellNamed others ∧
      (∀ base, rules entries false = .ok base → ∃ above, above ≠ [] ∧ above <+: ["obj".toList] ∧
        base.ignores (joinSlash above ++ ['/']) = true) ∧
      rules entries true = rules others true ∧ paths entries = paths others := by
  intro entries others paths
  have hsame : SameBut ["obj".toList] entries others :=
    .inside _ [] _ (.here (by simp [Entry.name]) (by simp [Entry.name]))
  have hfile : WellNamed [.file nestedFile (.ok { bytes := [0xFF] })] :=
    .intro (by simp [Entry.name]; decide) (by simp) (by simp)
  have hentries : WellNamed entries :=
    .intro (by simp [entries, Entry.name]; decide) (by simp [entries, Entry.name])
      (by simp [entries, hfile])
  have hothers : WellNamed others :=
    .intro (by simp [others, Entry.name]; decide) (by simp [others, Entry.name])
      (by simp [others, wellNamed_nil])
  have hshut (base : Rules) (hbase : rules entries false = .ok base) : ∃ above, above ≠ [] ∧
      above <+: ["obj".toList] ∧ base.ignores (joinSlash above ++ ['/']) = true := by
    have hignored : (rules entries false).toOption.all (·.ignores "obj/".toList) = true := by
      decide +kernel
    rw [hbase] at hignored
    exact ⟨["obj".toList], by simp, List.prefix_rfl, hignored⟩
  exact ⟨hsame, hentries, hothers, hshut, keptSourceFiles_congr hsame hentries hothers hshut _⟩

/-- An ignore file in a directory that the one at the top ignores, but not the fixed list. It takes
back what the other says, for itself and the directory that it lies in. -/
theorem ignored_directory_has_say :
    let top : Entry := .file nestedFile (.ok (Text.Utf8.encode "v/".toList))
    let ignoreFile : Entry := .file nestedFile (.ok (Text.Utf8.encode "!**".toList))
    let entries : List Entry :=
      [top, .directory "v".toList [ignoreFile, .file "A.cs".toList (.ok { bytes := [] })]]
    let others : List Entry :=
      [top, .directory "v".toList [.file "A.cs".toList (.ok { bytes := [] })]]
    let paths (project : List Entry) : Option (List Text) :=
      (keptSourceFiles [".cs".toList] project).toOption.map fun files => files.map (·.path)
    SameBut ["v".toList] entries others ∧
      (∃ known, Rules.ofLines (defaultLines ++ [rebase [] "v/".toList]) = .ok known ∧
        known.ignores "v/".toList = true) ∧
      paths entries = some ["v/A.cs".toList] ∧ paths others = some [] := by
  intro top ignoreFile entries others paths
  have hsame : SameBut ["v".toList] entries others :=
    .inside _ [top] [] (.here (by simp [ignoreFile, Entry.name]) (by simp [ignoreFile, Entry.name]))
  have hwalk (inner : List Entry)
      (hinner : inner.Pairwise fun a b => Text.precedes a.name b.name = true)
      (hfiles : ∀ entry ∈ inner, ∃ name content, entry = .file name content)
      (skips : Text → Bool) :
      walk skips [top, .directory "v".toList inner] =
        ⟨[], [(nestedFile, .ok (Text.Utf8.encode "v/".toList))]⟩ ::
          if skips "v/".toList then [] else [⟨"v".toList, inner.filterMap Entry.file?⟩] := by
    have hsorted : [top, .directory "v".toList inner].Pairwise fun a b =>
        Text.precedes a.name b.name = true := by
      simp [top, Entry.name]
      decide
    have hv : entryOf [] "v".toList = "v".toList := rfl
    rw [walk_eq_walkFrom, walkFrom_of_pairwise hsorted, List.flatMap_cons, List.flatMap_singleton,
      stops_directory, hv, walkFrom_of_files hinner hfiles]
    rfl
  have hentries : paths entries = some ["v/A.cs".toList] := by
    have hkept := @keptSourceFiles_of_walk [".cs".toList] entries defaultLines _ rfl
      (hwalk [ignoreFile, .file "A.cs".toList (.ok { bytes := [] })] (by decide)
        (by simp [ignoreFile]))
    simp only [paths, hkept]
    decide +kernel
  have hothers : paths others = some [] := by
    have hkept := @keptSourceFiles_of_walk [".cs".toList] others defaultLines _ rfl
      (hwalk [.file "A.cs".toList (.ok { bytes := [] })] (by decide) (by simp))
    simp only [paths, hkept]
    decide +kernel
  refine ⟨hsame, ?_, hentries, hothers⟩
  have hignored : (Rules.ofLines (defaultLines ++ [rebase [] "v/".toList])).toOption.any
      (·.ignores "v/".toList) = true := by decide +kernel
  cases hknown : Rules.ofLines (defaultLines ++ [rebase [] "v/".toList]) with
  | error failure =>
      rw [hknown] at hignored
      contradiction
  | ok known =>
      rw [hknown] at hignored
      exact ⟨known, rfl, hignored⟩

end Project

end GeneratedCode
