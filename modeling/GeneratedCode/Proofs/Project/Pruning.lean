import Mathlib.Tactic
import GeneratedCode.Proofs.Ignore.Inside
import GeneratedCode.Proofs.Project.Sources

/-!
Skipping a directory and skipping what is inside.

A walk that skips the ignored directories of a project does not come to what is inside them
(`visited_iff`). Rules without negation ignore most of that anyway, file by file, so the walk finds
what a walk without skipping finds and the rules do not ignore. What is lost in addition lies below
a directory that a shallow pattern matches (`hasSource_iff_of_plain`), and
`skipping_is_not_ignoring` shows that something may be lost so. `skipping_without_negation` is the
main result.
-/

namespace GeneratedCode

open Text Ignore GeneratedCode.Path

namespace Path

/-- The names of a path that is cut at a slash. -/
lemma joinSlash_eq_append_iff {names : List Text} (hne : names ≠ [])
    (hnames : ∀ name ∈ names, IsName name) {directory rest : Text} :
    joinSlash names = directory ++ '/' :: rest ↔
      ∃ above below, above ≠ [] ∧ below ≠ [] ∧ names = above ++ below ∧
        directory = joinSlash above ∧ rest = joinSlash below := by
  constructor
  · intro h
    refine ⟨splitSlash directory, splitSlash rest, splitSlash_ne_nil _, splitSlash_ne_nil _, ?_,
      (joinSlash_splitSlash _).symm, (joinSlash_splitSlash _).symm⟩
    rw [← splitSlash_append, ← h, splitSlash_joinSlash_of_isName hne hnames]
  · rintro ⟨above, below, habove, hbelow, rfl, rfl, rfl⟩
    obtain ⟨hfirst, hsecond⟩ := List.forall_mem_append.1 hnames
    rw [← joinSlash_splitSlash (joinSlash above ++ '/' :: joinSlash below), splitSlash_append,
      splitSlash_joinSlash_of_isName habove hfirst, splitSlash_joinSlash_of_isName hbelow hsecond]

end Path

namespace Disk

variable {disk : Disk} {skips : Text → Bool} {project : Text} {names : List Text}
  {nodes : List Node} {lines : List Text} {rules : Rules} {extensions : List Text} {path : Text}

/-- A walk comes to a directory unless it skips it, or one that leads there. -/
lemma visited_iff :
    disk.Visited skips project names nodes ↔
      disk.Visited (fun _ => false) project names nodes ∧
        ∀ above, above ≠ [] → above <+: names → skips (joinSlash above ++ ['/']) = false := by
  constructor
  · intro h
    induction h with
    | top h =>
        exact ⟨.top h, fun above hne habove => absurd (List.prefix_nil.1 habove) hne⟩
    | inside _ hmem hshort hskip ih =>
        refine ⟨ih.1.inside hmem hshort rfl, fun above hne habove => ?_⟩
        rcases List.prefix_concat_iff.1 habove with rfl | habove
        · exact hskip
        · exact ih.2 above hne habove
  · rintro ⟨h, hopen⟩
    induction h with
    | top h => exact .top h
    | inside _ hmem hshort _ ih =>
        have houter := ih fun above hne habove =>
          hopen above hne (habove.trans (List.prefix_append _ _))
        exact houter.inside hmem hshort (hopen _ (by simp) List.prefix_rfl)

/-- What is in a directory that a walk comes to has names all the way. -/
lemma Visited.isName_concat (hdisk : WellNamed disk)
    (h : disk.Visited skips project names nodes) {node : Node} (hnode : node ∈ nodes) :
    ∀ name ∈ names ++ [node.name], IsName name := by
  obtain ⟨hnames, hnodes⟩ := h.isName hdisk
  obtain ⟨hnodeNames, -, -⟩ := hnodes
  exact List.forall_mem_append.2 ⟨hnames, by simpa using hnodeNames node hnode⟩

/-- The source files that a walk finds are those on the disk, also where there is no project. -/
lemma mem_paths_listing_iff (hdisk : WellNamed disk) :
    path ∈ (Project.sourceFiles extensions skips (disk.listing project)).map (·.path) ↔
      disk.HasSource extensions skips project path := by
  by_cases hfind : ∃ top inside, disk.find project = .ok (.directory top inside)
  · obtain ⟨top, inside, hfind⟩ := hfind
    exact mem_paths_iff hdisk hfind
  · rw [listing_eq_nil fun top inside hfound => hfind ⟨top, inside, hfound⟩, sourceFiles_nil]
    refine iff_of_false (by simp) ?_
    rintro ⟨names, nodes, node, hvisited, -⟩
    exact hfind hvisited.exists_find

/-- A source file is found unless it is ignored or lies below a directory that a shallow pattern
matches. -/
lemma hasSource_iff_of_plain (hdisk : WellNamed disk) (h : Rules.ofLines lines = .ok rules)
    (hplain : ∀ line ∈ lines, line.head? ≠ some '!') :
    disk.HasSource extensions rules.ignores project path ↔
      disk.HasSource extensions (fun _ => false) project path ∧ rules.ignores path = false ∧
        ¬ rules.CutOff path := by
  constructor
  · rintro ⟨names, nodes, node, hvisited, hnode, hcounts, hwanted, rfl, hkept⟩
    obtain ⟨hall, hopen⟩ := visited_iff.1 hvisited
    refine ⟨⟨names, nodes, node, hall, hnode, hcounts, hwanted, rfl, rfl⟩, hkept, ?_⟩
    rintro ⟨directory, rest, hpath, pattern, hmem, -, hmatch⟩
    obtain ⟨above, below, habove, hbelow, heq, rfl, rfl⟩ :=
      (joinSlash_eq_append_iff (by simp) (hvisited.isName_concat hdisk hnode)).1 hpath
    have habovePrefix : above <+: names := by
      obtain rfl | ⟨before, last, rfl⟩ := List.eq_nil_or_concat' below
      · contradiction
      · rw [← List.append_assoc] at heq
        exact ⟨before, (List.append_inj_left' heq rfl).symm⟩
    have hignored := (ignores_iff h hplain _).2 ⟨pattern, hmem, hmatch⟩
    rw [hopen above habove habovePrefix] at hignored
    contradiction
  · rintro ⟨⟨names, nodes, node, hall, hnode, hcounts, hwanted, rfl, -⟩, hkept, hcut⟩
    refine ⟨names, nodes, node, visited_iff.2 ⟨hall, fun above hne habove => ?_⟩, hnode, hcounts,
      hwanted, rfl, hkept⟩
    by_contra hskip
    rw [Bool.not_eq_false] at hskip
    obtain ⟨below, rfl⟩ := habove
    have hpath : joinSlash (above ++ below ++ [node.name]) =
        joinSlash above ++ '/' :: joinSlash (below ++ [node.name]) :=
      (joinSlash_eq_append_iff (by simp) (hall.isName_concat hdisk hnode)).2
        ⟨above, below ++ [node.name], hne, by simp, by simp, rfl, rfl⟩
    rw [hpath] at hkept hcut
    rcases ignores_or_cutOff h hplain hskip with hignored | hcutOff
    · rw [hkept] at hignored
      contradiction
    · exact hcut hcutOff

/-! ### A directory with a single file -/

/-- A disk with a single file, which lies in a directory. -/
def oneFile : Disk :=
  { nodes := [.directory "d".toList [.file "x.cs".toList (.ok { bytes := [] })]] }

lemma wellNamed_oneFile : WellNamed oneFile := by
  refine .intro (by decide) (by simp [oneFile]) fun name inner hmem => ?_
  obtain ⟨rfl, rfl⟩ :
      name = "d".toList ∧ inner = [.file "x.cs".toList (.ok { bytes := [] })] := by
    simpa [oneFile] using hmem
  exact .intro (by decide) (by simp) (by simp)

lemma hasSource_oneFile :
    oneFile.HasSource [".cs".toList] (fun _ => false) [] "d/x.cs".toList := by
  have htop : oneFile.Visited (fun _ => false) [] [] oneFile.nodes := .top (find_nil (by decide))
  have hdirectory : oneFile.Visited (fun _ => false) [] ["d".toList]
      [.file "x.cs".toList (.ok { bytes := [] })] := htop.inside (by simp [oneFile]) (by decide) rfl
  exact ⟨_, _, _, hdirectory, List.mem_singleton_self _, trivial,
    ⟨".cs".toList, by simp, by decide +kernel⟩, rfl, rfl⟩

/-- Rules of one line that ignore the directory of the file, but not the file. -/
lemma exists_rules_of_directory (line : Text)
    (h : ((Rules.ofLines [line]).toOption.map fun rules =>
      (rules.ignores "d/".toList, rules.ignores "d/x.cs".toList)) = some (true, false)) :
    ∃ rules, Rules.ofLines [line] = .ok rules ∧ rules.ignores "d/".toList = true ∧
      rules.ignores "d/x.cs".toList = false := by
  obtain ⟨rules, hrules⟩ := exists_rules (by rw [← Option.isSome_map, h]; rfl)
  rw [hrules] at h
  obtain ⟨hdirectory, hfile⟩ := Prod.mk.inj (Option.some.inj h)
  exact ⟨rules, hrules, hdirectory, hfile⟩

/-- A walk that skips a directory does not find the file in it. -/
lemma notMem_paths_oneFile (h : skips "d/".toList = true) :
    "d/x.cs".toList ∉
      (Project.sourceFiles [".cs".toList] skips (oneFile.listing [])).map (·.path) := by
  rw [mem_paths_listing_iff wellNamed_oneFile]
  rintro ⟨names, nodes, node, hvisited, hnode, -, -, hpath, -⟩
  have hpieces := splitSlash_joinSlash_of_isName (by simp)
    (hvisited.isName_concat wellNamed_oneFile hnode)
  rw [← hpath] at hpieces
  have hcut : splitSlash "d/x.cs".toList = ["d".toList] ++ ["x.cs".toList] := by decide
  obtain rfl : names = ["d".toList] := (List.append_inj_left' (hcut.symm.trans hpieces) rfl).symm
  have hopen := (visited_iff.1 hvisited).2 ["d".toList] (by simp) List.prefix_rfl
  rw [show joinSlash ["d".toList] ++ ['/'] = "d/".toList from rfl, h] at hopen
  contradiction

/-! ### What is lost -/

/-- No pattern of the fixed list is shallow: all of them end in `**`. -/
lemma not_isShallow_of_defaultLines (h : Rules.ofLines Project.defaultLines = .ok rules) :
    ∀ pattern ∈ rules.patterns, ¬ pattern.shape.IsShallow := by
  have hdeep : (Rules.ofLines Project.defaultLines).toOption.all
      (·.patterns.all (·.shape.endsInDeep)) = true := by decide +kernel
  rw [h] at hdeep
  exact fun pattern hmem =>
    Shape.not_isShallow_of_endsInDeep (List.all_eq_true.1 hdeep pattern hmem)

/-- **Skipping without negation**: where no line starts with `!`, a walk that skips the ignored
directories finds a source file of the project unless the file is ignored itself, or a directory
that leads to it is matched by a shallow pattern: one that ends in `*`, or in a set of characters
that may be a slash. Where no pattern is shallow, it finds what is left when the ignored files are
taken from all of them. -/
theorem skipping_without_negation (hdisk : WellNamed disk) (h : Rules.ofLines lines = .ok rules)
    (hplain : ∀ line ∈ lines, line.head? ≠ some '!') (project : Text) (extensions : List Text) :
    let paths (skips : Text → Bool) :=
      (Project.sourceFiles extensions skips (disk.listing project)).map (·.path)
    (∀ path, path ∈ paths rules.ignores ↔
      disk.HasSource extensions (fun _ => false) project path ∧ rules.ignores path = false ∧
        ¬ rules.CutOff path) ∧
      ((∀ pattern ∈ rules.patterns, ¬ pattern.shape.IsShallow) →
        paths rules.ignores = (paths fun _ => false).filter (!rules.ignores ·)) := by
  intro paths
  have hwell := wellNamed_listing hdisk project
  have hmem (path : Text) : path ∈ paths rules.ignores ↔ _ :=
    (mem_paths_listing_iff hdisk).trans (hasSource_iff_of_plain hdisk h hplain)
  refine ⟨hmem, fun hdeep => Project.ComesBefore.eq_of_mem_iff
    (Project.pairwise_sourceFiles extensions rules.ignores hwell)
    ((Project.pairwise_sourceFiles extensions (fun _ => false) hwell).filter _) fun path => ?_⟩
  have hcut : ¬ rules.CutOff path := by
    rintro ⟨directory, rest, -, pattern, hpattern, hshallow, -⟩
    exact hdeep pattern hpattern hshallow
  rw [hmem path, List.mem_filter, mem_paths_listing_iff hdisk, Bool.not_eq_true']
  simp only [hcut, not_false_eq_true, and_true]

/-- A set without `a` takes the slash behind a name, so a directory is skipped although nothing in
it is ignored. The fixed list is not like that. -/
theorem skipping_without_negation_of_set :
    WellNamed oneFile ∧
      (∃ rules, Rules.ofLines ["d[!a]".toList] = .ok rules ∧
        (∀ line ∈ ["d[!a]".toList], line.head? ≠ some '!') ∧
        oneFile.HasSource [".cs".toList] (fun _ => false) [] "d/x.cs".toList ∧
        rules.ignores "d/x.cs".toList = false ∧ rules.CutOff "d/x.cs".toList) ∧
      ∃ rules, Rules.ofLines Project.defaultLines = .ok rules ∧
        (Project.sourceFiles [".cs".toList] rules.ignores (oneFile.listing [])).map (·.path) =
          ((Project.sourceFiles [".cs".toList] (fun _ => false) (oneFile.listing [])).map
            (·.path)).filter (!rules.ignores ·) := by
  refine ⟨wellNamed_oneFile, ?set, ?fixed⟩
  case set =>
    obtain ⟨rules, hrules, hdirectory, hfile⟩ :=
      exists_rules_of_directory "d[!a]".toList (by decide +kernel)
    have hplain : ∀ line ∈ ["d[!a]".toList], line.head? ≠ some '!' := by decide
    obtain ⟨hmem, -⟩ := skipping_without_negation wellNamed_oneFile hrules hplain [] [".cs".toList]
    refine ⟨rules, hrules, hplain, hasSource_oneFile, hfile, ?_⟩
    by_contra hcut
    exact notMem_paths_oneFile hdirectory ((hmem _).2 ⟨hasSource_oneFile, hfile, hcut⟩)
  case fixed =>
    obtain ⟨rules, hrules⟩ : ∃ rules, Rules.ofLines Project.defaultLines = .ok rules :=
      exists_rules (by decide +kernel)
    exact ⟨rules, hrules, (skipping_without_negation wellNamed_oneFile hrules (by decide) []
      [".cs".toList]).2 (not_isShallow_of_defaultLines hrules)⟩

/-- A walk that skips what rules without negation ignore may find less than they leave: `/*` matches
a directory at the top, and nothing inside it. -/
theorem skipping_is_not_ignoring :
    WellNamed oneFile ∧ ∃ rules, Rules.ofLines ["/*".toList] = .ok rules ∧
      (∀ line ∈ ["/*".toList], line.head? ≠ some '!') ∧
      ¬ ∀ path, path ∈
          (Project.sourceFiles [".cs".toList] rules.ignores (oneFile.listing [])).map (·.path) ↔
        oneFile.HasSource [".cs".toList] (fun _ => false) [] path ∧ rules.ignores path = false := by
  obtain ⟨rules, hrules, hdirectory, hfile⟩ :=
    exists_rules_of_directory "/*".toList (by decide +kernel)
  refine ⟨wellNamed_oneFile, rules, hrules, by decide, fun hclaim => ?_⟩
  exact notMem_paths_oneFile hdirectory ((hclaim _).2 ⟨hasSource_oneFile, hfile⟩)

end Disk

end GeneratedCode
