import Mathlib.Tactic
import GeneratedCode.Proofs.Disk.Names
import GeneratedCode.Proofs.Project.Walk

/-!
The source files of a project on a disk.

`Disk.Visited` and `Disk.CountsAsFile` say of the disk itself, with its links, where a walk comes to
and what it takes for a file. `visited_listing_iff` compares this with what the walk does on the
entries that it is shown. `sourceFiles_listing` is the main result: the source files are the wanted
ones among these, each of them once, in the order of their paths.
-/

namespace GeneratedCode

open Text GeneratedCode.Path

namespace Disk

/-- The directories of a project that a walk comes to, by the names that lead there from the
project, with what is in them: the project, and from a directory those in it that are not skipped.
A link is not followed. What has too long a path to be listed is not come to. -/
inductive Visited (disk : Disk) (skips : Text → Bool) (project : Text) :
    List Text → List Node → Prop where
  | top {name : Text} {nodes : List Node} (h : disk.find project = .ok (.directory name nodes)) :
      Visited disk skips project [] nodes
  | inside {names : List Text} {name : Text} {nodes inner : List Node}
      (hdirectory : Visited disk skips project names nodes) (hmem : .directory name inner ∈ nodes)
      (hshort : disk.isTooLong (.inside []) (Path.names project ++ (names ++ [name])) = false)
      (hskip : skips (joinSlash (names ++ [name]) ++ ['/']) = false) :
      Visited disk skips project (names ++ [name]) inner

/-- Whether a node at the end of some names counts as a file: it is neither a directory nor a link
to one. A link that leads nowhere, or in a circle, counts. -/
def CountsAsFile (disk : Disk) (names : List Text) : Node → Prop
  | .file _ _ => True
  | .directory _ _ => False
  | .link _ _ => ∀ name nodes, nodeAt disk (.inside []) names ≠ .ok (.directory name nodes)

variable {disk : Disk} {skips : Text → Bool} {project : Text} {names : List Text}
  {nodes : List Node}

/-- What a walk comes to has names all the way. -/
lemma Visited.isName (hdisk : WellNamed disk) (h : Visited disk skips project names nodes) :
    (∀ name ∈ names, IsName name) ∧ Node.WellNamed nodes := by
  induction h with
  | top h => exact ⟨by simp, wellNamed_of_nodeAt hdisk h⟩
  | @inside _ name _ _ _ hmem _ _ ih =>
      obtain ⟨hnames, hnodes⟩ := ih
      obtain ⟨hnode, -, hinner⟩ := hnodes
      have hname : IsName name := hnode _ hmem
      exact ⟨List.forall_mem_append.2 ⟨hnames, by simpa using hname⟩, hinner _ _ hmem⟩

lemma Visited.exists_find (h : Visited disk skips project names nodes) :
    ∃ top inside, disk.find project = .ok (.directory top inside) := by
  induction h with
  | top h => exact ⟨_, _, h⟩
  | inside _ _ _ _ ih => exact ih

/-- A scan sees a file where there is what counts as one. -/
lemma exists_entry_eq_file_iff {node : Node} :
    (∃ content, entry disk names node = .file node.name content) ↔
      disk.CountsAsFile (names ++ [node.name]) node := by
  cases node with
  | file name bytes => exact iff_of_true ⟨_, by rw [entry]; rfl⟩ trivial
  | directory name inner =>
      refine iff_of_false ?_ id
      rintro ⟨content, heq⟩
      rw [entry] at heq
      split at heq <;> contradiction
  | link name target =>
      rw [entry, CountsAsFile, Node.name]
      split
      · next h => simp [h]
      · next h => simp [h]
      · next h => simp [h]
      · next h => simp [h]

section

variable {top : Text} {inside : List Node}

/-- The walk of a disk is the one of what it shows. -/
lemma visited_listing_iff (hdisk : WellNamed disk)
    (hfind : disk.find project = .ok (.directory top inside)) {directory : Text}
    {seen : List Project.Entry} :
    Project.Visited skips (disk.listing project) directory seen ↔
      ∃ names nodes, Visited disk skips project names nodes ∧ directory = joinSlash names ∧
        seen = entries disk (Path.names project ++ names) nodes := by
  constructor
  · intro h
    induction h with
    | top => exact ⟨[], inside, .top hfind, rfl, by rw [listing_eq hfind, List.append_nil]⟩
    | @inside _ name _ _ _ hmem hskip ih =>
        obtain ⟨names, nodes, hvisited, rfl, rfl⟩ := ih
        rw [entries_eq_map, List.mem_map] at hmem
        obtain ⟨node, hnode, hentry⟩ := hmem
        obtain ⟨inner, rfl, hshort, rfl⟩ := entry_eq_directory_iff.1 hentry
        rw [entryOf_joinSlash (hvisited.isName hdisk).1] at hskip ⊢
        rw [List.append_assoc] at hshort ⊢
        exact ⟨names ++ [name], inner, hvisited.inside hnode hshort hskip, rfl, rfl⟩
  · rintro ⟨names, nodes, hvisited, rfl, rfl⟩
    induction hvisited with
    | @top name nodes h =>
        rw [List.append_nil, ← listing_eq h]
        exact .top
    | @inside names name nodes inner hvisited hmem hshort hskip ih =>
        rw [← entryOf_joinSlash (hvisited.isName hdisk).1] at hskip ⊢
        refine ih.inside ?_ hskip
        rw [entries_eq_map, List.mem_map]
        rw [← List.append_assoc] at hshort ⊢
        exact ⟨_, hmem, entry_eq_directory_iff.2 ⟨inner, rfl, hshort, rfl⟩⟩

end

/-! ### Source files -/

/-- Whether a path is that of a source file of a project: something in a directory that a walk
comes to, which counts as a file, has a wanted extension, in small or capital letters, and is not
skipped. -/
def HasSource (disk : Disk) (extensions : List Text) (skips : Text → Bool) (project path : Text) :
    Prop :=
  ∃ names nodes node, Visited disk skips project names nodes ∧ node ∈ nodes ∧
    disk.CountsAsFile (Path.names project ++ (names ++ [node.name])) node ∧
    (∃ extension ∈ extensions, lower (suffix node.name) = lower extension) ∧
    path = joinSlash (names ++ [node.name]) ∧ skips path = false

lemma isWanted_iff {extensions : List Text} {name : Text} :
    Project.isWanted extensions name = true ↔
      ∃ extension ∈ extensions, lower (suffix name) = lower extension := by
  rw [Project.isWanted, List.contains_iff_mem, List.mem_map]
  exact exists_congr fun extension => and_congr_right fun _ => eq_comm

/-- The source files that a walk finds are those on the disk. -/
lemma mem_paths_iff (hdisk : WellNamed disk) {top : Text} {inside : List Node}
    (hfind : disk.find project = .ok (.directory top inside)) {extensions : List Text}
    {path : Text} :
    path ∈ (Project.sourceFiles extensions skips (disk.listing project)).map (·.path) ↔
      disk.HasSource extensions skips project path := by
  simp only [List.mem_map, Project.mem_sourceFiles_iff, isWanted_iff,
    visited_listing_iff hdisk hfind]
  constructor
  · rintro ⟨file, ⟨_, _, ⟨names, nodes, hvisited, rfl, rfl⟩, hfile, hpath, hwanted, hskip⟩, rfl⟩
    rw [entries_eq_map, List.mem_map] at hfile
    obtain ⟨node, hnode, hentry⟩ := hfile
    have hname : node.name = file.name := by
      rw [← name_entry disk (Path.names project ++ names) node, hentry]
      rfl
    rw [entryOf_joinSlash (hvisited.isName hdisk).1] at hpath
    rw [← hname] at hentry hwanted hpath
    refine ⟨names, nodes, node, hvisited, hnode, ?_, hwanted, hpath, hskip⟩
    rw [← List.append_assoc]
    exact exists_entry_eq_file_iff.1 ⟨_, hentry⟩
  · rintro ⟨names, nodes, node, hvisited, hnode, hcounts, hwanted, rfl, hskip⟩
    rw [← List.append_assoc] at hcounts
    obtain ⟨content, hentry⟩ := exists_entry_eq_file_iff.2 hcounts
    have hpath : joinSlash (names ++ [node.name]) = entryOf (joinSlash names) node.name :=
      (entryOf_joinSlash (hvisited.isName hdisk).1 node.name).symm
    refine ⟨⟨joinSlash (names ++ [node.name]), node.name, content⟩, ⟨_, _,
      ⟨names, nodes, hvisited, rfl, rfl⟩, ?_, hpath, hwanted, hskip⟩, rfl⟩
    rw [entries_eq_map, List.mem_map]
    exact ⟨node, hnode, hentry⟩

/-- A project that is not there, or is a file, has nothing in it. -/
lemma listing_eq_nil (h : ∀ top inside, disk.find project ≠ .ok (.directory top inside)) :
    disk.listing project = [] := by
  rw [listing]
  split
  · next top inside hfind => exact absurd hfind (h top inside)
  · rfl

lemma sourceFiles_nil (extensions : List Text) (skips : Text → Bool) :
    Project.sourceFiles extensions skips [] = [] := by
  rw [Project.sourceFiles, Project.walk, Project.blocks, Project.files, Project.inOrder]
  simp [Project.byName, Project.sourceFilesOf]

lemma wellNamed_listing (hdisk : WellNamed disk) (project : Text) :
    Project.WellNamed (disk.listing project) := by
  rw [listing]
  split
  · next top inside hfind => exact wellNamed_entries (wellNamed_of_nodeAt hdisk hfind) _
  · exact Project.wellNamed_nil

/-- **The source files of a project on a disk** are those that are there, each of them once: in
every directory its files come first, in the order of their names, and then what is in the
directories in it, in the order of theirs. What is no directory has none. -/
theorem sourceFiles_listing (hdisk : WellNamed disk) (project : Text) (extensions : List Text)
    (skips : Text → Bool) :
    let paths := (Project.sourceFiles extensions skips (disk.listing project)).map (·.path)
    (∀ path, path ∈ paths ↔ disk.HasSource extensions skips project path) ∧
      paths.Nodup ∧
      paths.Pairwise (fun p q => Project.ComesBefore (splitSlash p) (splitSlash q)) ∧
      ((∀ top inside, disk.find project ≠ .ok (.directory top inside)) → paths = []) := by
  intro paths
  have hwell := wellNamed_listing hdisk project
  have hnone (h : ∀ top inside, disk.find project ≠ .ok (.directory top inside)) : paths = [] := by
    simp only [paths, listing_eq_nil h, sourceFiles_nil, List.map_nil]
  refine ⟨fun path => ?_, Project.nodup_paths extensions skips hwell,
    Project.pairwise_sourceFiles extensions skips hwell, hnone⟩
  by_cases h : ∃ top inside, disk.find project = .ok (.directory top inside)
  · obtain ⟨top, inside, hfind⟩ := h
    exact mem_paths_iff hdisk hfind
  · rw [not_exists] at h
    have hnot (top : Text) (inside : List Node) : disk.find project ≠ .ok (.directory top inside) :=
      fun hfind => h top ⟨inside, hfind⟩
    refine iff_of_false (by simp [hnone hnot]) ?_
    rintro ⟨names, nodes, node, hvisited, -⟩
    obtain ⟨top, inside, hfind⟩ := hvisited.exists_find
    exact hnot top inside hfind

/-- A link that leads nowhere is a source file. -/
theorem sourceFiles_listing_of_link :
    let disk : Disk := { nodes := [.link "a.cs".toList "b".toList] }
    let paths :=
      (Project.sourceFiles [".CS".toList] (fun _ => false) (disk.listing [])).map (·.path)
    WellNamed disk ∧
      ((∀ path, path ∈ paths ↔ disk.HasSource [".CS".toList] (fun _ => false) [] path) ∧
        paths.Nodup ∧
        paths.Pairwise (fun p q => Project.ComesBefore (splitSlash p) (splitSlash q)) ∧
        ((∀ top inside, disk.find [] ≠ .ok (.directory top inside)) → paths = [])) ∧
      "a.cs".toList ∈ paths := by
  intro disk paths
  have hdisk : WellNamed disk := .intro (by decide) (by decide) (by simp [disk])
  have hpaths := sourceFiles_listing hdisk [] [".CS".toList] fun _ => false
  refine ⟨hdisk, hpaths, (hpaths.1 _).2 ?_⟩
  have hnowhere : nodeAt disk (.inside []) ["a.cs".toList] = .error .notFound := by
    have hshort : (Utf8.encode ['b']).length ≤ maxNameBytes := by decide
    rw [nodeAt_of_short (by decide)]
    simp [follow, disk, node?, Node.name, splitSlash, maxLinks, absence, hshort]
  refine ⟨[], disk.nodes, .link "a.cs".toList "b".toList, .top (find_nil (by decide)),
    by simp [disk], ?_, ?_, rfl, rfl⟩
  · intro top inside h
    have hnone := hnowhere.symm.trans h
    contradiction
  · exact ⟨_, List.mem_singleton_self _, by decide +kernel⟩

end Disk

end GeneratedCode
