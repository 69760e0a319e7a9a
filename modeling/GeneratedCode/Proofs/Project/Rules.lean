import Mathlib.Data.List.Lex
import Mathlib.Tactic
import GeneratedCode.Proofs.Ignore.Lines
import GeneratedCode.Proofs.Project.IgnoreFiles
import GeneratedCode.Proofs.Project.Sources

/-!
What the rules of a project are made of.

The lines of a project come from its own ignore file, or the fixed list, and from the ignore files
of the directories that a walk comes to. `DirectoryBefore` is the order in which a walk comes to
directories: one before those in it, and these in the order of their names
(`pairwise_directories`). `ignoreFiles` picks from the stops of a walk those with an ignore file;
`linesOfStops_eq_ok` says that reading the stops in turn gives the lines of these files and nothing
else, and `exists_mem_ignoreFiles` that none is left out when reading succeeds.

On a disk, `Disk.Opens` says which file is read and `Disk.HasOwnLines` which lines come first.
`Disk.rules_listing` is the main result. As the last pattern that matches decides, it says that of
two ignore files the one that lies deeper has the last word, and that both have it over the
project's own.
-/

namespace GeneratedCode

namespace Path

/-- The names that lead to a directory, from its path. -/
def namesTo (directory : Text) : List Text :=
  if directory = [] then [] else splitSlash directory

lemma joinSlash_namesTo (directory : Text) : joinSlash (namesTo directory) = directory := by
  rw [namesTo]
  split
  · next h => rw [h]; rfl
  · exact joinSlash_splitSlash directory

lemma namesTo_joinSlash {names : List Text} (h : ∀ name ∈ names, IsName name) :
    namesTo (joinSlash names) = names := by
  by_cases hne : names = []
  · subst hne
    rfl
  · rw [namesTo, if_neg (joinSlash_ne_nil hne h), splitSlash_joinSlash_of_isName hne h]

end Path

namespace Project

open Ignore Text GeneratedCode.Path

/-! ### The order of directories -/

/-- Whether a walk comes to the first directory before it comes to the second, both given by their
names: one before those in it, and what is in one directory in the order of the names. -/
def DirectoryBefore : List Text → List Text → Prop :=
  List.Lex fun a b => a ≠ b ∧ precedes a b = true

namespace DirectoryBefore

lemma below (names : List Text) (name : Text) (rest : List Text) :
    DirectoryBefore names (names ++ name :: rest) := by
  have h : DirectoryBefore (names ++ []) (names ++ name :: rest) :=
    List.Lex.append_left _ .nil names
  rwa [List.append_nil] at h

lemma beside (names : List Text) {a b : Text} (h : a ≠ b ∧ precedes a b = true) (p q : List Text) :
    DirectoryBefore (names ++ a :: p) (names ++ b :: q) := by
  have hab : DirectoryBefore (a :: p) (b :: q) := List.Lex.rel h
  exact List.Lex.append_left _ hab names

/-- No directory comes before one that leads to it, or before itself. -/
lemma not_isPrefix {p q : List Text} (h : DirectoryBefore p q) : ¬ q <+: p := by
  induction h with
  | nil => exact fun hprefix => List.cons_ne_nil _ _ (List.prefix_nil.1 hprefix)
  | cons _ ih => exact fun hprefix => ih (List.cons_prefix_cons.1 hprefix).2
  | rel hab => exact fun hprefix => hab.1 (List.cons_prefix_cons.1 hprefix).1.symm

end DirectoryBefore

section

variable {skips : Text → Bool} {names : List Text} {entries : List Entry}

/-- The directories below one have its names in front. -/
lemma exists_of_mem_walkFrom (hwell : WellNamed entries) (hnames : ∀ name ∈ names, IsName name)
    {stop : Stop} (hstop : stop ∈ walkFrom skips (joinSlash names) entries) :
    ∃ rest, namesTo stop.directory = names ++ rest := by
  induction hwell generalizing names with
  | @intro entries hentries hdistinct hinner ih =>
    rcases mem_walkFrom_iff.1 hstop with rfl | ⟨entry, hentry, hstop⟩
    · exact ⟨[], by rw [namesTo_joinSlash hnames, List.append_nil]⟩
    · obtain ⟨name, inner, rfl, -, hinside⟩ := mem_stops_iff.1 hstop
      rw [entryOf_joinSlash hnames] at hinside
      have hname : IsName name := hentries _ hentry
      obtain ⟨rest, hrest⟩ := ih name inner hentry
        (List.forall_mem_append.2 ⟨hnames, by simpa using hname⟩) hinside
      exact ⟨name :: rest, by simpa using hrest⟩

/-- The directories in the block of an entry are that entry and those below it. -/
lemma exists_of_mem_blocks (hwell : WellNamed entries) (hnames : ∀ name ∈ names, IsName name)
    {block : Text × List Stop} (hblock : block ∈ byName (blocks skips (joinSlash names) entries))
    {stop : Stop} (hstop : stop ∈ block.2) :
    ∃ rest, namesTo stop.directory = names ++ block.1 :: rest := by
  obtain ⟨hentries, -, hinner⟩ := hwell
  rw [mem_byName, blocks_eq_map] at hblock
  obtain ⟨entry, hentry, rfl⟩ := List.mem_map.1 hblock
  obtain ⟨name, inner, rfl, -, hinside⟩ := mem_stops_iff.1 hstop
  rw [entryOf_joinSlash hnames] at hinside
  have hname : IsName name := hentries _ hentry
  obtain ⟨rest, hrest⟩ := exists_of_mem_walkFrom (hinner name inner hentry)
    (List.forall_mem_append.2 ⟨hnames, by simpa using hname⟩) hinside
  exact ⟨rest, by simpa [Entry.name] using hrest⟩

/-- **The order of a walk**: it comes to the directories in the order of their names. -/
lemma pairwise_directories (hwell : WellNamed entries) (hnames : ∀ name ∈ names, IsName name) :
    (walkFrom skips (joinSlash names) entries).Pairwise fun s t =>
      DirectoryBefore (namesTo s.directory) (namesTo t.directory) := by
  induction hwell generalizing names with
  | @intro entries hentries hdistinct hinner ih =>
    have hwell : WellNamed entries := .intro hentries hdistinct hinner
    have hblocks : ((blocks skips (joinSlash names) entries).map Prod.fst).Nodup := by
      rw [blocks_eq_map, List.map_map]
      exact hdistinct
    rw [walkFrom, List.pairwise_cons, inOrder]
    refine ⟨?first, List.pairwise_flatMap.2 ⟨?block, ?blocks⟩⟩
    case first =>
      intro stop hstop
      obtain ⟨block, hblock, hstop⟩ := List.mem_flatMap.1 hstop
      obtain ⟨rest, hrest⟩ := exists_of_mem_blocks hwell hnames hblock hstop
      rw [namesTo_joinSlash hnames, hrest]
      exact .below names block.1 rest
    case block =>
      intro block hblock
      rw [mem_byName, blocks_eq_map] at hblock
      obtain ⟨entry, hentry, rfl⟩ := List.mem_map.1 hblock
      cases entry with
      | file name content => exact List.Pairwise.nil
      | closedDirectory name => exact List.Pairwise.nil
      | directory name inner =>
          have hname : IsName name := hentries _ hentry
          dsimp only
          rw [stops_directory]
          split
          · exact List.Pairwise.nil
          · rw [entryOf_joinSlash hnames]
            exact ih name inner hentry (List.forall_mem_append.2 ⟨hnames, by simpa using hname⟩)
    case blocks =>
      refine (pairwise_byName_strict hblocks).imp_of_mem ?_
      intro a b ha hb hab s hs t ht
      obtain ⟨p, hp⟩ := exists_of_mem_blocks hwell hnames ha hs
      obtain ⟨q, hq⟩ := exists_of_mem_blocks hwell hnames hb ht
      rw [hp, hq]
      exact .beside names hab p q

end

/-! ### The ignore files at the stops of a walk -/

/-- The ignore file at a stop, if it can be read: the names that lead to its directory, and its
lines. -/
def Stop.ignoreFile? (stop : Stop) : Option (List Text × List Text) :=
  match stop.files.lookup nestedFile with
  | some (.ok opened) => (readLines opened).toOption.map fun read => (namesTo stop.directory, read)
  | _ => none

/-- The ignore files at some stops, in order. -/
def ignoreFiles (stops : List Stop) : List (List Text × List Text) :=
  stops.filterMap Stop.ignoreFile?

/-- The lines of an ignore file, written for the top of the project. -/
def rebasedLines (file : List Text × List Text) : List Text :=
  file.2.map (rebase (joinSlash file.1))

section

variable {skips : Text → Bool} {entries : List Entry} {stop : Stop} {stops : List Stop}
  {lines : List Text}

lemma ignoreFile?_eq_some_iff {file : List Text × List Text} :
    stop.ignoreFile? = some file ↔
      ∃ opened, stop.files.lookup nestedFile = some (.ok opened) ∧ readLines opened = .ok file.2 ∧
        file.1 = namesTo stop.directory := by
  rw [Stop.ignoreFile?]
  split
  · next opened hlookup =>
      obtain ⟨names, read⟩ := file
      rw [hlookup]
      cases hread : readLines opened with
      | error failure => simp [hread, Except.toOption]
      | ok read => simp [hread, Except.toOption, eq_comm, and_comm]
  · next hlookup =>
      refine iff_of_false (by simp) ?_
      rintro ⟨opened, hopened, -⟩
      exact hlookup opened hopened

/-- Reading a stop gives the lines of its ignore file, or nothing where there is none. -/
lemma nestedLinesOf_eq_ok (h : nestedLinesOf stop = .ok lines) :
    lines = stop.ignoreFile?.toList.flatMap rebasedLines ∧
      (stop.files.lookup nestedFile ≠ none → stop.ignoreFile? ≠ none) := by
  rw [nestedLinesOf] at h
  rw [Stop.ignoreFile?]
  cases hlookup : stop.files.lookup nestedFile with
  | none =>
      rw [hlookup] at h
      exact ⟨(Except.ok.inj h).symm, fun hne => absurd rfl hne⟩
  | some content =>
      rw [hlookup] at h
      cases content with
      | error why => contradiction
      | ok opened =>
          dsimp only at h ⊢
          cases hread : readLines opened with
          | error failure =>
              rw [hread] at h
              contradiction
          | ok read =>
              rw [hread] at h
              obtain rfl := Except.ok.inj h
              simp [Except.toOption, rebasedLines, joinSlash_namesTo]

/-- **Reading the stops of a walk** gives the lines of their ignore files, one file behind the
other; where there is such a file, it has been read. -/
lemma linesOfStops_eq_ok (h : linesOfStops stops = .ok lines) :
    lines = (ignoreFiles stops).flatMap rebasedLines ∧
      ∀ stop ∈ stops, stop.files.lookup nestedFile ≠ none → stop.ignoreFile? ≠ none := by
  induction stops generalizing lines with
  | nil =>
      obtain rfl := Except.ok.inj h
      simp [ignoreFiles]
  | cons stop stops ih =>
      rw [linesOfStops, bind_eq_ok_iff] at h
      obtain ⟨first, hfirst, h⟩ := h
      obtain ⟨rest, hrest, h⟩ := bind_eq_ok_iff.1 h
      obtain rfl := Except.ok.inj h
      obtain ⟨rfl, hone⟩ := nestedLinesOf_eq_ok hfirst
      obtain ⟨rfl, hall⟩ := ih hrest
      refine ⟨?_, List.forall_mem_cons.2 ⟨hone, hall⟩⟩
      rw [ignoreFiles, ignoreFiles, List.filterMap_cons]
      cases stop.ignoreFile? <;> simp

lemma Visited.wellNamed {project : List Entry} {directory : Text}
    (h : Visited skips project directory entries) (hwell : WellNamed project) :
    WellNamed entries := by
  induction h with
  | top => exact hwell
  | inside _ hmem _ ih =>
      obtain ⟨-, -, hinner⟩ := ih
      exact hinner _ _ hmem

/-- Where there is nothing, a walk sees nothing. -/
lemma Visited.eq_nil {directory : Text} (h : Visited skips [] directory entries) :
    entries = [] := by
  induction h with
  | top => rfl
  | inside _ hmem _ ih =>
      rw [ih] at hmem
      contradiction

/-- A file is found by its name. -/
lemma lookup_files_eq_some_iff (h : WellNamed entries) {name : Text} {content : Content} :
    (files entries).lookup name = some content ↔ .file name content ∈ entries := by
  obtain ⟨-, hdistinct, -⟩ := h
  have hkeys := List.pairwise_map.1
    (((perm_byName _).map Prod.fst).nodup_iff.2 (nodup_files hdistinct))
  rw [← mem_files_iff, List.lookup_eq_some_iff]
  constructor
  · rintro ⟨before, after, hfiles, -⟩
    rw [hfiles]
    simp
  · intro hmem
    obtain ⟨before, after, hfiles⟩ := List.append_of_mem hmem
    refine ⟨before, after, hfiles, fun other hother => ?_⟩
    rw [files] at hfiles
    rw [hfiles, List.pairwise_append] at hkeys
    simpa using (hkeys.2.2 other hother (name, content) (by simp)).symm

/-- **The ignore files of a walk** are those in the directories that it comes to. -/
lemma mem_ignoreFiles_iff (hwell : WellNamed entries) {file : List Text × List Text} :
    file ∈ ignoreFiles (walk skips entries) ↔
      ∃ directory seen opened, Visited skips entries directory seen ∧
        .file nestedFile (.ok opened) ∈ seen ∧ readLines opened = .ok file.2 ∧
        file.1 = namesTo directory := by
  simp only [ignoreFiles, List.mem_filterMap, mem_walk_iff, ignoreFile?_eq_some_iff]
  constructor
  · rintro ⟨_, ⟨directory, seen, hvisited, rfl⟩, opened, hlookup, hread, hnames⟩
    rw [lookup_files_eq_some_iff (hvisited.wellNamed hwell)] at hlookup
    exact ⟨directory, seen, opened, hvisited, hlookup, hread, hnames⟩
  · rintro ⟨directory, seen, opened, hvisited, hmem, hread, hnames⟩
    rw [← lookup_files_eq_some_iff (hvisited.wellNamed hwell)] at hmem
    exact ⟨_, ⟨directory, seen, hvisited, rfl⟩, opened, hmem, hread, hnames⟩

/-- No ignore file is left out when reading succeeds. -/
lemma exists_mem_ignoreFiles (hwell : WellNamed entries)
    (h : linesOfStops (walk skips entries) = .ok lines) {directory : Text} {seen : List Entry}
    (hvisited : Visited skips entries directory seen) {content : Content}
    (hmem : .file nestedFile content ∈ seen) :
    ∃ read, (namesTo directory, read) ∈ ignoreFiles (walk skips entries) := by
  have hstop : ⟨directory, files seen⟩ ∈ walk skips entries :=
    mem_walk_iff.2 ⟨directory, seen, hvisited, rfl⟩
  have hlookup := (lookup_files_eq_some_iff (hvisited.wellNamed hwell)).2 hmem
  obtain ⟨⟨names, read⟩, hfile⟩ := Option.ne_none_iff_exists'.1
    ((linesOfStops_eq_ok h).2 _ hstop (by simp [hlookup]))
  obtain ⟨-, -, -, rfl⟩ := ignoreFile?_eq_some_iff.1 hfile
  exact ⟨read, List.mem_filterMap.2 ⟨_, hstop, hfile⟩⟩

/-- The ignore files come in the order of their directories. -/
lemma pairwise_ignoreFiles (hwell : WellNamed entries) :
    (ignoreFiles (walk skips entries)).Pairwise fun f g => DirectoryBefore f.1 g.1 := by
  have hnames : ∀ name ∈ ([] : List Text), IsName name := by simp
  rw [ignoreFiles, List.pairwise_filterMap]
  refine (pairwise_directories hwell hnames).imp ?_
  intro s t hst f hf g hg
  obtain ⟨-, -, -, hf⟩ := ignoreFile?_eq_some_iff.1 hf
  obtain ⟨-, -, -, hg⟩ := ignoreFile?_eq_some_iff.1 hg
  rwa [hf, hg]

/-! ### The rules -/

/-- The lines that come first are those of an ignore file, or the fixed list where there is none. -/
lemma ownLines_eq_ok (hwell : WellNamed entries) (h : ownLines entries = .ok lines) :
    (∃ opened, .file ownFile (.ok opened) ∈ entries ∧ readLines opened = .ok lines) ∨
      (∀ entry ∈ entries, entry.name = ownFile →
        ∃ why, entry = .file ownFile (.error why) ∧ why.isAbsence = true) ∧
          lines = defaultLines := by
  obtain ⟨-, hdistinct, -⟩ := hwell
  rw [ownLines] at h
  cases hfind : entries.find? (·.name = ownFile) with
  | none =>
      rw [hfind] at h
      refine .inr ⟨fun entry hentry hname => absurd hname ?_, (Except.ok.inj h).symm⟩
      simpa using List.find?_eq_none.1 hfind entry hentry
  | some first =>
      have hmem := List.mem_of_find?_eq_some hfind
      have hname : first.name = ownFile := by simpa using List.find?_some hfind
      rw [hfind] at h
      cases first with
      | directory => contradiction
      | closedDirectory => contradiction
      | file name content =>
          obtain rfl : name = ownFile := hname
          cases content with
          | ok opened => exact .inl ⟨opened, hmem, h⟩
          | error why =>
              dsimp only at h
              split at h
              · next hwhy =>
                  refine .inr ⟨fun entry hentry hsame => ⟨why, ?_, hwhy⟩, (Except.ok.inj h).symm⟩
                  exact List.inj_on_of_nodup_map hdistinct hentry hmem hsame
              · contradiction

/-- The rules of a project, told by its walks. -/
lemma rules_of_walk {own : List Text} {stops : (Text → Bool) → List Stop}
    (hown : ownLines entries = .ok own) (hwalk : ∀ skips, walk skips entries = stops skips) :
    Project.rules entries true =
      Rules.ofLines own >>= fun base => linesOfStops (stops base.ignores) >>= fun nested =>
        Rules.ofLines (own ++ nested) := by
  rw [Project.rules, hown]
  simp only [nestedLines, hwalk, if_true]
  rfl

/-- Rules that can be read are made of lines that can be read. -/
lemma exists_of_rules {rules : Rules} (h : Project.rules entries true = .ok rules) :
    ∃ own base nested, ownLines entries = .ok own ∧ Rules.ofLines own = .ok base ∧
      linesOfStops (walk base.ignores entries) = .ok nested ∧
      Rules.ofLines (own ++ nested) = .ok rules := by
  rw [Project.rules, bind_eq_ok_iff] at h
  obtain ⟨own, hown, h⟩ := h
  obtain ⟨base, hbase, h⟩ := bind_eq_ok_iff.1 h
  rw [if_pos rfl] at h
  obtain ⟨nested, hnested, h⟩ := bind_eq_ok_iff.1 h
  exact ⟨own, base, nested, hown, hbase, hnested, h⟩

end

end Project

namespace Disk

open Project Ignore GeneratedCode.Path

variable {disk : Disk} {project : Text} {skips : Text → Bool} {names : List Text}

/-! ### Ignore files on a disk -/

lemma mapError_eq_ok_iff {content : Except Refusal OpenFile} {opened : OpenFile} :
    content.mapError FileError.refused = .ok opened ↔ content = .ok opened := by
  cases content <;> simp [Except.mapError]

/-- Whether opening a node at the end of some names gives this file: what a file holds that is not
refused, or the file that a link leads to. -/
def Opens (disk : Disk) (names : List Text) (opened : OpenFile) : Node → Prop
  | .file _ content => disk.isTooLong (.inside []) names = false ∧ content = .ok opened
  | .directory _ _ => False
  | .link _ _ => ∃ name, nodeAt disk (.inside []) names = .ok (.file name (.ok opened))

/-- A scan reads what opening a node gives. -/
lemma entry_eq_file_ok_iff {node : Node} {opened : OpenFile} :
    entry disk names node = .file node.name (.ok opened) ↔
      disk.Opens (names ++ [node.name]) opened node := by
  cases node with
  | file name content =>
      rw [entry, Opens, Node.name]
      cases disk.isTooLong (.inside []) (names ++ [name]) <;> simp [mapError_eq_ok_iff]
  | directory name inner =>
      rw [entry, Opens, Node.name]
      split <;> simp
  | link name target =>
      rw [entry, Opens, Node.name]
      split
      · next h => simp [h, mapError_eq_ok_iff]
      · next h => simp [h]
      · next h => simp [h]
      · next h => simp [h]

/-- Whether there is something to read at a node with the name of an ignore file: a link that leads
neither to a file nor to a directory is as good as nothing. -/
def IsThere (disk : Disk) (names : List Text) : Node → Prop
  | .link _ _ => ∃ node, nodeAt disk (.inside []) names = .ok node ∧
      ∀ name target, node ≠ .link name target
  | _ => True

/-- Whether these are the lines that the rules of a project start with: those of its own ignore
file, or the fixed list where there is none. -/
def HasOwnLines (disk : Disk) (project : Text) (lines : List Text) : Prop :=
  (∃ top inside node opened, disk.find project = .ok (.directory top inside) ∧ node ∈ inside ∧
    node.name = ownFile ∧ disk.Opens (Path.names project ++ [ownFile]) opened node ∧
    readLines opened = .ok lines) ∨
  ((∀ top inside, disk.find project = .ok (.directory top inside) →
    ∀ node ∈ inside, node.name = ownFile →
      ¬ disk.IsThere (Path.names project ++ [ownFile]) node) ∧ lines = defaultLines)

/-- What a scan sees as a file that is absent is not there. -/
lemma not_isThere_of_entry {node : Node} {name : Text} {why : FileError}
    (h : entry disk names node = .file name (.error why)) (hwhy : why.isAbsence = true) :
    ¬ disk.IsThere (names ++ [node.name]) node := by
  have hrefused (content : Except Refusal OpenFile) :
      content.mapError FileError.refused ≠ .error why := by
    intro hcontent
    cases content with
    | ok opened => contradiction
    | error refusal =>
        obtain rfl := Except.error.inj hcontent
        contradiction
  cases node with
  | file other content =>
      rw [entry] at h
      obtain ⟨-, hcontent⟩ := Entry.file.inj h
      split at hcontent
      · obtain rfl := Except.error.inj hcontent
        contradiction
      · exact absurd hcontent (hrefused content)
  | directory other inner =>
      rw [entry] at h
      split at h <;> contradiction
  | link other target =>
      rw [entry] at h
      rw [IsThere, Node.name]
      rintro ⟨node, hnode, hlink⟩
      rw [hnode] at h
      cases node with
      | file name content => exact hrefused content (Entry.file.inj h).2
      | directory => simp at h
      | link name target => exact hlink name target rfl

/-- The own lines of a project are those that are found on the disk. -/
lemma hasOwnLines_of_listing (hdisk : WellNamed disk) {lines : List Text}
    (h : ownLines (disk.listing project) = .ok lines) : disk.HasOwnLines project lines := by
  rcases ownLines_eq_ok (wellNamed_listing hdisk project) h with
    ⟨opened, hmem, hread⟩ | ⟨hnone, rfl⟩
  · have hfind : ∃ top inside, disk.find project = .ok (.directory top inside) := by
      by_contra hnot
      rw [listing_eq_nil fun top inside hfound => hnot ⟨top, inside, hfound⟩] at hmem
      contradiction
    obtain ⟨top, inside, hfind⟩ := hfind
    rw [listing_eq hfind, entries_eq_map, List.mem_map] at hmem
    obtain ⟨node, hnode, hentry⟩ := hmem
    have hname : node.name = ownFile := by
      rw [← name_entry disk (Path.names project) node, hentry]
      rfl
    refine .inl ⟨top, inside, node, opened, hfind, hnode, hname, ?_, hread⟩
    rw [← hname] at hentry ⊢
    exact entry_eq_file_ok_iff.1 hentry
  · refine .inr ⟨fun top inside hfind node hnode hname => ?_, rfl⟩
    have hmem : entry disk (Path.names project) node ∈ disk.listing project := by
      rw [listing_eq hfind, entries_eq_map]
      exact List.mem_map_of_mem hnode
    obtain ⟨why, hseen, hwhy⟩ := hnone _ hmem ((name_entry disk _ node).trans hname)
    rw [← hname]
    exact not_isThere_of_entry hseen hwhy

/-- What a walk sees in the directories that it comes to is what is in them on the disk. -/
lemma exists_visited_listing_iff (hdisk : WellNamed disk) {directory : Text} {seen : Entry} :
    (∃ entries, Project.Visited skips (disk.listing project) directory entries ∧ seen ∈ entries) ↔
      ∃ names nodes node, disk.Visited skips project names nodes ∧ node ∈ nodes ∧
        directory = joinSlash names ∧ seen = entry disk (Path.names project ++ names) node := by
  by_cases hfind : ∃ top inside, disk.find project = .ok (.directory top inside)
  · obtain ⟨top, inside, hfind⟩ := hfind
    simp only [visited_listing_iff hdisk hfind]
    constructor
    · rintro ⟨_, ⟨names, nodes, hvisited, rfl, rfl⟩, hseen⟩
      rw [entries_eq_map, List.mem_map] at hseen
      obtain ⟨node, hnode, rfl⟩ := hseen
      exact ⟨names, nodes, node, hvisited, hnode, rfl, rfl⟩
    · rintro ⟨names, nodes, node, hvisited, hnode, rfl, rfl⟩
      refine ⟨_, ⟨names, nodes, hvisited, rfl, rfl⟩, ?_⟩
      rw [entries_eq_map]
      exact List.mem_map_of_mem hnode
  · have hnot (top : Text) (inside : List Node) : disk.find project ≠ .ok (.directory top inside) :=
      fun hfound => hfind ⟨top, inside, hfound⟩
    rw [listing_eq_nil hnot]
    refine iff_of_false ?_ ?_
    · rintro ⟨entries, hvisited, hseen⟩
      rw [hvisited.eq_nil] at hseen
      contradiction
    · rintro ⟨names, nodes, node, hvisited, -⟩
      exact hfind hvisited.exists_find

/-- The ignore files that a walk finds are those on the disk. -/
lemma mem_ignoreFiles_listing_iff (hdisk : WellNamed disk) {file : List Text × List Text} :
    file ∈ ignoreFiles (walk skips (disk.listing project)) ↔
      ∃ nodes node opened, disk.Visited skips project file.1 nodes ∧ node ∈ nodes ∧
        node.name = nestedFile ∧
        disk.Opens (Path.names project ++ (file.1 ++ [nestedFile])) opened node ∧
        readLines opened = .ok file.2 := by
  rw [mem_ignoreFiles_iff (wellNamed_listing hdisk project)]
  constructor
  · rintro ⟨directory, seen, opened, hseen, hmem, hread, hnames⟩
    obtain ⟨names, nodes, node, hvisited, hnode, rfl, hentry⟩ :=
      (exists_visited_listing_iff hdisk).1 ⟨seen, hseen, hmem⟩
    obtain rfl : file.1 = names := hnames.trans (namesTo_joinSlash (hvisited.isName hdisk).1)
    have hname : node.name = nestedFile := by
      rw [← name_entry disk (Path.names project ++ file.1) node, ← hentry]
      rfl
    refine ⟨nodes, node, opened, hvisited, hnode, hname, ?_, hread⟩
    rw [← List.append_assoc, ← hname]
    rw [← hname] at hentry
    exact entry_eq_file_ok_iff.1 hentry.symm
  · rintro ⟨nodes, node, opened, hvisited, hnode, hname, hopens, hread⟩
    rw [← List.append_assoc, ← hname] at hopens
    have hentry := entry_eq_file_ok_iff.2 hopens
    obtain ⟨seen, hseen, hmem⟩ := (exists_visited_listing_iff hdisk).2
      ⟨file.1, nodes, node, hvisited, hnode, rfl, rfl⟩
    rw [hentry, hname] at hmem
    exact ⟨_, seen, opened, hseen, hmem, hread,
      (namesTo_joinSlash (hvisited.isName hdisk).1).symm⟩

/-! ### A project with ignore files -/

/-- An ignore file with some text. -/
def ignoreFile (name : Text) (text : String) : Node :=
  .file name (.ok (Text.Utf8.encode text.toList))

/-- A disk with a project at the top, which has an ignore file of its own that ignores `bin`, and
ignore files in three directories, one of them `bin`. -/
def withBin : Disk where
  nodes :=
    [ignoreFile ownFile "bin/\n", ignoreFile nestedFile "*.log\r\n",
      .directory "bin".toList [ignoreFile nestedFile "x"],
      .directory "d".toList [ignoreFile nestedFile "/k\n\n!m"]]

lemma wellNamed_withBin : WellNamed withBin := by
  have hone (text : String) : Node.WellNamed [ignoreFile nestedFile text] :=
    .intro (by simp [ignoreFile, Node.name]; decide) (by simp) (by simp [ignoreFile])
  refine .intro (by simp [withBin, ignoreFile, Node.name]; decide)
    (by simp [withBin, ignoreFile, Node.name]; decide) fun name inner hmem => ?_
  simp only [withBin, ignoreFile, List.mem_cons, List.not_mem_nil, or_false, reduceCtorEq,
    false_or, Node.directory.injEq] at hmem
  rcases hmem with ⟨-, rfl⟩ | ⟨-, rfl⟩ <;> exact hone _

/-- Every path on it is short enough, so a scan sees all of it. -/
lemma listing_withBin :
    withBin.listing [] =
      [.file ownFile (.ok (Text.Utf8.encode "bin/\n".toList)),
        .file nestedFile (.ok (Text.Utf8.encode "*.log\r\n".toList)),
        .directory "bin".toList [.file nestedFile (.ok (Text.Utf8.encode "x".toList))],
        .directory "d".toList [.file nestedFile (.ok (Text.Utf8.encode "/k\n\n!m".toList))]] := by
  have hshort : ∀ names ∈ [[ownFile], [nestedFile], ["bin".toList], ["d".toList],
      ["bin".toList, nestedFile], ["d".toList, nestedFile]],
      withBin.isTooLong (.inside []) names = false := by decide
  simp only [List.forall_mem_cons] at hshort
  have hnodes : withBin.nodes = [ignoreFile ownFile "bin/\n", ignoreFile nestedFile "*.log\r\n",
      .directory "bin".toList [ignoreFile nestedFile "x"],
      .directory "d".toList [ignoreFile nestedFile "/k\n\n!m"]] := rfl
  rw [listing_eq (find_nil (by decide)), show Path.names [] = [] from rfl, hnodes]
  simp only [ignoreFile, entries, entry, List.nil_append, List.singleton_append, hshort,
    Bool.false_eq_true, if_false, Except.mapError]

lemma walk_withBin (skips : Text → Bool) :
    walk skips (withBin.listing []) =
      ⟨[], [(ownFile, .ok (Text.Utf8.encode "bin/\n".toList)),
        (nestedFile, .ok (Text.Utf8.encode "*.log\r\n".toList))]⟩ ::
        ((if skips "bin/".toList then []
          else [⟨"bin".toList, [(nestedFile, .ok (Text.Utf8.encode "x".toList))]⟩]) ++
        if skips "d/".toList then []
        else [⟨"d".toList, [(nestedFile, .ok (Text.Utf8.encode "/k\n\n!m".toList))]⟩]) := by
  have hinner (directory : Text) (opened : OpenFile) :
      walkFrom skips directory [.file nestedFile (.ok opened)] =
        [⟨directory, [(nestedFile, .ok opened)]⟩] :=
    walkFrom_of_files (List.pairwise_singleton _ _) (by simp)
  rw [listing_withBin, walk_eq_walkFrom, walkFrom_of_pairwise (by simp [Entry.name]; decide)]
  simp only [List.flatMap_cons, List.flatMap_nil, stops_directory, hinner, List.append_nil]
  rw [Entry.stops, Entry.stops]
  · rfl
  · simp
  · simp

/-! ### The rules of a project on a disk -/

/-- What the rules of a project on a disk are made of: the lines that come first, the rules that
these make, and the ignore files of the directories that a walk comes to by them, each with the
names that lead to its directory, and its lines. -/
structure MadeOf (disk : Disk) (project : Text) (own : List Text) (base : Rules)
    (files : List (List Text × List Text)) (rules : Rules) : Prop where
  first : disk.HasOwnLines project own
  read : Rules.ofLines own = .ok base
  /-- No ignore file is left out. -/
  complete : ∀ names nodes node, disk.Visited base.ignores project names nodes → node ∈ nodes →
    node.name = nestedFile →
    disk.CountsAsFile (Path.names project ++ (names ++ [nestedFile])) node →
    ∃ read, (names, read) ∈ files
  /-- There is no other, and the lines of each are those that it holds. -/
  sound : ∀ names read, (names, read) ∈ files →
    ∃ nodes node opened, disk.Visited base.ignores project names nodes ∧ node ∈ nodes ∧
      node.name = nestedFile ∧
      disk.Opens (Path.names project ++ (names ++ [nestedFile])) opened node ∧
      readLines opened = .ok read
  order : files.Pairwise fun f g => DirectoryBefore f.1 g.1
  /-- None comes twice, and none comes before that of a directory that leads to its own. -/
  above : files.Pairwise fun f g => ¬ g.1 <+: f.1
  whole : Rules.ofLines
    (own ++ files.flatMap fun file => file.2.map (rebase (joinSlash file.1))) = .ok rules
  lines : rules.lines =
    (own ++ files.flatMap fun file => file.2.map (rebase (joinSlash file.1))).filter (!·.isEmpty)

/-- **The rules of a project on a disk**, when they can be read, are made of its own lines, or the
fixed ones, and behind them the lines of the ignore file of every directory that a walk comes to
which skips what the first lines ignore, each line written for the top of the project. The
directories come in the order of the walk, one before those in it. -/
theorem rules_listing (hdisk : WellNamed disk) (project : Text) {rules : Rules}
    (h : Project.rules (disk.listing project) true = .ok rules) :
    ∃ own base files, disk.MadeOf project own base files rules := by
  obtain ⟨own, base, nested, hown, hbase, hnested, hrules⟩ := exists_of_rules h
  have hwell := wellNamed_listing hdisk project
  have horder : (ignoreFiles (walk base.ignores (disk.listing project))).Pairwise fun f g =>
      DirectoryBefore f.1 g.1 := pairwise_ignoreFiles hwell
  obtain ⟨rfl, -⟩ := linesOfStops_eq_ok hnested
  refine ⟨own, base, ignoreFiles (walk base.ignores (disk.listing project)), ?_⟩
  refine ⟨hasOwnLines_of_listing hdisk hown, hbase, ?complete, ?sound, horder,
    horder.imp DirectoryBefore.not_isPrefix, hrules, (ofLines_eq_ok_iff.1 hrules).1⟩
  case complete =>
    intro names nodes node hvisited hnode hname hcounts
    rw [← List.append_assoc, ← hname] at hcounts
    obtain ⟨content, hentry⟩ := exists_entry_eq_file_iff.2 hcounts
    obtain ⟨seen, hseen, hmem⟩ := (exists_visited_listing_iff hdisk).2
      ⟨names, nodes, node, hvisited, hnode, rfl, rfl⟩
    rw [hentry, hname] at hmem
    rw [← namesTo_joinSlash (hvisited.isName hdisk).1]
    exact exists_mem_ignoreFiles hwell hnested hseen hmem
  case sound =>
    exact fun names read hmem => (mem_ignoreFiles_listing_iff hdisk).1 hmem

/-- The walk is kept from `bin`, so the line in it is not among those of the rules. -/
theorem rules_listing_of_bin :
    WellNamed withBin ∧
      ∃ rules own base files, Project.rules (withBin.listing []) true = .ok rules ∧
        withBin.MadeOf [] own base files rules ∧
        rules.lines = ["bin/", "*.log", "d/k", "!d/**/m"].map String.toList := by
  have hown : ownLines (withBin.listing []) = .ok ["bin/".toList] := by
    rw [listing_withBin]
    decide +kernel
  have hlines : (Project.rules (withBin.listing []) true).toOption.map (·.lines) =
      some (["bin/", "*.log", "d/k", "!d/**/m"].map String.toList) := by
    rw [rules_of_walk hown walk_withBin]
    decide +kernel
  cases hrules : Project.rules (withBin.listing []) true with
  | error failure =>
      rw [hrules] at hlines
      contradiction
  | ok rules =>
      rw [hrules] at hlines
      obtain ⟨own, base, files, hmade⟩ := rules_listing wellNamed_withBin [] hrules
      exact ⟨wellNamed_withBin, rules, own, base, files, rfl, hmade, Option.some.inj hlines⟩

end Disk

end GeneratedCode
