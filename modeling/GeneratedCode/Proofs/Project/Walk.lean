import Mathlib.Data.List.Sort
import Mathlib.Tactic
import GeneratedCode.Project.SourceFile
import GeneratedCode.Proofs.Path.Pieces

/-!
Which directories a walk comes to, and in which order.

`Visited` says where a walk comes to, one directory after another: to the project, and from a
directory to those in it that are not skipped. `mem_walk_iff` says that the stops of a walk are
these directories, `mem_sourceFiles_iff` that its source files are the wanted files in them.

The order is one of paths (`ComesBefore`): in a directory files come before directories, and both
in the order of their names. `pairwise_sourceFiles` is the induction over the project; what it
carries is that the files below a directory have its names in front (`exists_of_mem_sources`). The
order is strict, so no path comes twice (`nodup_paths`).
-/

namespace GeneratedCode

namespace Project

open Text GeneratedCode.Path

/-! ### Projects -/

/-- A property of entries that is inherited from those in each directory holds of all. -/
@[elab_as_elim]
theorem entries_induction {motive : List Entry → Prop}
    (h : ∀ entries, (∀ name inner, .directory name inner ∈ entries → motive inner) →
      motive entries) (entries : List Entry) : motive entries :=
  h entries fun _ inner _hmem => entries_induction h inner
termination_by sizeOf entries
decreasing_by
  have hlt := List.sizeOf_lt_of_mem _hmem
  rw [Entry.directory.sizeOf_spec] at hlt
  omega

/-- Entries as a directory can have them, in which all directories are so too: each has a name, and
no two have the same. -/
inductive WellNamed : List Entry → Prop where
  | intro {entries : List Entry} (hnames : ∀ entry ∈ entries, IsName entry.name)
      (hdistinct : (entries.map Entry.name).Nodup)
      (hinner : ∀ name inner, .directory name inner ∈ entries → WellNamed inner) :
      WellNamed entries

lemma wellNamed_nil : WellNamed [] :=
  .intro (by simp) (by simp) (by simp)

/-! ### The stops of a walk -/

/-- The stops of a walk that has come to a directory. -/
def walkFrom (skips : Text → Bool) (directory : Text) (entries : List Entry) : List Stop :=
  ⟨directory, files entries⟩ :: inOrder (blocks skips directory entries)

section

variable {skips : Text → Bool} {directory : Text} {entries : List Entry}

lemma walk_eq_walkFrom (skips : Text → Bool) (entries : List Entry) :
    walk skips entries = walkFrom skips [] entries := rfl

lemma stops_directory (skips : Text → Bool) (directory name : Text) (inner : List Entry) :
    (Entry.directory name inner).stops skips directory =
      if skips (entryOf directory name ++ ['/']) then []
      else walkFrom skips (entryOf directory name) inner := by
  rw [Entry.stops]
  rfl

/-- There are stops at a directory only, and only if it is not skipped. -/
lemma mem_stops_iff {entry : Entry} {stop : Stop} :
    stop ∈ entry.stops skips directory ↔
      ∃ name inner, entry = .directory name inner ∧
        skips (entryOf directory name ++ ['/']) = false ∧
        stop ∈ walkFrom skips (entryOf directory name) inner := by
  cases entry with
  | directory name inner =>
      rw [stops_directory]
      cases hskip : skips (entryOf directory name ++ ['/']) <;> simp [hskip]
  | file name content => simp [Entry.stops]
  | closedDirectory name => simp [Entry.stops]

lemma blocks_eq_map (skips : Text → Bool) (directory : Text) (entries : List Entry) :
    blocks skips directory entries =
      entries.map fun entry => (entry.name, entry.stops skips directory) := by
  induction entries with
  | nil => rw [blocks]; rfl
  | cons entry entries ih => rw [blocks, ih]; rfl

lemma mem_byName {α : Type} {named : List (Text × α)} {a : Text × α} :
    a ∈ byName named ↔ a ∈ named :=
  (perm_byName named).mem_iff

lemma mem_walkFrom_iff {stop : Stop} :
    stop ∈ walkFrom skips directory entries ↔
      stop = ⟨directory, files entries⟩ ∨
        ∃ entry ∈ entries, stop ∈ entry.stops skips directory := by
  simp only [walkFrom, inOrder, List.mem_cons, List.mem_flatMap, mem_byName, blocks_eq_map,
    List.mem_map]
  refine or_congr_right ⟨?_, ?_⟩
  · rintro ⟨_, ⟨entry, hentry, rfl⟩, hstop⟩
    exact ⟨entry, hentry, hstop⟩
  · rintro ⟨entry, hentry, hstop⟩
    exact ⟨_, ⟨entry, hentry, rfl⟩, hstop⟩

lemma byName_eq_self {α : Type} {named : List (Text × α)}
    (h : named.Pairwise fun a b => precedes a.1 b.1 = true) : byName named = named :=
  List.mergeSort_of_pairwise h

/-- A walk through entries that are in the order of their names. -/
lemma walkFrom_of_pairwise (h : entries.Pairwise fun a b => precedes a.name b.name = true) :
    walkFrom skips directory entries =
      ⟨directory, entries.filterMap Entry.file?⟩ ::
        entries.flatMap (Entry.stops skips directory) := by
  have hfiles : files entries = entries.filterMap Entry.file? := by
    refine byName_eq_self (List.pairwise_filterMap.2 (h.imp ?_))
    intro a b hab c hc d hd
    cases a <;> cases b <;> simp [Entry.file?] at hc hd
    subst hc hd
    exact hab
  have hblocks : byName (blocks skips directory entries) =
      entries.map fun entry => (entry.name, entry.stops skips directory) := by
    rw [blocks_eq_map]
    exact byName_eq_self (List.pairwise_map.2 h)
  rw [walkFrom, hfiles, inOrder, hblocks, List.flatMap_map]

/-- A walk through files that are in the order of their names. -/
lemma walkFrom_of_files (h : entries.Pairwise fun a b => precedes a.name b.name = true)
    (hfiles : ∀ entry ∈ entries, ∃ name content, entry = .file name content) :
    walkFrom skips directory entries = [⟨directory, entries.filterMap Entry.file?⟩] := by
  rw [walkFrom_of_pairwise h, List.flatMap_eq_nil_iff.2 fun entry hentry => ?_]
  obtain ⟨name, content, rfl⟩ := hfiles entry hentry
  rw [Entry.stops]
  simp

/-! ### Where a walk comes to -/

/-- The directories of a project that a walk comes to, by their paths, with their entries. -/
inductive Visited (skips : Text → Bool) (project : List Entry) : Text → List Entry → Prop where
  | top : Visited skips project [] project
  | inside {directory name : Text} {entries inner : List Entry}
      (hdirectory : Visited skips project directory entries)
      (hmem : .directory name inner ∈ entries)
      (hskip : skips (entryOf directory name ++ ['/']) = false) :
      Visited skips project (entryOf directory name) inner

/-- The stops of a walk that has come to a directory are those of the whole walk. -/
lemma Visited.walkFrom_subset {project : List Entry} (h : Visited skips project directory entries) :
    walkFrom skips directory entries ⊆ walk skips project := by
  induction h with
  | top => exact List.Subset.refl _
  | inside _ hmem hskip ih =>
      intro stop hstop
      refine ih (mem_walkFrom_iff.2 (.inr ⟨_, hmem, ?_⟩))
      exact mem_stops_iff.2 ⟨_, _, rfl, hskip, hstop⟩

lemma exists_visited_of_mem_walkFrom {project : List Entry} {stop : Stop}
    (h : Visited skips project directory entries)
    (hstop : stop ∈ walkFrom skips directory entries) :
    ∃ directory entries, Visited skips project directory entries ∧
      stop = ⟨directory, files entries⟩ := by
  induction entries using entries_induction generalizing directory with
  | _ entries ih =>
    rcases mem_walkFrom_iff.1 hstop with rfl | ⟨entry, hentry, hstop⟩
    · exact ⟨directory, entries, h, rfl⟩
    · obtain ⟨name, inner, rfl, hskip, hinner⟩ := mem_stops_iff.1 hstop
      exact ih name inner hentry (.inside h hentry hskip) hinner

/-- **The stops of a walk** are the directories that it comes to. -/
theorem mem_walk_iff {project : List Entry} {stop : Stop} :
    stop ∈ walk skips project ↔
      ∃ directory entries, Visited skips project directory entries ∧
        stop = ⟨directory, files entries⟩ := by
  constructor
  · exact fun h => exists_visited_of_mem_walkFrom .top h
  · rintro ⟨directory, entries, hvisited, rfl⟩
    exact hvisited.walkFrom_subset (mem_walkFrom_iff.2 (.inl rfl))

lemma mem_files_iff {name : Text} {content : Content} :
    (name, content) ∈ files entries ↔ .file name content ∈ entries := by
  rw [files, mem_byName, List.mem_filterMap]
  constructor
  · rintro ⟨entry, hentry, hfile⟩
    cases entry with
    | file other bytes =>
        obtain ⟨rfl, rfl⟩ := Prod.mk.inj (Option.some.inj hfile)
        exact hentry
    | directory => simp [Entry.file?] at hfile
    | closedDirectory => simp [Entry.file?] at hfile
  · exact fun h => ⟨_, h, rfl⟩

lemma mem_sourceFilesOf_iff {extensions : List Text} {file : SourceFile} :
    file ∈ sourceFilesOf extensions skips ⟨directory, files entries⟩ ↔
      .file file.name file.content ∈ entries ∧ file.path = entryOf directory file.name ∧
        isWanted extensions file.name = true ∧ skips file.path = false := by
  rw [sourceFilesOf, List.mem_filterMap]
  constructor
  · rintro ⟨⟨name, content⟩, hmem, h⟩
    rw [mem_files_iff] at hmem
    dsimp only at h
    split at h
    · next hkeep =>
        obtain rfl := Option.some.inj h
        rw [Bool.and_eq_true, Bool.not_eq_true'] at hkeep
        exact ⟨hmem, rfl, hkeep⟩
    · contradiction
  · rintro ⟨hmem, hpath, hwanted, hskip⟩
    refine ⟨(file.name, file.content), mem_files_iff.2 hmem, ?_⟩
    dsimp only
    rw [← hpath, hwanted, hskip]
    rfl

/-- **The source files** are the wanted files in the directories that a walk comes to. -/
theorem mem_sourceFiles_iff {extensions : List Text} {project : List Entry} {file : SourceFile} :
    file ∈ sourceFiles extensions skips project ↔
      ∃ directory entries, Visited skips project directory entries ∧
        .file file.name file.content ∈ entries ∧ file.path = entryOf directory file.name ∧
        isWanted extensions file.name = true ∧ skips file.path = false := by
  simp only [sourceFiles, List.mem_flatMap, mem_walk_iff]
  constructor
  · rintro ⟨_, ⟨directory, entries, hvisited, rfl⟩, hfile⟩
    exact ⟨directory, entries, hvisited, mem_sourceFilesOf_iff.1 hfile⟩
  · rintro ⟨directory, entries, hvisited, hfile⟩
    exact ⟨_, ⟨directory, entries, hvisited, rfl⟩, mem_sourceFilesOf_iff.2 hfile⟩

end

/-! ### The order of a walk -/

/-- Whether a walk comes to the first path before it comes to the second, both given by their names:
in a directory files come before directories, and both in the order of their names. -/
inductive ComesBefore : List Text → List Text → Prop where
  | files {a b : Text} (hne : a ≠ b) (h : precedes a b = true) : ComesBefore [a] [b]
  | fileFirst (a b c : Text) (rest : List Text) : ComesBefore [a] (b :: c :: rest)
  | directories {a b : Text} (hne : a ≠ b) (h : precedes a b = true) (c d : Text)
      (p q : List Text) : ComesBefore (a :: c :: p) (b :: d :: q)
  | within (a : Text) {p q : List Text} (h : ComesBefore p q) : ComesBefore (a :: p) (a :: q)

namespace ComesBefore

variable {p q : List Text}

/-- No path comes before itself. -/
lemma ne (h : ComesBefore p q) : p ≠ q := by
  induction h with
  | files hne _ => exact fun heq => hne (List.cons.inj heq).1
  | fileFirst a b c rest => simp
  | directories hne _ c d p q => exact fun heq => hne (List.cons.inj heq).1
  | within a _ ih => exact fun heq => ih (List.cons.inj heq).2

/-- Of two paths one comes first. -/
lemma asymm (h : ComesBefore p q) : ¬ ComesBefore q p := by
  induction h with
  | files hne hab =>
      intro h
      cases h with
      | files _ hba => exact hne (precedes_antisymm hab hba)
      | within _ h => cases h
  | fileFirst a b c rest =>
      intro h
      cases h with
      | within _ h => cases h
  | directories hne hab c d p q =>
      intro h
      cases h with
      | directories _ hba => exact hne (precedes_antisymm hab hba)
      | within _ _ => exact hne rfl
  | within a h ih =>
      intro hback
      cases hback with
      | files hne _ => exact hne rfl
      | fileFirst => cases h
      | directories hne _ => exact hne rfl
      | within _ hback => exact ih hback

/-- The order below a directory is the one of the whole paths. -/
lemma append (h : ComesBefore p q) (names : List Text) : ComesBefore (names ++ p) (names ++ q) := by
  induction names with
  | nil => exact h
  | cons name names ih => exact .within name ih

/-- Paths in this order are known when it is known which they are. -/
lemma eq_of_mem_iff {paths others : List Text}
    (hpaths : paths.Pairwise fun p q => ComesBefore (splitSlash p) (splitSlash q))
    (hothers : others.Pairwise fun p q => ComesBefore (splitSlash p) (splitSlash q))
    (h : ∀ path, path ∈ paths ↔ path ∈ others) : paths = others := by
  have hirrefl : Std.Irrefl fun p q => ComesBefore (splitSlash p) (splitSlash q) :=
    ⟨fun path hpath => hpath.ne rfl⟩
  have hantisymm : Std.Antisymm fun p q => ComesBefore (splitSlash p) (splitSlash q) :=
    ⟨fun p q hpq hqp => absurd hqp hpq.asymm⟩
  exact hpaths.eq_of_mem_iff hothers h

end ComesBefore

/-- Things whose names differ are in strict order. -/
lemma pairwise_byName_strict {α : Type} {named : List (Text × α)}
    (h : (named.map Prod.fst).Nodup) :
    (byName named).Pairwise fun a b => a.1 ≠ b.1 ∧ precedes a.1 b.1 = true := by
  have hnodup : ((byName named).map Prod.fst).Nodup :=
    ((perm_byName named).map Prod.fst).nodup_iff.2 h
  exact (List.pairwise_map.1 hnodup).and (pairwise_byName named)

/-- The source files at the stops of a walk that has come to a directory. -/
def sourcesFrom (extensions : List Text) (skips : Text → Bool) (directory : Text)
    (entries : List Entry) : List SourceFile :=
  (walkFrom skips directory entries).flatMap (sourceFilesOf extensions skips)

section

variable {extensions : List Text} {skips : Text → Bool} {names : List Text} {entries : List Entry}
  {file : SourceFile}

lemma sourceFiles_eq_sourcesFrom (extensions : List Text) (skips : Text → Bool)
    (entries : List Entry) :
    sourceFiles extensions skips entries = sourcesFrom extensions skips [] entries := rfl

/-- The files of a directory come first, and then the blocks of the directories in it. -/
lemma sourcesFrom_eq (extensions : List Text) (skips : Text → Bool) (directory : Text)
    (entries : List Entry) :
    sourcesFrom extensions skips directory entries =
      sourceFilesOf extensions skips ⟨directory, files entries⟩ ++
        (byName (blocks skips directory entries)).flatMap fun block =>
          block.2.flatMap (sourceFilesOf extensions skips) := by
  rw [sourcesFrom, walkFrom, List.flatMap_cons, inOrder, List.flatMap_assoc]

lemma nodup_files (h : (entries.map Entry.name).Nodup) :
    ((entries.filterMap Entry.file?).map Prod.fst).Nodup := by
  have hsublist : ((entries.filterMap Entry.file?).map Prod.fst).Sublist
      (entries.map Entry.name) := by
    induction entries with
    | nil => exact List.Sublist.refl _
    | cons entry entries ih =>
        have hrest := ih (List.nodup_cons.1 h).2
        cases entry with
        | file name content => exact hrest.cons_cons name
        | directory name inner => exact hrest.cons name
        | closedDirectory name => exact hrest.cons name
  exact hsublist.nodup h

/-- The source files of a directory are in the order of their names. -/
lemma pairwise_sourceFilesOf (directory : Text) (h : (entries.map Entry.name).Nodup) :
    (sourceFilesOf extensions skips ⟨directory, files entries⟩).Pairwise fun f g =>
      f.name ≠ g.name ∧ precedes f.name g.name = true := by
  have hname {named : Text × Content} {file : SourceFile}
      (hfile : (if isWanted extensions named.1 && !skips (entryOf directory named.1) then
        some (⟨entryOf directory named.1, named.1, named.2⟩ : SourceFile) else none) = some file) :
      file.name = named.1 := by
    split at hfile
    · rw [← Option.some.inj hfile]
    · contradiction
  rw [sourceFilesOf, List.pairwise_filterMap]
  refine (pairwise_byName_strict (nodup_files h)).imp ?_
  intro a b hab f hf g hg
  rw [hname hf, hname hg]
  exact hab

/-- The names of a file in a directory that some names lead to. -/
lemma splitSlash_of_mem_sourceFilesOf (hnames : ∀ name ∈ names, IsName name)
    (hentries : ∀ entry ∈ entries, IsName entry.name)
    (hfile : file ∈ sourceFilesOf extensions skips ⟨joinSlash names, files entries⟩) :
    splitSlash file.path = names ++ [file.name] := by
  obtain ⟨hmem, hpath, -⟩ := mem_sourceFilesOf_iff.1 hfile
  have hname : IsName file.name := hentries _ hmem
  rw [hpath, entryOf_joinSlash hnames]
  refine splitSlash_joinSlash_of_isName (by simp) ?_
  exact List.forall_mem_append.2 ⟨hnames, by simpa using hname⟩

/-- The files below a directory have its names in front. -/
lemma exists_of_mem_sources (hwell : WellNamed entries) (hnames : ∀ name ∈ names, IsName name)
    (hfile : file ∈ sourcesFrom extensions skips (joinSlash names) entries) :
    ∃ name rest, splitSlash file.path = names ++ name :: rest := by
  induction hwell generalizing names with
  | @intro entries hentries hdistinct hinner ih =>
    obtain ⟨stop, hstop, hfile⟩ := List.mem_flatMap.1 hfile
    rcases mem_walkFrom_iff.1 hstop with rfl | ⟨entry, hentry, hstop⟩
    · exact ⟨file.name, [], splitSlash_of_mem_sourceFilesOf hnames hentries hfile⟩
    · obtain ⟨name, inner, rfl, -, hstop⟩ := mem_stops_iff.1 hstop
      rw [entryOf_joinSlash hnames] at hstop
      have hname : IsName name := hentries _ hentry
      obtain ⟨second, rest, hpath⟩ := ih name inner hentry
        (List.forall_mem_append.2 ⟨hnames, by simpa using hname⟩)
        (List.mem_flatMap.2 ⟨stop, hstop, hfile⟩)
      exact ⟨name, second :: rest, by simpa using hpath⟩

/-- The files in the block of an entry lie deeper than the entry. -/
lemma exists_of_mem_block (hwell : WellNamed entries) (hnames : ∀ name ∈ names, IsName name)
    {block : Text × List Stop} (hblock : block ∈ byName (blocks skips (joinSlash names) entries))
    (hfile : file ∈ block.2.flatMap (sourceFilesOf extensions skips)) :
    ∃ second rest, splitSlash file.path = names ++ block.1 :: second :: rest := by
  obtain ⟨hentries, -, hinner⟩ := hwell
  rw [mem_byName, blocks_eq_map] at hblock
  obtain ⟨entry, hentry, rfl⟩ := List.mem_map.1 hblock
  obtain ⟨stop, hstop, hof⟩ := List.mem_flatMap.1 hfile
  obtain ⟨name, inner, rfl, -, hinside⟩ := mem_stops_iff.1 hstop
  rw [entryOf_joinSlash hnames] at hinside
  have hname : IsName name := hentries _ hentry
  obtain ⟨second, rest, hpath⟩ := exists_of_mem_sources (hinner name inner hentry)
    (List.forall_mem_append.2 ⟨hnames, by simpa using hname⟩)
    (List.mem_flatMap.2 ⟨stop, hinside, hof⟩)
  exact ⟨second, rest, by simpa [Entry.name] using hpath⟩

/-- **The order**: the source files below a directory come in the order of their paths. -/
lemma pairwise_sources (hwell : WellNamed entries) (hnames : ∀ name ∈ names, IsName name) :
    (sourcesFrom extensions skips (joinSlash names) entries).Pairwise fun f g =>
      ComesBefore (splitSlash f.path) (splitSlash g.path) := by
  induction hwell generalizing names with
  | @intro entries hentries hdistinct hinner ih =>
    have hwell : WellNamed entries := .intro hentries hdistinct hinner
    have hblocks : ((blocks skips (joinSlash names) entries).map Prod.fst).Nodup := by
      rw [blocks_eq_map, List.map_map]
      exact hdistinct
    rw [sourcesFrom_eq, List.pairwise_append]
    refine ⟨?files, List.pairwise_flatMap.2 ⟨?block, ?blocks⟩, ?filesFirst⟩
    case files =>
      refine (pairwise_sourceFilesOf _ hdistinct).imp_of_mem ?_
      rintro f g hf hg ⟨hne, hfg⟩
      rw [splitSlash_of_mem_sourceFilesOf hnames hentries hf,
        splitSlash_of_mem_sourceFilesOf hnames hentries hg]
      exact (ComesBefore.files hne hfg).append names
    case block =>
      intro block hblock
      rw [mem_byName, blocks_eq_map] at hblock
      obtain ⟨entry, hentry, rfl⟩ := List.mem_map.1 hblock
      cases entry with
      | file name content => exact List.Pairwise.nil
      | closedDirectory name => exact List.Pairwise.nil
      | directory name inner =>
          have hname : IsName name := hentries _ hentry
          dsimp only
          rw [stops_directory]
          split
          · exact List.Pairwise.nil
          · rw [entryOf_joinSlash hnames]
            exact ih name inner hentry (List.forall_mem_append.2 ⟨hnames, by simpa using hname⟩)
    case blocks =>
      refine (pairwise_byName_strict hblocks).imp_of_mem ?_
      rintro a b ha hb ⟨hne, hab⟩ f hf g hg
      obtain ⟨c, p, hf⟩ := exists_of_mem_block hwell hnames ha hf
      obtain ⟨d, q, hg⟩ := exists_of_mem_block hwell hnames hb hg
      rw [hf, hg]
      exact (ComesBefore.directories hne hab c d p q).append names
    case filesFirst =>
      intro f hf g hg
      obtain ⟨block, hblock, hg⟩ := List.mem_flatMap.1 hg
      obtain ⟨second, rest, hg⟩ := exists_of_mem_block hwell hnames hblock hg
      rw [splitSlash_of_mem_sourceFilesOf hnames hentries hf, hg]
      exact (ComesBefore.fileFirst f.name block.1 second rest).append names

/-- **The source files of a project** come in the order of their paths. -/
theorem pairwise_sourceFiles (extensions : List Text) (skips : Text → Bool)
    (h : WellNamed entries) :
    ((sourceFiles extensions skips entries).map (·.path)).Pairwise fun p q =>
      ComesBefore (splitSlash p) (splitSlash q) := by
  have hnames : ∀ name ∈ ([] : List Text), IsName name := by simp
  rw [List.pairwise_map, sourceFiles_eq_sourcesFrom]
  exact pairwise_sources h hnames

/-- No path comes twice. -/
lemma nodup_paths (extensions : List Text) (skips : Text → Bool) (h : WellNamed entries) :
    ((sourceFiles extensions skips entries).map (·.path)).Nodup :=
  (pairwise_sourceFiles extensions skips h).imp fun hpq heq => hpq.ne (by rw [heq])

end

end Project

end GeneratedCode
