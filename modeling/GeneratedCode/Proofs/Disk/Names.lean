import Mathlib.Tactic
import GeneratedCode.Disk
import GeneratedCode.Proofs.Project.Walk

/-!
Names on a disk.

In every directory of a disk each node has a name, and no two nodes have the same
(`Disk.WellNamed`). Whatever is written to a disk or deleted from it, this stays so
(`wellNamed_write`, `wellNamed_delete`), and the directories that a path leads to are so too
(`wellNamed_of_nodeAt`). A scan sees the names as they are (`wellNamed_entries`).
-/

namespace GeneratedCode

namespace Path

/-- The names of a path are names. -/
lemma isName_of_mem_names {path name : Text} (h : name ∈ names path) : IsName name := by
  obtain ⟨hmem, hne⟩ := List.mem_filter.1 h
  rw [Bool.and_eq_true, decide_eq_true_eq] at hne
  exact ⟨hne.1, notMem_of_mem_splitSlash hmem⟩

end Path

open GeneratedCode.Path

namespace Node

/-- Nodes as a directory can hold them, in which all directories are so too: each has a name, and no
two have the same. -/
inductive WellNamed : List Node → Prop where
  | intro {nodes : List Node} (hnames : ∀ node ∈ nodes, IsName node.name)
      (hdistinct : (nodes.map Node.name).Nodup)
      (hinner : ∀ name inner, .directory name inner ∈ nodes → WellNamed inner) :
      WellNamed nodes

lemma wellNamed_nil : WellNamed [] :=
  .intro (by simp) (by simp) (by simp)

variable {nodes : List Node}

lemma WellNamed.inner (h : WellNamed nodes) {name : Text} {inner : List Node}
    (hmem : .directory name inner ∈ nodes) : WellNamed inner := by
  obtain ⟨-, -, hinner⟩ := h
  exact hinner name inner hmem

/-- A change of some nodes that keeps their names, and what is in them well named. -/
lemma WellNamed.map {f : Node → Node} (h : WellNamed nodes)
    (hname : ∀ node, (f node).name = node.name)
    (hinner : ∀ node ∈ nodes, ∀ name inner, f node = .directory name inner → WellNamed inner) :
    WellNamed (nodes.map f) := by
  obtain ⟨hnames, hdistinct, -⟩ := h
  refine .intro ?_ ?_ ?_
  · intro other hother
    obtain ⟨node, hnode, rfl⟩ := List.mem_map.1 hother
    rw [hname]
    exact hnames node hnode
  · rw [List.map_map, show Node.name ∘ f = Node.name from funext hname]
    exact hdistinct
  · intro name inner hmem
    obtain ⟨node, hnode, heq⟩ := List.mem_map.1 hmem
    exact hinner node hnode name inner heq

lemma WellNamed.filter (h : WellNamed nodes) (p : Node → Bool) :
    WellNamed (nodes.filter p) := by
  obtain ⟨hnames, hdistinct, hinner⟩ := h
  refine .intro ?_ ?_ ?_
  · exact fun node hnode => hnames node (List.mem_of_mem_filter hnode)
  · exact (List.filter_sublist.map Node.name).nodup hdistinct
  · exact fun name inner hmem => hinner name inner (List.mem_of_mem_filter hmem)

/-- A change in the directory of a name. -/
lemma WellNamed.change {g : List Node → List Node} (h : WellNamed nodes) (name : Text)
    (hg : ∀ inner, WellNamed inner → WellNamed (g inner)) :
    WellNamed (nodes.map fun
      | .directory other inner =>
          if other = name then .directory other (g inner) else .directory other inner
      | other => other) := by
  refine h.map (fun node => ?_) fun node hnode other inner heq => ?_
  · cases node with
    | directory other inner => dsimp only; split <;> rfl
    | file => rfl
    | link => rfl
  · cases node with
    | directory first nodes =>
        have hnodes := h.inner hnode
        dsimp only at heq
        split at heq
        · obtain ⟨-, rfl⟩ := Node.directory.inj heq
          exact hg nodes hnodes
        · obtain ⟨-, rfl⟩ := Node.directory.inj heq
          exact hnodes
    | file => contradiction
    | link => contradiction

end Node

namespace Disk

open Node (wellNamed_nil)

/-- A disk whose nodes are well named. -/
def WellNamed (disk : Disk) : Prop :=
  Node.WellNamed disk.nodes

/-! ### Where a path leads -/

variable {disk : Disk} {top nodes : List Node}

lemma wellNamed_of_node? (h : Node.WellNamed top) {names : List Text} {name : Text}
    (hnode : node? top names = some (.directory name nodes)) : Node.WellNamed nodes := by
  fun_induction node? top names with
  | case1 top =>
      obtain ⟨-, rfl⟩ := Node.directory.inj (Option.some.inj hnode)
      exact h
  | case2 => contradiction
  | case3 top first names other inner hfind hempty =>
      obtain ⟨-, rfl⟩ := Node.directory.inj (Option.some.inj hnode)
      exact h.inner (List.mem_of_find?_eq_some hfind)
  | case4 top first names other inner hfind hempty ih =>
      exact ih (h.inner (List.mem_of_find?_eq_some hfind)) hnode
  | case5 top first names node hnot hfind =>
      obtain rfl := Option.some.inj hnode
      exact absurd rfl (hnot name nodes)
  | case6 => contradiction

/-- What a path leads to is well named if the disk is. -/
lemma wellNamed_of_nodeAt (h : WellNamed disk) {start : Place} {names : List Text} {name : Text}
    (hnode : nodeAt disk start names = .ok (.directory name nodes)) : Node.WellNamed nodes := by
  have hplace (place : Place) (hplace : place.node? disk.nodes = some (.directory name nodes)) :
      Node.WellNamed nodes := by
    cases place with
    | inside names => exact wellNamed_of_node? h hplace
    | above =>
        obtain ⟨-, rfl⟩ := Node.directory.inj (Option.some.inj hplace)
        exact wellNamed_nil
  simp only [nodeAt, bind, Except.bind] at hnode
  split at hnode
  · contradiction
  · split at hnode
    · contradiction
    · next place _ =>
        split at hnode
        · next node hfound =>
            obtain rfl := Except.ok.inj hnode
            exact hplace place hfound
        · contradiction

lemma nodeAt_of_short {start : Place} {names : List Text}
    (h : disk.isTooLong start names = false) :
    nodeAt disk start names =
      match follow disk.nodes maxLinks start names with
      | .ok place => (place.node? disk.nodes).elim (.error .notFound) .ok
      | .error why => .error why := by
  rw [nodeAt, h]
  cases hfollow : follow disk.nodes maxLinks start names with
  | error why => rfl
  | ok place =>
      cases hnode : place.node? disk.nodes <;> simp [bind, Except.bind, hnode]
      all_goals rfl

/-- The empty path leads to the top, unless that lies too deep. -/
lemma find_nil (h : disk.isTooLong (.inside []) [] = false) :
    disk.find [] = .ok (.directory [] disk.nodes) := by
  have hnames : names [] = [] := rfl
  have hstart : startOf [] = .inside [] := rfl
  rw [find, hnames, hstart, nodeAt_of_short h, follow]
  rfl

/-! ### What a scan sees -/

lemma entries_eq_map (disk : Disk) (names : List Text) (nodes : List Node) :
    entries disk names nodes = nodes.map (entry disk names) := by
  induction nodes with
  | nil => rw [entries]; rfl
  | cons node nodes ih => rw [entries, ih]; rfl

lemma listing_eq {path name : Text} (h : disk.find path = .ok (.directory name nodes)) :
    disk.listing path = entries disk (names path) nodes := by
  rw [listing, h]

/-- An entry has the name of its node. -/
lemma name_entry (disk : Disk) (names : List Text) (node : Node) :
    (entry disk names node).name = node.name := by
  cases node with
  | file name content => rw [entry]; rfl
  | directory name inner => rw [entry]; split <;> rfl
  | link name target => rw [entry]; split <;> rfl

/-- A directory that a scan looks into is one on the disk, and its path is short enough. -/
lemma entry_eq_directory_iff {names : List Text} {node : Node} {name : Text}
    {inner : List Project.Entry} :
    entry disk names node = .directory name inner ↔
      ∃ nodes, node = .directory name nodes ∧
        disk.isTooLong (.inside []) (names ++ [name]) = false ∧
        inner = entries disk (names ++ [name]) nodes := by
  cases node with
  | file other content => simp [entry]
  | directory other nodes =>
      rw [entry]
      constructor
      · intro h
        split at h
        · contradiction
        · next hshort =>
            obtain ⟨rfl, rfl⟩ := Project.Entry.directory.inj h
            exact ⟨nodes, rfl, by simpa using hshort, rfl⟩
      · rintro ⟨_, heq, hshort, rfl⟩
        obtain ⟨rfl, rfl⟩ := Node.directory.inj heq
        rw [hshort]
        rfl
  | link other target =>
      rw [entry]
      split <;> simp

/-- A scan sees well named entries. -/
lemma wellNamed_entries (h : Node.WellNamed nodes) (names : List Text) :
    Project.WellNamed (entries disk names nodes) := by
  induction h generalizing names with
  | @intro nodes hnames hdistinct hinner ih =>
    rw [entries_eq_map]
    refine .intro ?_ ?_ ?_
    · intro other hother
      obtain ⟨node, hnode, rfl⟩ := List.mem_map.1 hother
      rw [name_entry]
      exact hnames node hnode
    · have hsame : Project.Entry.name ∘ entry disk names = Node.name :=
        funext fun node => name_entry disk names node
      rw [List.map_map, hsame]
      exact hdistinct
    · intro name inner hmem
      obtain ⟨node, hnode, heq⟩ := List.mem_map.1 hmem
      obtain ⟨nodes, rfl, -, rfl⟩ := entry_eq_directory_iff.1 heq
      exact ih name nodes hnode _

/-! ### Writing and deleting -/

lemma wellNamed_put {node : Node} (hname : IsName node.name)
    (hnode : ∀ name inner, node = .directory name inner → Node.WellNamed inner) (names : List Text)
    (h : Node.WellNamed nodes) : Node.WellNamed (put node names nodes) := by
  induction names generalizing nodes with
  | nil =>
      obtain ⟨hnames, hdistinct, hinner⟩ := h.filter (·.name ≠ node.name)
      rw [put]
      refine .intro ?_ ?_ ?_
      · exact List.forall_mem_append.2 ⟨hnames, by simpa using hname⟩
      · rw [List.map_append, List.nodup_append]
        refine ⟨hdistinct, by simp, ?_⟩
        rintro other hother last hlast rfl
        obtain ⟨old, hold, rfl⟩ := List.mem_map.1 hother
        simp_all
      · intro name inner hmem
        rcases List.mem_append.1 hmem with hmem | hmem
        · exact hinner name inner hmem
        · exact hnode name inner (List.mem_singleton.1 hmem).symm
  | cons name names ih => exact h.change name fun inner hinner => ih hinner

lemma wellNamed_takeOut (name : Text) (names : List Text) (h : Node.WellNamed nodes) :
    Node.WellNamed (takeOut name names nodes) := by
  induction names generalizing nodes with
  | nil => exact h.filter _
  | cons first names ih => exact h.change first fun inner hinner => ih hinner

lemma wellNamed_makeDirectories {here names place : List Text} {after : List Node}
    (h : Node.WellNamed top) (hnames : ∀ name ∈ names, IsName name)
    (hmade : makeDirectories top here names = some (after, place)) : Node.WellNamed after := by
  fun_induction makeDirectories top here names with
  | case1 top here =>
      obtain ⟨rfl, -⟩ := Prod.mk.inj (Option.some.inj hmade)
      exact h
  | case2 top here name names found _ ih =>
      exact ih h (fun other hother => hnames other (by simp [hother])) hmade
  | case3 => contradiction
  | case4 top here name names _ _ ih =>
      refine ih ?_ (fun other hother => hnames other (by simp [hother])) hmade
      have hname : IsName (Node.directory name []).name := hnames name (by simp)
      refine wellNamed_put hname (fun other inner heq => ?_) here h
      obtain ⟨-, rfl⟩ := Node.directory.inj heq
      exact wellNamed_nil

lemma wellNamed_writeFile {content : Except Refusal OpenFile} {links : ℕ} {here : List Text}
    {name : Text} (h : Node.WellNamed top) (hname : IsName name) :
    Node.WellNamed (writeFile top content links here name) := by
  fun_induction writeFile top content links here name with
  | case1 => exact h
  | case2 => exact h
  | case3 here name old target _ links names last place hlast hplace ih =>
      exact ih (isName_of_mem_names (List.mem_of_getLast? hplace))
  | case4 => exact h
  | case5 links here name =>
      have hfile : IsName (Node.file name content).name := hname
      exact wellNamed_put hfile (by simp) here h

/-- Writing keeps a disk well named. -/
theorem wellNamed_write (h : disk.WellNamed) (path : Text) (item : Item) :
    (disk.write path item).WellNamed := by
  rw [write]
  split
  · next name after here hlast hmade =>
      have hname : IsName name := isName_of_mem_names (List.mem_of_getLast? hlast)
      have hafter : Node.WellNamed after := by
        refine wellNamed_makeDirectories h (fun other hother => ?_) hmade
        exact isName_of_mem_names (List.mem_of_mem_dropLast hother)
      cases item with
      | link target =>
          have hlink : IsName (Node.link name target).name := hname
          exact wellNamed_put hlink (by simp) here hafter
      | file content => exact wellNamed_writeFile hafter hname
      | directory =>
          dsimp only
          split
          · exact hafter
          · have hdirectory : IsName (Node.directory name []).name := hname
            refine wellNamed_put hdirectory (fun other inner heq => ?_) here hafter
            obtain ⟨-, rfl⟩ := Node.directory.inj heq
            exact wellNamed_nil
  · exact h

/-- Deleting keeps a disk well named. -/
theorem wellNamed_delete (h : disk.WellNamed) (path : Text) : (disk.delete path).WellNamed := by
  rw [delete]
  split
  · exact wellNamed_takeOut _ _ h
  · exact h

end Disk

end GeneratedCode
