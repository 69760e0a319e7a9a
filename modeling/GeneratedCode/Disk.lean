import GeneratedCode.Path
import GeneratedCode.Project.Entry
import GeneratedCode.Text.Utf8

/-!
Disks: files, directories and links, and where a path leads.

A path is followed name by name from the top (`Disk.follow`). A link is replaced by its target,
which is a path from the directory that the link lies in; after `maxLinks` links a path is taken
to lead in a circle. A path may lead above the top, where there are directories of which nothing
is known but how long the path is that leads from there to the top. Neither a name nor a whole path
may be too long (`maxNameBytes`, `maxPathBytes`); the paths that links hold do not count to the
latter. A file may be refused, but every directory can be looked into. `Disk.listing` shows a
directory as a scan sees it, with all links followed.
-/

namespace GeneratedCode

/-! ### Nodes -/

/-- Something on a disk. -/
inductive Node where
  /-- A file, which may be refused when it is opened. -/
  | file (name : Text) (content : Except Refusal OpenFile)
  | link (name : Text) (target : Text)
  | directory (name : Text) (nodes : List Node)

/-- The name of a node. -/
def Node.name : Node → Text
  | file name _ => name
  | link name _ => name
  | directory name _ => name

/-- A disk: what lies at its top, and where the top lies. -/
structure Disk where
  /-- What lies at the top. -/
  nodes : List Node := []
  /-- How many bytes the path of the top has, from the root of the file system on. -/
  topBytes : Nat := 0

/-- What is to be put on a disk. -/
inductive Item where
  | file (content : Except Refusal OpenFile)
  | directory
  | link (target : Text)

namespace Disk

/-! ### Following a path -/

/-- How many links a path may lead through. -/
def maxLinks : Nat := 40

/-- How many bytes a name may have. -/
def maxNameBytes : Nat := 255

/-- How many bytes a path may have, from the root of the file system on. -/
def maxPathBytes : Nat := 4095

/-- The node at the end of a row of names, none of which is a link but perhaps the last. -/
def node? (top : List Node) : List Text → Option Node
  | [] => some (.directory [] top)
  | name :: names =>
      match top.find? (·.name = name) with
      | none => none
      | some (.directory name nodes) =>
          if names.isEmpty then some (.directory name nodes) else node? nodes names
      | some node => if names.isEmpty then some node else none

/-- Where a path leads. -/
inductive Place where
  /-- To the end of a row of names, none of which is a link. -/
  | inside (names : List Text)
  /-- Above the top. -/
  | above
  deriving DecidableEq, Repr

/-- The node at a place. -/
def Place.node? (top : List Node) : Place → Option Node
  | inside names => Disk.node? top names
  | above => some (.directory [] [])

/-- The directory that a directory lies in. -/
def Place.parent : Place → Place
  | inside [] => above
  | inside names => inside names.dropLast
  | above => above

/-- Why there is nothing of a name. -/
def absence (name : Text) : FileError :=
  if maxNameBytes < (Text.Utf8.encode name).length then .nameTooLong else .notFound

/-- Follows a path from a directory; where it leads is no link. -/
def follow (top : List Node) (links : Nat) (here : Place) :
    (path : List Text) → Except FileError Place
  | [] => .ok here
  | name :: rest =>
      if name = [] || name = ['.'] then follow top links here rest
      else if name = ['.', '.'] then follow top links here.parent rest
      else
        match here with
        | .above => .error (absence name)
        | .inside names =>
            match node? top (names ++ [name]) with
            | none => .error (absence name)
            | some (.directory _ _) => follow top links (.inside (names ++ [name])) rest
            | some (.file _ _) =>
                if rest.isEmpty then .ok (.inside (names ++ [name])) else .error .notDirectory
            | some (.link _ target) =>
                match links with
                | 0 => .error .linkLoop
                | links + 1 =>
                    let start := if target.head? = some '/' then .above else here
                    follow top links start (Path.splitSlash target ++ rest)
termination_by path => (links, path.length)

/-- Where a path starts: at the top of the disk, or outside if it says so. -/
def startOf (path : Text) : Place :=
  if path.head? = some '/' then .above else .inside []

/-- How many bytes a path has, from the root of the file system on. -/
def pathBytes (disk : Disk) (start : Place) (names : List Text) : Nat :=
  let inner := names.flatMap fun name => '/' :: name
  match start with
  | .inside _ => disk.topBytes + (Text.Utf8.encode inner).length
  | .above => (Text.Utf8.encode inner).length

/-- Whether a path is too long to be followed. -/
def isTooLong (disk : Disk) (start : Place) (names : List Text) : Bool :=
  maxPathBytes < disk.pathBytes start names

/-- The node that a row of names leads to. -/
def nodeAt (disk : Disk) (start : Place) (names : List Text) : Except FileError Node := do
  if disk.isTooLong start names then throw .nameTooLong
  let place ← follow disk.nodes maxLinks start names
  match place.node? disk.nodes with
  | some node => return node
  | none => throw .notFound

/-! ### Reading -/

/-- What a path leads to. Only its names count. -/
def find (disk : Disk) (path : Text) : Except FileError Node :=
  nodeAt disk (startOf path) (Path.names path)

/-- What opening a file gives. -/
def read (disk : Disk) (path : Text) : Content := do
  match ← disk.find path with
  | .file _ content => content.mapError .refused
  | .directory _ _ => throw .isDirectory
  | .link _ _ => throw .linkLoop

mutual

/-- A node of a directory as a scan sees it, which came there by the path `names` and goes on by
it: the links on the way count too. What has too long a path is known by its name alone. -/
def entry (disk : Disk) (names : List Text) : Node → Project.Entry
  | .file name content =>
      .file name (if disk.isTooLong (.inside []) (names ++ [name]) then .error .nameTooLong
        else content.mapError .refused)
  | .directory name nodes =>
      if disk.isTooLong (.inside []) (names ++ [name]) then .closedDirectory name
      else .directory name (entries disk (names ++ [name]) nodes)
  | .link name _ =>
      match nodeAt disk (.inside []) (names ++ [name]) with
      | .ok (.file _ content) => .file name (content.mapError .refused)
      | .ok (.directory _ _) => .closedDirectory name
      | .ok (.link _ _) => .file name (.error .linkLoop)
      | .error why => .file name (.error why)

/-- The nodes of a directory as a scan sees them, which came there by the path `names`. -/
def entries (disk : Disk) (names : List Text) : List Node → List Project.Entry
  | [] => []
  | node :: nodes => entry disk names node :: entries disk names nodes

end

/-- The directory at the end of a path, as a scan sees it. One that is not there, or is a file, is
empty. -/
def listing (disk : Disk) (path : Text) : List Project.Entry :=
  match disk.find path with
  | .ok (.directory _ nodes) => entries disk (Path.names path) nodes
  | _ => []

/-! ### Writing -/

/-- Puts a node into the directory at the end of a row of names, in the place of the one of its
name if there is one. -/
def put (node : Node) : List Text → List Node → List Node
  | [], nodes => nodes.filter (·.name ≠ node.name) ++ [node]
  | name :: names, nodes =>
      nodes.map fun
        | .directory other inner =>
            if other = name then .directory other (put node names inner)
            else .directory other inner
        | other => other

/-- Takes the node of a name out of the directory at the end of a row of names. -/
def takeOut (name : Text) : List Text → List Node → List Node
  | [], nodes => nodes.filter (·.name ≠ name)
  | first :: names, nodes =>
      nodes.map fun
        | .directory other inner =>
            if other = first then .directory other (takeOut name names inner)
            else .directory other inner
        | other => other

/-- The directory at the end of a row of names from the directory `here`. -/
def directory? (top : List Node) (here names : List Text) : Option (List Text) :=
  match follow top maxLinks (.inside here) names with
  | .ok (.inside place) =>
      match node? top place with
      | some (.directory _ _) => some place
      | _ => none
  | _ => none

/-- Makes the directories of a path that are missing; with what then lies at the top comes where the
path leads. -/
def makeDirectories (top : List Node) (here : List Text) :
    List Text → Option (List Node × List Text)
  | [] => some (top, here)
  | name :: names =>
      match directory? top here [name] with
      | some place => makeDirectories top place names
      | none =>
          match node? top (here ++ [name]) with
          | some _ => none
          | none => makeDirectories (put (.directory name []) here top) (here ++ [name]) names

/-- Puts a file into the directory `here`; one that is written through links lies where they lead.
-/
def writeFile (top : List Node) (content : Except Refusal OpenFile) (links : Nat)
    (here : List Text) (name : Text) : List Node :=
  match node? top (here ++ [name]) with
  | some (.directory _ _) => top
  | some (.link _ target) =>
      match links with
      | 0 => top
      | links + 1 =>
          let names := Path.names target
          match names.getLast?, directory? top here names.dropLast with
          | some last, some place => writeFile top content links place last
          | _, _ => top
  | _ => put (.file name content) here top

/-- Puts something at the end of a path, and makes the directories that lead there. -/
def write (disk : Disk) (path : Text) (item : Item) : Disk :=
  let names := Path.names path
  match names.getLast?, makeDirectories disk.nodes [] names.dropLast with
  | some name, some (top, here) =>
      match item with
      | .link target => { disk with nodes := put (.link name target) here top }
      | .file content => { disk with nodes := writeFile top content maxLinks here name }
      | .directory =>
          if (node? top (here ++ [name])).isSome then { disk with nodes := top }
          else { disk with nodes := put (.directory name []) here top }
  | _, _ => disk

/-- Takes away what lies at the end of a path, a directory with all that it holds. -/
def delete (disk : Disk) (path : Text) : Disk :=
  let names := Path.names path
  match names.getLast?, directory? disk.nodes [] names.dropLast with
  | some name, some here => { disk with nodes := takeOut name here disk.nodes }
  | _, _ => disk

end Disk

end GeneratedCode
