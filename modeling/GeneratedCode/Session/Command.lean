import GeneratedCode.Cache.Settings
import GeneratedCode.Disk
import GeneratedCode.Project.Report

/-!
Commands: what a host may ask of a session, and what it is answered.

Trees, caches, tokens and tables that are put aside go by names. A cache without a name is the one
that is shared by the whole process.
-/

namespace GeneratedCode

namespace Session

open Cache Project

/-- What can cancel a call. -/
inductive Limit where
  | unlimited
  /-- A token of that name. -/
  | token (name : String)
  /-- A token that fires behind that many checks. -/
  | checks (allowed : Nat)
  deriving DecidableEq, Repr

/-- How a new cache gets its slot. -/
inductive SlotChoice where
  /-- The slot of another cache. -/
  | share (cache : Option String)
  /-- A slot of the mode of that name. -/
  | mode (name : Text) (maxEntries : Int)
  /-- A slot with that bound, which full collections may empty. -/
  | bound (maxEntries : Int) (dropsOnCollection : Bool)
  deriving Repr

/-- By which rules the source files of a project are chosen. -/
inductive RulesChoice where
  /-- The rules of the project, with or without those of the directories in it. -/
  | own (nested : Bool)
  /-- Those of the lines given. -/
  | lines (lines : List Text)
  deriving Repr

/-- What a host may ask. -/
inductive Command where
  /-- Makes a tree. -/
  | tree (name : String) (path : Text) (source : Source) (pinned : Bool)
  /-- Makes a tree of the host's, whose root fires the token of that name. -/
  | hostTree (name : String) (path : Text) (tree : HostTree) (fires : Option String)
      (pinned : Bool)
  /-- Lets go of a tree. -/
  | drop (name : String)
  /-- The root of a tree. -/
  | root (tree : String) (limit : Limit)
  /-- Whether a tree gives the same root twice. -/
  | sameRoot (tree : String)
  /-- Whether the comments of a tree carry a marker. -/
  | marker (tree : String) (limit : Limit)
  /-- How often a tree of the host's was asked for its root. -/
  | rootCalls (tree : String)
  /-- Makes a token; one that had the name before goes on without it. -/
  | newToken (name : String)
  | cancel (token : String)
  /-- Makes one check. -/
  | check (limit : Limit)
  | newCache (name : String) (choice : SlotChoice) (classifier : Classifier)
  | dropCache (name : String)
  /-- Whether a tree is generated code. -/
  | generated (tree : String) (cache : Option String) (limit : Limit)
  /-- The answer that a cache keeps. -/
  | lookup (tree : String) (cache : Option String)
  /-- The table of a cache. -/
  | state (cache : Option String)
  | clear (cache : Option String)
  /-- Puts the table of a cache aside. -/
  | snapshot (cache : Option String) (name : String)
  /-- Puts a table that was put aside into a cache. -/
  | restore (cache : Option String) (name : String)
  /-- Makes the next table of one that was put aside, and puts it aside. -/
  | withEntry (base : Option String) (name tree : String) (generated : Bool) (maxEntries : Int)
  | setMax (cache : Option String) (maxEntries : Int)
  /-- Runs a collection. -/
  | collect (generation : Int)
  /-- How many slots wait for collections. -/
  | hooks
  | setEnvironment (environment : Environment)
  /-- Forgets the shared cache, so that it is set up anew. -/
  | resetShared
  | write (path : Text) (item : Item)
  | delete (path : Text)
  /-- The report of a project. -/
  | report (project : Text) (extensions : List Text) (cache : Option String) (limit : Limit)
  /-- The source files of a project. -/
  | sourceFiles (project : Text) (extensions : List Text) (choice : RulesChoice)
  /-- The ignore rules of a project, and which of some paths they ignore. -/
  | rules (project : Text) (nested : Bool) (paths : List Text)

/-- An entry of a table as a host sees it: the name of its tree, if that lives, and the answer. -/
structure Row where
  tree : Option String
  generated : Bool
  deriving DecidableEq, Repr

/-- What a command answers, if it succeeds. -/
inductive Said where
  | nothing
  | truth (value : Option Bool)
  | count (value : Nat)
  | root (root : Option Root)
  | slot (slot : Slot)
  | state (live drops : Nat)
  | next (table base : List Row)
  | report (report : Report)
  | paths (paths : List Text)
  | rules (lines : List Text) (ignored : List Bool)

/-- The answer to a command. -/
structure Answer where
  said : Said := .nothing
  failure : Option Failure := none
  /-- Whether the token of a check was cancelled before it. -/
  requested : Option Bool := none
  /-- The table of the cache afterwards, if the command shows it; a slot may have none. -/
  table : Option (Option (List Row)) := none
  /-- How many entries of the cache are for living trees, if the command tells. -/
  live : Option Nat := none
  /-- How many checks were made. -/
  checks : Nat := 0
  /-- What was told to the log. -/
  events : List Event := []

end Session

end GeneratedCode
