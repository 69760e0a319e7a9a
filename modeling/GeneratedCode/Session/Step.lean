import GeneratedCode.Session.World

/-!
Steps: a session carries out a command and answers it.

A failure is part of the answer; the session goes on with whatever the command has done before it
failed (`step`).
-/

namespace GeneratedCode

namespace Session

open Cache Project

/-- What is said of an outcome. -/
def Answer.ofOutcome {α : Type} (say : α → Said) : Except Failure α → Answer
  | .ok a => { said := say a }
  | .error failure => { failure := some failure }

namespace World

/-- What is on the disk. A path with a NUL leads nowhere, not even to a file that is missing. -/
def reader (world : World) : Reader := fun path =>
  if Path.hasNul path then .error .nulInPath
  else (world.disk.read path).mapError .cannotRead

/-- Visits a tree by its name, and remembers what the visit leaves of it. -/
def visit {α : Type} (world : World) (name : String) (limit : Limit)
    (x : Attempt (Visit Tree) α) (say : α → Said) : Answer × World :=
  match world.trees.lookup name with
  | none => ({}, world)
  | some (handle, tree) =>
      let (result, after) := x.outcome ⟨tree, world.call limit⟩
      let world := { world with trees := bind name (handle, after.tree) world.trees }
      ({ Answer.ofOutcome say result with checks := after.call.checks }, world.afterCall after.call)

/-- Asks a cache about a tree, and remembers what the inquiry leaves of both. -/
def inquire (world : World) (name : String) (cache : CacheRef) (limit : Limit) : Answer × World :=
  match world.trees.lookup name with
  | none => ({}, world)
  | some (handle, tree) =>
      let inquiry := Memory.isGenerated cache.slot handle tree.filePath cache.classifier.byName
        (cache.classifier.byComment world.reader)
      let (result, after) := inquiry.outcome ⟨world.memory, [], ⟨tree, world.call limit⟩⟩
      let world :=
        { world with
          trees := bind name (handle, after.inner.tree) world.trees
          memory := after.store }
      let world := world.afterCall after.inner.call
      ({ Answer.ofOutcome (fun b => .truth (some b)) result with
          table := some (world.tableRows cache)
          checks := after.inner.call.checks
          events := after.events.reverse },
        world)

/-- What a project holds, for its own ignore file to be looked for in it: that fails only if the
path of the file is too long, or that of something it leads to. A path that cannot be one leads to
nothing. -/
def entries (world : World) (project : Text) : Except Failure (List Project.Entry) :=
  if Path.hasNul project then .ok []
  else
    match world.disk.find (Path.entryOf project ownFile) with
    | .error .nameTooLong => .error (.cannotRead .nameTooLong)
    | _ => .ok (world.disk.listing project)

/-- Goes to a project for a walk, which needs a path that can be one. -/
def enter (project : Text) : Except Failure Unit :=
  if Path.hasNul project then .error .nulInPath else .ok ()

/-- Reports on a project, and remembers what the scan leaves of the cache. -/
def report (world : World) (project : Text) (extensions : List Text) (cache : CacheRef)
    (limit : Limit) : Answer × World :=
  let place := Path.joinSlash (Path.collapse (Path.names project))
  let scan : Attempt Scan Report := do
    let entries ← Attempt.ofExcept (world.entries project)
    Attempt.ofExcept (enter project)
    Project.report cache place extensions entries
  let (result, after) := scan.outcome ⟨world.memory, [], world.call limit⟩
  let world := ({ world with memory := after.store } : World).afterCall after.inner
  ({ Answer.ofOutcome .report result with
      live := some (world.liveEntries cache)
      checks := after.inner.checks
      events := after.events.reverse },
    world)

/-- Makes a cache, whose slot may be one that there is already. -/
def makeCache (world : World) (name : String) (choice : SlotChoice) (classifier : Classifier) :
    Answer × World :=
  let made (slot : Slot) : Answer × World :=
    ({ said := .slot slot }, world.addCache (some name) slot classifier)
  match choice with
  | .share other =>
      let (shared, world, events) := world.cache other
      let cache : CacheRef := ⟨shared.slot, classifier⟩
      ({ said := .slot (world.memory.slot shared.slot), events := events },
        ({ world with caches := bind name cache world.caches } : World).sweep)
  | .mode mode maxEntries =>
      match Slot.ofModeName mode maxEntries with
      | .ok slot => made slot
      | .error failure => ({ failure := some failure }, world)
  | .bound maxEntries drops => made { maxEntries := maxEntries, dropsOnCollection := drops }

/-- Makes the next table of one that was put aside, and puts it aside in turn. -/
def nextTable (world : World) (base : Option String) (name tree : String) (generated : Bool)
    (maxEntries : Int) : Answer × World :=
  match world.trees.lookup tree with
  | none => ({}, world)
  | some (handle, _) =>
      let table : Table := ((base.bind fun name => world.memory.aside.lookup name).join).getD []
      match table.withEntry world.memory.alive handle generated maxEntries with
      | .error failure => ({ failure := some failure }, world)
      | .ok next =>
          let memory := { world.memory with aside := bind name (some next) world.memory.aside }
          ({ said := .next (world.rows next) (world.rows table) }, { world with memory := memory })

/-- The source files of a project, by its own rules or by other ones. -/
def sourceFiles (world : World) (project : Text) (extensions : List Text)
    (choice : RulesChoice) : Answer :=
  let paths (rules : Ignore.Rules) (entries : List Project.Entry) : Said :=
    .paths ((Project.sourceFiles extensions rules.ignores entries).map (·.path))
  Answer.ofOutcome id <|
    match choice with
    | .lines lines => do
        let rules ← Ignore.Rules.ofLines lines
        enter project
        return paths rules (world.disk.listing project)
    | .own nested => do
        let entries ← world.entries project
        enter project
        return paths (← Project.rules entries nested) entries

/-- The rules of a project, and which paths they ignore. -/
def rules (world : World) (project : Text) (nested : Bool) (paths : List Text) : Answer :=
  Answer.ofOutcome id do
    let entries ← world.entries project
    if nested then enter project
    let rules ← Project.rules entries nested
    return .rules rules.lines (paths.map rules.ignores)

/-- Carries out a command that asks a cache of a name, or the shared one. -/
def withCache (world : World) (name : Option String)
    (act : World → CacheRef → Answer × World) : Answer × World :=
  let (cache, world, events) := world.cache name
  let (answer, world) := act world cache
  ({ answer with events := events ++ answer.events }, world)

/-- Whether a tree gives the same root when it is asked twice: one of the host's makes it anew. -/
def sameRoot (disk : Reader) : Attempt (Visit Tree) Bool := do
  let root ← Tree.getRoot disk
  let again ← Tree.getRoot disk
  match (← get).tree.source with
  | .host _ => return root.isNone && again.isNone
  | _ => return root == again

end World

open World

/-- Carries out a command. -/
def step (world : World) : Command → Answer × World
  | .tree name path source pinned =>
      ({}, world.addTree name { filePath := path, source := source } pinned)
  | .hostTree name path tree fires pinned =>
      let source := Source.host { tree with fires := fires.bind (world.tokens.lookup ·) }
      ({}, world.addTree name { filePath := path, source := source } pinned)
  | .drop name => ({}, world.dropTree name)
  | .root tree limit => world.visit tree limit (Tree.getRoot world.reader) .root
  | .sameRoot tree =>
      world.visit tree .unlimited (World.sameRoot world.reader) fun b => .truth (some b)
  | .marker tree limit =>
      world.visit tree limit (Marker.hasMarker (Tree.getRoot world.reader))
        fun b => .truth (some b)
  | .rootCalls tree =>
      world.visit tree .unlimited (do return (← get).tree.rootCalls) .count
  | .newToken name => ({}, world.addToken name)
  | .cancel token => ({}, world.cancel (world.tokens.lookup token).toList)
  | .check limit =>
      let (result, call) := GeneratedCode.check.outcome (world.call limit)
      ({ Answer.ofOutcome (fun _ => .nothing) result with
          requested := some (world.isCancelled limit)
          checks := call.checks },
        world)
  | .newCache name choice classifier => world.makeCache name choice classifier
  | .dropCache name =>
      ({}, ({ world with caches := unbind name world.caches } : World).sweep)
  | .generated tree cache limit =>
      world.withCache cache fun world cache => world.inquire tree cache limit
  | .lookup tree cache =>
      world.withCache cache fun world cache =>
        match world.trees.lookup tree with
        | none => ({}, world)
        | some (handle, _) =>
            ({ said := .truth ((world.memory.slot cache.slot).lookup? handle) }, world)
  | .state cache =>
      world.withCache cache fun world cache =>
        ({ said := .state (world.liveEntries cache) (world.memory.slot cache.slot).drops
           table := some (world.tableRows cache) }, world)
  | .clear cache =>
      world.withCache cache fun world cache => ({}, world.updateSlot cache Slot.clear)
  | .snapshot cache name =>
      world.withCache cache fun world cache =>
        let table := (world.memory.slot cache.slot).table
        let memory := { world.memory with aside := bind name table world.memory.aside }
        ({}, { world with memory := memory })
  | .restore cache name =>
      world.withCache cache fun world cache =>
        let table := (world.memory.aside.lookup name).join
        ({}, world.updateSlot cache fun slot => { slot with table := table })
  | .withEntry base name tree generated maxEntries =>
      world.nextTable base name tree generated maxEntries
  | .setMax cache maxEntries =>
      world.withCache cache fun world cache =>
        ({}, world.updateSlot cache fun slot => { slot with maxEntries := maxEntries })
  | .collect generation =>
      if 0 ≤ generation && generation ≤ fullGeneration then
        ({}, { world with memory := world.memory.collect generation })
      else ({ failure := some .unknownGeneration }, world)
  | .hooks => ({ said := .count world.memory.hooks }, world)
  | .setEnvironment environment => ({}, { world with environment := environment })
  | .resetShared => ({}, ({ world with shared := none } : World).sweep)
  | .write path item => ({}, { world with disk := world.disk.write path item })
  | .delete path => ({}, { world with disk := world.disk.delete path })
  | .report project extensions cache limit =>
      world.withCache cache fun world cache => world.report project extensions cache limit
  | .sourceFiles project extensions choice =>
      (world.sourceFiles project extensions choice, world)
  | .rules project nested paths => (world.rules project nested paths, world)

/-- Carries out commands one after another, and answers each. -/
def run (world : World) : List Command → List Answer × World
  | [] => ([], world)
  | command :: commands =>
      let (answer, world) := step world command
      let (answers, world) := run world commands
      (answer :: answers, world)

/-- The answers of a session that starts with nothing but a disk. -/
def answers (disk : Disk) (commands : List Command) : List Answer :=
  (run { disk := disk } commands).1

end Session

end GeneratedCode
