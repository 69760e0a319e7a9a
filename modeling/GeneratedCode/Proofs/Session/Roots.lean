import Mathlib.Tactic
import GeneratedCode.Proofs.Memory.Serials
import GeneratedCode.Proofs.Session.Advances

/-!
The root of a tree is found at once or not at all, and found only once.

The invariant of a run is `World.Coherent`: no two names share a tree, and what is kept for a tree
that is read is what the tree says of itself (`Tree.settled?`). Nothing is said about files, which
may change at any time. `root_is_fixed` is the main result. It has three ingredients:

* one turn lets a tree take on the root of its source, or leaves it alone (`World.Advances`);
* so does a whole run (`later_of_reaches`), and a root was taken on at one of its turns
  (`exists_origin`);
* what is said of a tree is settled by then (`settled?_of_generated`, `marker?_of_marker`).
-/

namespace GeneratedCode

open Cache

namespace Session

variable {world after last : World} {name : String} {handle : Handle} {tree : Tree}

/-! ### Coherent worlds -/

/-- A world in which a tree that is read is never said to be something else than what it says of
itself. -/
structure World.Coherent (world : World) : Prop where
  usual : world.HasUsualTests
  serials : ∀ {name handle tree}, world.trees.lookup name = some (handle, tree) →
    handle.serial < world.memory.nextSerial
  distinct : ∀ {name handle tree other found last}, world.trees.lookup name = some (handle, tree) →
    world.trees.lookup other = some (found, last) → handle.serial = found.serial → name = other
  rootCalls : ∀ {name handle tree}, world.trees.lookup name = some (handle, tree) →
    tree.source.IsRead → tree.rootCalls = 0
  numbered : world.memory.Numbered
  entries : ∀ table ∈ world.memory.tables, ∀ entry ∈ table, ∀ {name handle tree},
    world.trees.lookup name = some (handle, tree) → handle.serial = entry.tree.serial →
      tree.source.IsRead → tree.settled? = some entry.generated

/-- Nothing is kept in a new world. -/
lemma coherent_start (disk : Disk) (environment : Environment) :
    ({ disk := disk, environment := environment } : World).Coherent where
  usual := ⟨fun cache hcache => by contradiction, fun cache hcache => by contradiction⟩
  serials htree := by contradiction
  distinct htree := by contradiction
  rootCalls htree := by contradiction
  numbered table htable := by contradiction
  entries table htable := by contradiction

/-- A tree that there was before a turn has grown in it at most. -/
lemma World.Advances.exists_old (h : world.Advances after)
    (htree : after.trees.lookup name = some (handle, tree))
    (hserial : handle.serial < world.memory.nextSerial) :
    ∃ old, world.trees.lookup name = some (handle, old) ∧ old.Grows world.reader tree := by
  obtain ⟨made, htrees⟩ := h.trees
  rcases htrees name handle tree htree with hold | ⟨-, hnew, -⟩
  · exact hold
  · omega

/-- Only one tree is made in a turn, so serial numbers stay apart. -/
lemma World.Coherent.distinct_advance (h : world.Coherent) (hadvance : world.Advances after)
    {other : String} {found : Handle} {last : Tree}
    (htree : after.trees.lookup name = some (handle, tree))
    (hother : after.trees.lookup other = some (found, last))
    (hsame : handle.serial = found.serial) :
    name = other := by
  obtain ⟨made, htrees⟩ := hadvance.trees
  rcases htrees _ _ _ htree with ⟨old, hold, -⟩ | ⟨hmade, hnew, -⟩ <;>
    rcases htrees _ _ _ hother with ⟨old', hold', -⟩ | ⟨hmade', hnew', -⟩
  · exact h.distinct hold hold' hsame
  · have := h.serials hold
    omega
  · have := h.serials hold'
    omega
  · exact Option.some.inj (hmade.symm.trans hmade')

lemma World.Coherent.serials_advance (h : world.Coherent) (hadvance : world.Advances after)
    (htree : after.trees.lookup name = some (handle, tree)) :
    handle.serial < after.memory.nextSerial := by
  obtain ⟨made, htrees⟩ := hadvance.trees
  rcases htrees _ _ _ htree with ⟨old, hold, -⟩ | ⟨-, hnew, hlt, -⟩
  · exact (h.serials hold).trans_le hadvance.serial_le
  · rwa [hnew]

/-- **A turn** keeps worlds coherent. -/
lemma World.Coherent.advance (h : world.Coherent) (hadvance : world.Advances after) :
    after.Coherent where
  usual := hadvance.usual
  serials := h.serials_advance hadvance
  distinct := h.distinct_advance hadvance
  rootCalls {name handle tree} htree hread := by
    obtain ⟨made, htrees⟩ := hadvance.trees
    rcases htrees name handle tree htree with ⟨old, hold, hgrows⟩ | ⟨-, -, -, -, hzero⟩
    · rw [hgrows.source_eq] at hread
      have hcalls := h.rootCalls hold hread
      rcases hgrows.eq_or hread with rfl | ⟨-, root, -, rfl⟩ <;> exact hcalls
    · exact hzero
  numbered table htable entry hentry := by
    rcases hadvance.entries table htable entry hentry with
      ⟨old, hold, hmem⟩ | ⟨other, last, hother, -⟩
    · exact (h.numbered old hold entry hmem).trans_le hadvance.serial_le
    · exact h.serials_advance hadvance hother
  entries table htable entry hentry {name handle tree} htree hsame hread := by
    rcases hadvance.entries table htable entry hentry with
      ⟨old, hold, hmem⟩ | ⟨other, last, hother, hsettled⟩
    · have hlt := h.numbered old hold entry hmem
      obtain ⟨before, hbefore, hgrows⟩ := hadvance.exists_old htree (by omega)
      rw [hgrows.source_eq] at hread
      exact (hgrows.later hread).settled? (h.entries old hold entry hmem hbefore hsame hread)
    · obtain rfl := h.distinct_advance hadvance htree hother hsame
      obtain ⟨-, rfl⟩ := Prod.mk.inj (Option.some.inj (htree.symm.trans hother))
      exact hsettled hread

/-! ### Runs -/

/-- **A run** leaves a tree that is read alone, but for a root that the tree may take on. -/
lemma later_of_reaches (h : world.Coherent) (hreach : Reaches Command.IsPlain world last) :
    last.Coherent ∧ world.memory.nextSerial ≤ last.memory.nextSerial ∧
      ∀ name handle tree, last.trees.lookup name = some (handle, tree) →
        handle.serial < world.memory.nextSerial →
          ∃ old, world.trees.lookup name = some (handle, old) ∧ tree.source = old.source ∧
            (old.source.IsRead → old.Later tree) := by
  induction hreach with
  | refl => exact ⟨h, le_rfl, fun name handle tree htree _ => ⟨tree, htree, rfl, fun _ => .inl rfl⟩⟩
  | tail _ hturn ih =>
      obtain ⟨hmid, hserial, htrees⟩ := ih
      have hadvance := World.advances_turn hmid.usual hturn
      refine ⟨hmid.advance hadvance, hserial.trans hadvance.serial_le,
        fun name handle tree htree hlt => ?_⟩
      obtain ⟨mid, hmidtree, hgrows⟩ := hadvance.exists_old htree (hlt.trans_le hserial)
      obtain ⟨old, hold, hsource, hlater⟩ := htrees name handle mid hmidtree hlt
      refine ⟨old, hold, hgrows.source_eq.trans hsource, fun hread => ?_⟩
      exact (hlater hread).trans (hgrows.later (hsource ▸ hread))

/-- What has become of a tree that still has its name. -/
lemma World.Coherent.later (h : world.Coherent) (hreach : Reaches Command.IsPlain world last)
    (htree : world.trees.lookup name = some (handle, tree)) (hread : tree.source.IsRead)
    {now : Tree} (hnow : last.trees.lookup name = some (handle, now)) : tree.Later now := by
  obtain ⟨old, hold, -, hlater⟩ :=
    (later_of_reaches h hreach).2.2 name handle now hnow (h.serials htree)
  obtain ⟨-, rfl⟩ := Prod.mk.inj (Option.some.inj (htree.symm.trans hold))
  exact hlater hread

/-- A root that a tree keeps was the one of its source at some turn, before which the tree kept
none. -/
lemma exists_origin {start : World} (h : start.Coherent)
    (hstart : ∀ name, start.trees.lookup name = none)
    (hreach : Reaches Command.IsPlain start world)
    (htree : world.trees.lookup name = some (handle, tree)) (hread : tree.source.IsRead)
    {root : Root} (hroot : tree.root = some root) :
    ∃ mid, Reaches Command.IsPlain start mid ∧ Reaches Command.IsPlain mid world ∧
      mid.trees.lookup name = some (handle, { tree with root := none }) ∧
      tree.source.root mid.reader = .ok (some root) := by
  induction hreach generalizing tree with
  | refl =>
      rw [hstart] at htree
      contradiction
  | tail hbefore hturn ih =>
      obtain ⟨hmid, -⟩ := later_of_reaches h hbefore
      obtain ⟨made, htrees⟩ := (World.advances_turn hmid.usual hturn).trees
      rcases htrees name handle tree htree with ⟨old, hold, hgrows⟩ | ⟨-, -, -, hnone, -⟩
      · rw [hgrows.source_eq] at hread
        rcases hgrows.eq_or hread with rfl | ⟨hnone, found, hfound, rfl⟩
        · obtain ⟨mid, hfirst, hsecond, hlookup, hsource⟩ := ih hold hread hroot
          exact ⟨mid, hfirst, hsecond.tail hturn, hlookup, hsource⟩
        · obtain rfl := Option.some.inj hroot
          have hsame : { old with root := none } = old := by rw [← hnone]
          exact ⟨_, hbefore, .single hturn, hold.trans (by rw [hsame]), hfound⟩
      · rw [hnone] at hroot
        contradiction

/-! ### What is said of a tree -/

/-- A visit to a tree by its name. -/
lemma visit_of_lookup {α : Type} (htree : world.trees.lookup name = some (handle, tree))
    (limit : Limit) (x : Attempt (Visit Tree) α) (say : α → Said) :
    world.visit name limit x say =
      let out := x.outcome ⟨tree, world.call limit⟩
      ({ Answer.ofOutcome say out.1 with checks := out.2.call.checks },
        ({ world with trees := bind name (handle, out.2.tree) world.trees } : World).afterCall
          out.2.call) := by
  rw [World.visit, htree]

lemma said_ofOutcome_eq_iff {α : Type} (say : α → Said) (hsay : ∀ a, say a ≠ .nothing)
    (hinj : ∀ a b, say a = say b → a = b) {result : Except Failure α} {a : α} :
    (Answer.ofOutcome say result).said = say a ↔ result = .ok a := by
  cases result with
  | error failure => exact ⟨fun h => absurd h.symm (hsay a), fun h => by contradiction⟩
  | ok b =>
      exact ⟨fun h => congrArg Except.ok (hinj b a h), fun h => congrArg say (Except.ok.inj h)⟩

/-- What is said of the marker of a tree is what its root says from then on. -/
lemma marker?_of_marker (htree : world.trees.lookup name = some (handle, tree))
    (hread : tree.source.IsRead) {limit : Limit} {signed : Bool}
    (h : (step world (.marker name limit)).1.said = .truth (some signed)) :
    ∃ now, (step world (.marker name limit)).2.trees.lookup name = some (handle, now) ∧
      now.marker? = some signed := by
  have hstep := visit_of_lookup htree limit (Marker.hasMarker (Tree.getRoot world.reader))
    fun b => .truth (some b)
  change (world.visit name limit _ _).1.said = _ at h
  change ∃ now, (world.visit name limit _ _).2.trees.lookup name = _ ∧ _
  rw [hstep] at h ⊢
  cases hout : (Marker.hasMarker (Tree.getRoot world.reader)).outcome ⟨tree, world.call limit⟩ with
  | mk result visit =>
    rw [hout] at h
    have hresult : result = .ok signed :=
      (said_ofOutcome_eq_iff (fun b => .truth (some b)) (by simp) (by simp)).1 h
    subst hresult
    exact ⟨visit.tree, lookup_bind_self _ _ _, Tree.marker?_of_hasMarker hread hout⟩

/-- What a cache says of a tree is what the tree says of itself from then on. -/
lemma settled?_of_inquire (hworld : world.Coherent)
    (htree : world.trees.lookup name = some (handle, tree)) (hread : tree.source.IsRead)
    {cache : Project.CacheRef} (hcache : cache.classifier = {}) {limit : Limit} {b : Bool}
    (h : (world.inquire name cache limit).1.said = .truth (some b)) :
    ∃ now, (world.inquire name cache limit).2.trees.lookup name = some (handle, now) ∧
      now.settled? = some b := by
  rw [World.inquire, htree] at h ⊢
  dsimp only at h ⊢
  rw [hcache] at h ⊢
  cases hout : (Memory.isGenerated cache.slot handle tree.filePath (Classifier.byName {})
      (Classifier.byComment {} world.reader)).outcome
        ⟨world.memory, [], ⟨tree, world.call limit⟩⟩ with
  | mk result last =>
    rw [hout] at h
    have hresult : result = .ok b :=
      (said_ofOutcome_eq_iff (fun b => .truth (some b)) (by simp) (by simp)).1 h
    refine ⟨last.inner.tree, lookup_bind_self _ _ _, ?_⟩
    obtain ⟨-, -, hanswer, -⟩ := Memory.origin_of_isGenerated hout
    rcases hanswer b hresult with ⟨old, hold, entry, hentry, hserial, rfl, hsame⟩ | hjudged
    · rw [hsame]
      exact hworld.entries old hold entry hentry htree hserial.symm hread
    · exact Tree.settled?_of_judge ⟨tree, world.call limit⟩ hread hjudged

lemma settled?_of_generated (hworld : world.Coherent)
    (htree : world.trees.lookup name = some (handle, tree)) (hread : tree.source.IsRead)
    {cache : Option String} {limit : Limit} {b : Bool}
    (h : (step world (.generated name cache limit)).1.said = .truth (some b)) :
    ∃ now, (step world (.generated name cache limit)).2.trees.lookup name = some (handle, now) ∧
      now.settled? = some b := by
  have hready : (world.cache cache).2.1.Coherent :=
    hworld.advance (World.advances_cache hworld.usual cache)
  exact settled?_of_inquire hready (by rwa [World.trees_cache]) hread (hworld.usual.cache cache).1 h

/-- What a tree says of itself once, it says again: two commands that find it out find the same. -/
lemma agree {tells : Tree → Option Bool}
    (htells : ∀ {before after : Tree} {b}, before.Later after → tells before = some b →
      tells after = some b) (hworld : world.Coherent)
    (htree : world.trees.lookup name = some (handle, tree)) (hread : tree.source.IsRead)
    {command again : Command} (hplain : command.IsPlain) (hagain : again.IsPlain) {b b' : Bool}
    (hfirst : ∃ found, (step world command).2.trees.lookup name = some (handle, found) ∧
      tells found = some b)
    (hreach : Reaches Command.IsPlain (step world command).2 last) {now : Tree}
    (hnow : last.trees.lookup name = some (handle, now))
    (hsecond : last.Coherent → now.source.IsRead →
      ∃ found, (step last again).2.trees.lookup name = some (handle, found) ∧
        tells found = some b') : b' = b := by
  have hturn : Reaches Command.IsPlain world (step world command).2 := .single (.step hplain)
  have hcoherent : last.Coherent := (later_of_reaches hworld (hturn.trans hreach)).1
  obtain ⟨found, hfound, hb⟩ := hfirst
  have hstep := (later_of_reaches hworld hturn).1
  have hsource (later : Tree) (h : tree.Later later) : later.source.IsRead := by
    rcases h with rfl | ⟨-, root, rfl⟩ <;> exact hread
  have hfoundRead := hsource found (hworld.later hturn htree hread hfound)
  have hnowRead := hsource now (hworld.later (hturn.trans hreach) htree hread hnow)
  have hkept : tells now = some b := htells (hstep.later hreach hfound hfoundRead hnow) hb
  obtain ⟨final, hfinal, hb'⟩ := hsecond hcoherent hnowRead
  have hlast := htells (hcoherent.later (.single (.step hagain)) hnow hnowRead hfinal) hkept
  exact Option.some.inj (hb'.symm.trans hlast)

/-! ### The root of a tree -/

/-- What a session may rely on about the root of a tree that has a name in one of its worlds; the
session began in `start`. -/
structure RootFixed (start world : World) (name : String) (handle : Handle) (tree : Tree) :
    Prop where
  /-- A tree without a root is as it was made. -/
  unmade : tree.root = none → tree = { filePath := tree.filePath, source := tree.source }
  /-- A call that fails leaves all trees as they were, and files and caches too. -/
  failing : ∀ limit failure, (step world (.root name limit)).1.failure = some failure →
    (step world (.root name limit)).2.disk = world.disk ∧
      (step world (.root name limit)).2.memory = world.memory ∧
      ∀ other, (step world (.root name limit)).2.trees.lookup other = world.trees.lookup other
  /-- The first call that succeeds gives the first token of the whole text of that moment, and the
  tree keeps it. -/
  first : tree.root = none → ∀ limit root,
    (step world (.root name limit)).1.said = .root root →
      (∃ t token, tree.source.Holds world.reader t ∧
        ((Token.read t).outcome .unlimited).1 = .ok token ∧ root = some ⟨some token⟩) ∧
      (step world (.root name limit)).2.trees.lookup name =
        some (handle, { tree with root := root })
  /-- A root that the tree keeps was the first token of the whole text of an earlier moment, when
  the tree was as it had been made. -/
  origin : ∀ root, tree.root = some root → ∃ mid, Reaches Command.IsPlain start mid ∧
    Reaches Command.IsPlain mid world ∧
    mid.trees.lookup name = some (handle, { tree with root := none }) ∧
    ∃ t token, tree.source.Holds mid.reader t ∧
      ((Token.read t).outcome .unlimited).1 = .ok token ∧ root = ⟨some token⟩
  /-- From then on, whatever the session is asked, the tree stays as it is, and any call gets that
  root without a check, whatever is on disk by then. -/
  later : ∀ root, tree.root = some root → ∀ last now, Reaches Command.IsPlain world last →
    last.trees.lookup name = some (handle, now) → now = tree ∧
      (∀ limit, (step last (.root name limit)).1 = { said := .root (some root) }) ∧
      ∀ disk call, (Tree.getRoot disk).outcome ⟨now, call⟩ = (.ok (some root), ⟨now, call⟩)
  /-- If the marker of the tree is found twice, the same is found. -/
  markers : ∀ limit signed, (step world (.marker name limit)).1.said = .truth (some signed) →
    ∀ last now, Reaches Command.IsPlain (step world (.marker name limit)).2 last →
      last.trees.lookup name = some (handle, now) → ∀ limit signed',
        (step last (.marker name limit)).1.said = .truth (some signed') → signed' = signed
  /-- If caches are asked about the tree twice, be it the same one or not, they say the same. -/
  answers : ∀ cache limit b, (step world (.generated name cache limit)).1.said = .truth (some b) →
    ∀ last now, Reaches Command.IsPlain (step world (.generated name cache limit)).2 last →
      last.trees.lookup name = some (handle, now) → ∀ cache limit b',
        (step last (.generated name cache limit)).1.said = .truth (some b') → b' = b

/-- A call that fails to find a root leaves all trees as they were. -/
lemma failing_root (htree : world.trees.lookup name = some (handle, tree))
    (hread : tree.source.IsRead) {limit : Limit} {failure : Failure}
    (h : (step world (.root name limit)).1.failure = some failure) :
    (step world (.root name limit)).2.disk = world.disk ∧
      (step world (.root name limit)).2.memory = world.memory ∧
      ∀ other, (step world (.root name limit)).2.trees.lookup other = world.trees.lookup other := by
  change (world.visit name limit (Tree.getRoot world.reader) .root).1.failure = _ at h
  change (world.visit name limit _ _).2.disk = _ ∧ (world.visit name limit _ _).2.memory = _ ∧
    ∀ other, (world.visit name limit _ _).2.trees.lookup other = _
  rw [visit_of_lookup htree] at h ⊢
  refine ⟨rfl, rfl, fun other => ?_⟩
  have hfailed :
      ((Tree.getRoot world.reader).outcome ⟨tree, world.call limit⟩).1 = .error failure := by
    cases hresult : ((Tree.getRoot world.reader).outcome ⟨tree, world.call limit⟩).1 with
    | ok root =>
        simp only [hresult] at h
        contradiction
    | error found =>
        simp only [hresult] at h
        rw [Option.some.inj h]
  have hsame := Tree.tree_of_getRoot_error ⟨tree, world.call limit⟩ hread hfailed
  change (bind name (handle, _) world.trees).lookup other = _
  rw [hsame]
  by_cases hother : other = name
  · rw [hother, lookup_bind_self, htree]
  · rw [lookup_bind_of_ne hother]

/-- The first call that finds a root finds the one of its source, which the tree takes on. -/
lemma first_root (htree : world.trees.lookup name = some (handle, tree))
    (hread : tree.source.IsRead) (hroot : tree.root = none) {limit : Limit} {root : Option Root}
    (h : (step world (.root name limit)).1.said = .root root) :
    (∃ found, root = some found ∧ tree.source.root world.reader = .ok (some found)) ∧
      (step world (.root name limit)).2.trees.lookup name =
        some (handle, { tree with root := root }) := by
  change (world.visit name limit (Tree.getRoot world.reader) .root).1.said = _ at h
  change _ ∧ (world.visit name limit _ _).2.trees.lookup name = _
  rw [visit_of_lookup htree] at h ⊢
  have hresult := (said_ofOutcome_eq_iff Said.root (by simp) (by simp)).1 h
  change _ ∧ (bind name (handle, _) world.trees).lookup name = _
  rw [lookup_bind_self]
  rcases @Tree.outcome_getRoot_of_none world.reader ⟨tree, world.call limit⟩ hread hroot with
    ⟨found, hfound, hsource, hafter⟩ | ⟨failure, hfailed, -⟩
  · obtain rfl := Except.ok.inj (hfound.symm.trans hresult)
    exact ⟨⟨found, rfl, hsource⟩, by rw [hafter]⟩
  · rw [hfailed] at hresult
    contradiction

/-- A root that a tree keeps is given without a check. -/
lemma step_root_of_some (htree : world.trees.lookup name = some (handle, tree))
    (hread : tree.source.IsRead) {root : Root} (hroot : tree.root = some root) (limit : Limit) :
    (step world (.root name limit)).1 = { said := .root (some root) } := by
  have hout := Tree.outcome_getRoot_of_some ⟨tree, world.call limit⟩ hread hroot
    world.reader
  change (world.visit name limit (Tree.getRoot world.reader) .root).1 = _
  rw [visit_of_lookup htree, hout]
  cases limit <;> rfl

/-- **The root of a tree** over a text or a file is found at once or not at all, and only once,
whatever tokens the calls have that ask for it, and whatever becomes of files and caches in between.
So the comments of a tree never get different answers, and neither does the tree. -/
theorem root_is_fixed {disk : Disk} {environment : Environment}
    (hreach : Reaches Command.IsPlain { disk := disk, environment := environment } world)
    (htree : world.trees.lookup name = some (handle, tree)) (hread : tree.source.IsRead) :
    RootFixed { disk := disk, environment := environment } world name handle tree := by
  have hstart := coherent_start disk environment
  have hworld : world.Coherent := (later_of_reaches hstart hreach).1
  refine
    { unmade := fun hroot => ?_
      failing := fun limit failure h => failing_root htree hread h
      first := fun hroot limit root h => ?_
      origin := fun root hroot => ?_
      later := fun root hroot last now hlast hnow => ?_
      markers := fun limit signed h last now hlast hnow limit' signed' h' => ?_
      answers := fun cache limit b h last now hlast hnow cache' limit' b' h' => ?_ }
  · have hcalls := hworld.rootCalls htree hread
    obtain ⟨filePath, source, root, rootCalls⟩ := tree
    obtain rfl : root = none := hroot
    obtain rfl : rootCalls = 0 := hcalls
    rfl
  · obtain ⟨⟨found, rfl, hsource⟩, hafter⟩ := first_root htree hread hroot h
    exact ⟨Source.exists_holds_of_root hread hsource, hafter⟩
  · obtain ⟨mid, hbefore, hafter, hmid, hsource⟩ :=
      exists_origin hstart (fun _ => rfl) hreach htree hread hroot
    obtain ⟨t, token, hholds, htoken, heq⟩ := Source.exists_holds_of_root hread hsource
    exact ⟨mid, hbefore, hafter, hmid, t, token, hholds, htoken, Option.some.inj heq⟩
  · obtain rfl := (hworld.later hlast htree hread hnow).eq_of_root hroot
    exact ⟨rfl, step_root_of_some hnow hread hroot, fun disk call =>
      Tree.outcome_getRoot_of_some ⟨now, call⟩ hread hroot disk⟩
  · have hplain (limit : Limit) : Command.IsPlain (.marker name limit) := trivial
    exact agree (fun hlater => hlater.marker?) hworld htree hread (hplain limit) (hplain limit')
      (marker?_of_marker htree hread h) hlast hnow
      fun _ hnowRead => marker?_of_marker hnow hnowRead h'
  · have hplain (cache : Option String) (limit : Limit) :
        Command.IsPlain (.generated name cache limit) := trivial
    exact agree (fun hlater => hlater.settled?) hworld htree hread (hplain cache limit)
      (hplain cache' limit') (settled?_of_generated hworld htree hread h) hlast hnow
      fun hcoherent hnowRead => settled?_of_generated hcoherent hnow hnowRead h'

/-- A tree over an empty text that has been asked for its root: it keeps one. -/
theorem root_is_fixed_once_found :
    let world := (run {} [.tree "t" "a.cs".toList (.text []) false, .root "t" .unlimited]).2
    let tree : Tree := ⟨"a.cs".toList, .text [], some ⟨some (Token.first [])⟩, 0⟩
    world.trees.lookup "t" = some (⟨0, 1, false, "t"⟩, tree) ∧
      RootFixed {} world "t" ⟨0, 1, false, "t"⟩ tree := by
  intro world tree
  let made : World := (run {} [.tree "t" "a.cs".toList (.text []) false]).2
  have hout : (Tree.getRoot made.reader).outcome
      ⟨⟨"a.cs".toList, .text [], none, 0⟩, .unlimited⟩ =
        (.ok (some ⟨some (Token.first [])⟩),
          ⟨tree, Call.unlimited.ticks (Trivia.leadingTurns [])⟩) := by
    rw [Tree.outcome_getRoot rfl, Tree.findRoot, Tree.outcome_remember_of_none rfl,
      Token.outcome_read_eq, if_pos (Call.affords_of_allowed_none rfl _)]
    rfl
  have htree : world.trees.lookup "t" = some (⟨0, 1, false, "t"⟩, tree) := by
    have hmade : made.trees.lookup "t" =
        some (⟨0, 1, false, "t"⟩, ⟨"a.cs".toList, .text [], none, 0⟩) := rfl
    change (made.visit "t" .unlimited (Tree.getRoot made.reader) .root).2.trees.lookup "t" = _
    rw [visit_of_lookup hmade]
    change (bind "t" (_, ((Tree.getRoot made.reader).outcome
      ⟨⟨"a.cs".toList, .text [], none, 0⟩, .unlimited⟩).2.tree) made.trees).lookup "t" = _
    rw [lookup_bind_self, hout]
  exact ⟨htree, root_is_fixed (reaches_run {} (by simp [Command.IsPlain])) htree trivial⟩

end Session

end GeneratedCode
