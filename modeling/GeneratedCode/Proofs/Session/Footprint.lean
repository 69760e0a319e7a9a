import Mathlib.Tactic
import GeneratedCode.Proofs.Project.Footprint
import GeneratedCode.Proofs.Session.Cancelling

/-!
What a report costs the cache that it asks.

However many files a report goes through, the slot of the cache is left with one entry for all of
them, and the oldest of its living entries make room for that one. `report_leaves_one_entry` is the
main result. A slot that has only been asked has no more living entries than it has room for, so at
most one of them is lost; where a table of a larger slot was put into it, more are
(`report_costs_more_of_larger`).
-/

namespace GeneratedCode

open Cache Project

namespace Session

variable {world : World} {project : Text} {extensions : List Text} {cache : Option String}
  {limit : Limit} {asked : CacheRef} {slot : Slot} {m : ℕ} {report : Report} {disk : Disk}
  {environment : Environment}

/-- A report leaves the memory that its scan does. -/
lemma memory_step_report (world : World) (project : Text) (extensions : List Text)
    (cache : Option String) (limit : Limit) :
    (step world (.report project extensions cache limit)).2.memory =
      ((world.cache cache).2.1.reported project extensions (world.cache cache).1
        limit).2.store := by
  change
    ((world.cache cache).2.1.report project extensions (world.cache cache).1 limit).2.memory = _
  rw [World.report_eq]
  rfl

/-- A report leaves the trace of its findings. -/
lemma trace_of_reported (h : world.Tidy) (hslot : world.memory.slots.lookup asked.slot = some slot)
    (hm : 1 ≤ m) (hroom : slot.maxEntries = m)
    (hreport : (world.reported project extensions asked limit).1 = .ok report) :
    Trace world.memory (world.reported project extensions asked limit).2.store asked.slot m slot
      report.findings := by
  obtain ⟨files, hfiles⟩ := exists_sources_of_reported hreport
  rw [World.reported, hfiles] at hreport ⊢
  dsimp only at hreport ⊢
  rw [outcome_reportOn] at hreport ⊢
  cases hscan : (Scan.scanFrom asked (World.placeOf project) none [] files).outcome
      ⟨world.memory, [], world.call limit⟩ with
  | mk result after =>
      rw [hscan] at hreport
      cases result with
      | error failure => contradiction
      | ok findings =>
          obtain rfl := Except.ok.inj hreport
          obtain ⟨last, hprint⟩ :=
            (Footprint.start h.memory hslot).scanFrom h.memory hslot hm hroom hscan
          exact hprint.trace h.memory hslot

/-- So does the command for it. -/
lemma trace_of_report
    (hreach : Reaches (fun _ => True) { disk := disk, environment := environment } world)
    (hslot : (world.cache cache).2.1.memory.slots.lookup (world.cache cache).1.slot = some slot)
    (hm : 1 ≤ m) (hroom : slot.maxEntries = m)
    (hreport : (step world (.report project extensions cache limit)).1.said = .report report) :
    Trace (world.cache cache).2.1.memory
      (step world (.report project extensions cache limit)).2.memory (world.cache cache).1.slot m
      slot report.findings := by
  have hready := (World.tidy_of_reaches hreach).tidy_cache cache
  rw [memory_step_report]
  refine trace_of_reported hready hslot hm hroom (said_ofOutcome_eq_report_iff.1 ?_)
  rw [← (step_report world project extensions cache limit).1, hreport]

/-- A slot that has only been asked has no more living entries than it has room for. -/
lemma length_liveEntries_le {start : World} (hstart : start.Tidy)
    (hnone : (start.memory.slot asked.slot).table = none)
    (hrun : World.OnlyAsks asked.slot start world) (cache : Option String)
    (hslot : (world.cache cache).2.1.memory.slots.lookup asked.slot = some slot)
    (hroom : slot.maxEntries = m) :
    ((world.cache cache).2.1.memory.liveEntries asked.slot).length ≤ m := by
  have hleads : World.Leads (· ≠ asked.slot) start (world.cache cache).2.1 :=
    have hworld := World.leads_of_onlyAsks hstart hrun
    hworld.trans (hworld.tidy.cache cache)
  have hbounded := Memory.bounded_of_run hleads.run (by simp) (Slot.bounded_of_table_eq_none hnone)
  rw [Memory.slot, hslot, Option.getD_some] at hbounded
  refine (List.length_filter_le _ _).trans ?_
  rw [Memory.entries_eq hslot]
  cases htable : slot.table with
  | none => exact Nat.zero_le m
  | some table =>
      have hlength := (hbounded table htable).2
      rw [hroom] at hlength
      exact Int.ofNat_le.1 hlength

/-- **A report leaves one entry**: whatever has become of a cache with room for `m` entries, and
however many files a report classifies, the table then has the last `m - 1` of the living entries
that there were, as they were, and one of a tree that is dead, with the answer for the last file;
with no file classified, it is the same. So only the oldest living trees are not found any more. If
no more than `m` trees were found, as is the case where the slot has only been asked, that is at
most one tree. -/
theorem report_leaves_one_entry
    (hreach : Reaches (fun _ => True) { disk := disk, environment := environment } world)
    (hslot : (world.cache cache).2.1.memory.slots.lookup (world.cache cache).1.slot = some slot)
    (hm : 1 ≤ m) (hroom : slot.maxEntries = m)
    (hreport : (step world (.report project extensions cache limit)).1.said = .report report) :
    let number := (world.cache cache).1.slot
    let before := (world.cache cache).2.1.memory
    let after := (step world (.report project extensions cache limit)).2.memory
    Trace before after number m slot report.findings ∧
    ((before.liveEntries number).length ≤ m →
      (∀ tree ∈ before.living,
        (after.slot number).lookup? tree ≠ (before.slot number).lookup? tree →
          (before.liveEntries number).length = m ∧
            (before.liveEntries number).head?.map (·.tree) = some tree) ∧
      (before.slot number).countAlive before.alive ≤
        (after.slot number).countAlive after.alive + 1) ∧
    ∀ start, Reaches (fun _ => True) { disk := disk, environment := environment } start →
      (start.memory.slot number).table = none → World.OnlyAsks number start world →
        (before.liveEntries number).length ≤ m := by
  intro number before after
  have htrace := trace_of_report hreach hslot hm hroom hreport
  exact ⟨htrace, htrace.at_most_one hslot, fun start hstart hnone hrun =>
    length_liveEntries_le (World.tidy_of_reaches hstart) hnone hrun cache hslot hroom⟩

/-! ### A project with one file -/

/-- A report on a project with one file, which is empty, classifies that file. -/
lemma exists_report_of_empty_file
    (hreach : Reaches (fun _ => True) { disk := disk, environment := environment } world)
    (hdisk : world.disk = diskOfOne [])
    (hcache : (world.cache cache).1.classifier = {}) :
    ∃ report, (step world (.report [] [".cs".toList] cache .unlimited)).1.said = .report report ∧
      report.findings.length = 1 := by
  have hkept : (keptSourceFiles [".cs".toList]
      [.file "a.cs".toList (.ok { bytes := [] })]).toOption.map
        (fun files => files.map fun file => file.verdict.toOption.isSome) = some [true] := by
    decide +kernel
  rw [← sources_of_one hdisk, ← sources_cache world cache] at hkept
  cases hfiles : (world.cache cache).2.1.sources [] [".cs".toList] with
  | error failure =>
      rw [hfiles] at hkept
      contradiction
  | ok files =>
      rw [hfiles] at hkept
      obtain ⟨file, rfl, hverdict⟩ := List.map_eq_singleton_iff.1 (Option.some.inj hkept)
      obtain ⟨answer, hanswer⟩ := Option.isSome_iff_exists.1 hverdict
      have hfree : ((world.cache cache).2.1.call .unlimited).affords
          ([file].map SourceFile.checks).sum = true := Call.affords_of_allowed_none rfl _
      obtain ⟨hok, -⟩ := reported_of_affords
        ((World.tidy_of_reaches hreach).tidy_cache cache).memory.numbered hcache hfiles rfl hfree
      refine ⟨_, (step_report world [] [".cs".toList] cache .unlimited).1.trans
        (said_ofOutcome_eq_report_iff.2 hok), ?_⟩
      simp [reportOf, Report.ofFindings, SourceFile.finding?_eq, hanswer]

/-- A world in which a cache with room for two entries has been asked about two trees. -/
def askedAboutTwo : World :=
  (run { disk := diskOfOne [] }
    [.newCache "c" (.bound 2 false) {}, .tree "old" "b.g.cs".toList (.text []) false,
      .tree "new" "c.g.cs".toList (.text []) false, .generated "old" (some "c") .unlimited,
      .generated "new" (some "c") .unlimited]).2

/-- A cache that is full: a report on one file costs it the older of its two trees. -/
theorem report_leaves_one_entry_of_full :
    let before := askedAboutTwo.memory
    let out := step askedAboutTwo (.report [] [".cs".toList] (some "c") .unlimited)
    (before.liveEntries 0).map (·.tree.label) = ["old", "new"] ∧ ∃ report,
      out.1.said = .report report ∧ report.findings.length = 1 ∧
      Trace before out.2.memory 0 2 (before.slot 0) report.findings ∧
      ∀ tree ∈ before.living,
        (out.2.memory.slot 0).lookup? tree ≠ (before.slot 0).lookup? tree →
          (before.liveEntries 0).head?.map (·.tree) = some tree := by
  intro before out
  have hreach : Reaches (fun _ => True) { disk := diskOfOne [] } askedAboutTwo :=
    reaches_run _ (by simp)
  have hroom : (before.slot 0).maxEntries = (2 : ℕ) := by decide +kernel
  have hlive : (before.liveEntries 0).map (·.tree.label) = ["old", "new"] := by decide +kernel
  have hfull : (before.liveEntries 0).length ≤ 2 := by
    simpa using (congrArg List.length hlive).le
  obtain ⟨report, hreport, hone⟩ := @exists_report_of_empty_file askedAboutTwo (some "c") _ _ hreach
    rfl rfl
  obtain ⟨htrace, hlost, -⟩ := @report_leaves_one_entry askedAboutTwo [] [".cs".toList] (some "c")
    .unlimited (before.slot 0) 2 report _ _ hreach rfl (by decide) hroom hreport
  exact ⟨hlive, report, hreport, hone, htrace, fun tree htree hchanged =>
    ((hlost hfull).1 tree htree hchanged).2⟩

/-- A world in which the table of a cache with room for three entries has been put into one with
room for two. -/
def givenLargerTable : World :=
  (run { disk := diskOfOne [] }
    [.newCache "large" (.bound 3 false) {}, .newCache "small" (.bound 2 false) {},
      .tree "a" "a.g.cs".toList (.text []) false, .tree "b" "b.g.cs".toList (.text []) false,
      .tree "c" "c.g.cs".toList (.text []) false, .generated "a" (some "large") .unlimited,
      .generated "b" (some "large") .unlimited, .generated "c" (some "large") .unlimited,
      .snapshot (some "large") "table", .restore (some "small") "table"]).2

/-- A cache with more entries than it has room for: a report on one file costs it two of three
trees. -/
theorem report_costs_more_of_larger :
    let before := givenLargerTable.memory
    let out := step givenLargerTable (.report [] [".cs".toList] (some "small") .unlimited)
    let after := out.2.memory
    Reaches (fun _ => True) { disk := diskOfOne [] } givenLargerTable ∧
      (before.slot 1).maxEntries = 2 ∧
      (∃ report, out.1.said = .report report ∧ report.findings.length = 1) ∧
      (before.slot 1).countAlive before.alive = 3 ∧ (after.slot 1).countAlive after.alive = 1 ∧
      ∃ a ∈ before.living, ∃ b ∈ before.living, a ≠ b ∧
        (before.slot 1).lookup? a = some true ∧ (after.slot 1).lookup? a = none ∧
        (before.slot 1).lookup? b = some true ∧ (after.slot 1).lookup? b = none := by
  intro before out after
  have hreach : Reaches (fun _ => True) { disk := diskOfOne [] } givenLargerTable :=
    reaches_run _ (by simp)
  have hroom : (before.slot 1).maxEntries = (2 : ℕ) := by decide +kernel
  obtain ⟨report, hreport, hone⟩ := @exists_report_of_empty_file givenLargerTable (some "small") _ _
    hreach rfl rfl
  have hsome : report.findings ≠ [] := fun hnone => by simp [hnone] at hone
  have htrace : Trace before after 1 2 (before.slot 1) report.findings :=
    trace_of_report hreach rfl (by decide) hroom hreport
  let a : Handle := ⟨0, 1, false, "a"⟩
  let b : Handle := ⟨1, 0, false, "b"⟩
  have hcount : (before.liveEntries 1).length = 3 := by decide +kernel
  have hlost : a ∈ ((before.liveEntries 1).rdrop 1).map (·.tree) ∧
      b ∈ ((before.liveEntries 1).rdrop 1).map (·.tree) := by decide +kernel
  have hliving : a ∈ before.living ∧ b ∈ before.living := by decide +kernel
  have hfound : (before.slot 1).lookup? a = some true ∧ (before.slot 1).lookup? b = some true := by
    decide +kernel
  refine ⟨hreach, hroom, ⟨report, hreport, hone⟩, ?_, ?_, a, hliving.1, b, hliving.2, by decide,
    hfound.1, ?_, hfound.2, ?_⟩
  · rw [Memory.countAlive_slot, hcount]
  · rw [htrace.count_eq, if_neg hsome, hcount]
    rfl
  · rw [htrace.lookup_eq hsome a hliving.1, if_pos hlost.1]
  · rw [htrace.lookup_eq hsome b hliving.2, if_pos hlost.2]

end Session

end GeneratedCode
