import Mathlib.Tactic
import GeneratedCode.Proofs.Session.WellFormed

/-!
A report says what is found without a cache.

Whatever a session was asked before, a scan makes a new tree for each file, and nothing is kept for
a tree that is yet to be made (`World.WellFormed`). So the cache that a scan asks has no say in the
report, whether it is full of answers for dead trees or keeps none at all, provided that it has the
usual tests. `report_is_uncached` is the main result; what it adds to the scan of the files
(`Project.Scan.scanFrom_usual`) is that other events are not mistaken for those of files.
-/

namespace GeneratedCode

open Cache Project

namespace Session

variable {world : World} {project : Text} {extensions : List Text} {cache : Option String}
  {limit : Limit}

/-- Setting up the shared cache tells the log of no file. -/
lemma readErrors_cache (world : World) (cache : Option String) :
    (world.cache cache).2.2.filter Event.isReadError = [] := by
  cases cache with
  | some name => rfl
  | none =>
      rw [World.cache]
      cases world.shared with
      | some cache => rfl
      | none =>
          have hmode :
              (Settings.readMode world.environment.mode).2.filter Event.isReadError = [] := by
            unfold Settings.readMode
            split
            · rfl
            · dsimp only
              split <;> rfl
          have hmax : (Settings.readMaxEntries world.environment.maxEntries).2.filter
              Event.isReadError = [] := by
            unfold Settings.readMaxEntries
            split
            · rfl
            · split <;> rfl
          simp only [Settings.setUp, Settings.load, List.filter_append, hmode, hmax]
          rfl

lemma sources_cache (world : World) (cache : Option String) (project : Text)
    (extensions : List Text) :
    (world.cache cache).2.1.sources project extensions = world.sources project extensions := by
  simp only [World.sources, World.entries, World.disk_cache]

/-- What reporting on a project comes to if the cache has the usual tests. -/
lemma reported_usual (h : world.WellFormed) {asked : CacheRef} (hasked : asked.classifier = {})
    (disk : Reader) :
    let out := world.reported project extensions asked limit
    (∀ report, out.1 = .ok report → ∃ files, world.sources project extensions = .ok files ∧
      report = .ofFindings (files.filterMap (SourceFile.finding? disk)) ∧
      out.2.events.filter Event.isReadError =
        (files.filterMap (SourceFile.readError? (World.placeOf project))).reverse) ∧
    (limit = .unlimited → ∀ files, world.sources project extensions = .ok files →
      ∃ report, out.1 = .ok report) := by
  rw [World.reported]
  cases world.sources project extensions with
  | error failure =>
      exact ⟨fun report hreport => by contradiction, fun _ files hfiles => by contradiction⟩
  | ok files =>
      let scan : Scan := ⟨world.memory, [], world.call limit⟩
      obtain ⟨hfound, hnever⟩ :=
        @Scan.scanFrom_usual asked (World.placeOf project) none [] files scan h.memory hasked disk
      dsimp only
      rw [outcome_reportOn]
      cases hout : (Scan.scanFrom asked (World.placeOf project) none [] files).outcome scan with
      | mk result after =>
        rw [hout] at hfound hnever
        dsimp only at hfound hnever ⊢
        constructor
        · intro report hreport
          rcases hfound with rfl | ⟨rfl, htold⟩
          · contradiction
          · refine ⟨files, rfl, (Except.ok.inj hreport).symm, ?_⟩
            rw [htold]
            exact List.append_nil _
        · rintro rfl _ hfiles
          rcases hfound with hcancelled | ⟨rfl, -⟩
          · exact absurd hcancelled (hnever rfl)
          · exact ⟨_, rfl⟩

/-- What is said, and what the log is told, when a command asks for a report. -/
lemma step_report (world : World) (project : Text) (extensions : List Text)
    (cache : Option String) (limit : Limit) :
    let answer := (step world (.report project extensions cache limit)).1
    let out := (world.cache cache).2.1.reported project extensions (world.cache cache).1 limit
    answer.said = (Answer.ofOutcome Said.report out.1).said ∧
      answer.events = (world.cache cache).2.2 ++ out.2.events.reverse := by
  let ready := (world.cache cache).2.1
  let asked := (world.cache cache).1
  constructor
  · change (ready.report project extensions asked limit).1.said = _
    rw [World.report_eq]
  · change (world.cache cache).2.2 ++ (ready.report project extensions asked limit).1.events = _
    rw [World.report_eq]

lemma said_ofOutcome_eq_report_iff {result : Except Failure Report} {report : Report} :
    (Answer.ofOutcome Said.report result).said = .report report ↔ result = .ok report := by
  cases result <;> simp [Answer.ofOutcome]

/-- **A report says what is found without a cache**, whatever came before: what is to be reported of
each source file, in order, and how many there are. A file that cannot be read is left out, unless
its name says all, and the log is told of it. A call that nothing cancels gets its report. -/
theorem report_is_uncached {disk : Disk} {environment : Environment}
    (hdisk : Disk.WellNamed disk)
    (hreach : Reaches (fun _ => True) { disk := disk, environment := environment } world)
    (hcache : (world.cache cache).1.classifier = {}) (project : Text) (extensions : List Text)
    (limit : Limit) :
    let answer := (step world (.report project extensions cache limit)).1
    (∀ report, answer.said = .report report → ∃ files,
      world.sources project extensions = .ok files ∧
      (step world (.sourceFiles project extensions (.own true))).1.said =
        .paths (files.map (·.path)) ∧
      report.findings = files.filterMap (SourceFile.finding? world.reader) ∧
      report.totalFiles = report.findings.length ∧
      report.generatedCount = (report.findings.filter (·.generated)).length ∧
      answer.events.filter Event.isReadError =
        files.filterMap (SourceFile.readError? (World.placeOf project))) ∧
    (limit = .unlimited → ∀ files, world.sources project extensions = .ok files →
      ∃ report, answer.said = .report report) := by
  intro answer
  have hready : (world.cache cache).2.1.WellFormed :=
    (wellFormed_of_reaches hdisk hreach).cache cache
  obtain ⟨hreport, hunlimited⟩ :=
    @reported_usual _ project extensions limit hready _ hcache world.reader
  rw [sources_cache] at hreport hunlimited
  obtain ⟨hsaid, hevents⟩ := step_report world project extensions cache limit
  refine ⟨fun report hanswer => ?_, fun hlimit files hfiles => ?_⟩
  · obtain ⟨files, hfiles, rfl, htold⟩ :=
      hreport report (said_ofOutcome_eq_report_iff.1 (hsaid.symm.trans hanswer))
    refine ⟨files, hfiles, ?_, rfl, rfl, List.countP_eq_length_filter, ?_⟩
    · change (world.sourceFiles project extensions (.own true)).said = _
      rw [World.sourceFiles_own, hfiles]
      rfl
    · rw [hevents, List.filter_append, readErrors_cache, List.filter_reverse, htold,
        List.reverse_reverse, List.nil_append]
  · obtain ⟨report, hresult⟩ := hunlimited hlimit files hfiles
    exact ⟨report, hsaid.trans (said_ofOutcome_eq_report_iff.2 hresult)⟩

/-! ### A project with one file -/

/-- A disk with one file on it, which has these bytes. -/
def diskOfOne (bytes : List UInt8) : Disk :=
  { nodes := [.file "a.cs".toList (.ok bytes)] }

lemma wellNamed_diskOfOne (bytes : List UInt8) : (diskOfOne bytes).WellNamed :=
  .intro (by simp [diskOfOne, Node.name]; decide) (by simp [diskOfOne]) (by simp [diskOfOne])

/-- Such a disk is a project with that file. -/
lemma sources_of_one {bytes : List UInt8} (h : world.disk = diskOfOne bytes) :
    world.sources [] [".cs".toList] =
      keptSourceFiles [".cs".toList] [.file "a.cs".toList (.ok bytes)] := by
  have hshort : ∀ names ∈ [[], [ownFile], ["a.cs".toList]],
      (diskOfOne bytes).isTooLong (.inside []) names = false := by
    change ∀ names ∈ [[], [ownFile], ["a.cs".toList]],
      ({} : Disk).isTooLong (.inside []) names = false
    decide
  simp only [List.forall_mem_cons] at hshort
  obtain ⟨htop, hownShort, hfileShort, -⟩ := hshort
  have hown : (diskOfOne bytes).find (Path.entryOf [] ownFile) = .error .notFound := by
    have hnames : Path.names (Path.entryOf [] ownFile) = [ownFile] := by decide
    have hstart : Disk.startOf (Path.entryOf [] ownFile) = .inside [] := by decide
    have hnode : Disk.node? (diskOfOne bytes).nodes [ownFile] = none := rfl
    have habsence : Disk.absence ownFile = .notFound := by decide
    rw [Disk.find, hnames, hstart, Disk.nodeAt_of_short hownShort, Disk.follow]
    rw [if_neg (by decide), if_neg (by decide), List.nil_append, hnode, habsence]
  have hlisting : (diskOfOne bytes).listing [] = [.file "a.cs".toList (.ok bytes)] := by
    have hnodes : (diskOfOne bytes).nodes = [.file "a.cs".toList (.ok bytes)] := rfl
    have hnames : Path.names [] ++ ["a.cs".toList] = ["a.cs".toList] := rfl
    rw [Disk.listing_eq (Disk.find_nil htop), Disk.entries_eq_map, hnodes, List.map_singleton,
      Disk.entry, hnames, hfileShort]
    rfl
  rw [World.sources, World.entries, h, hown, hlisting]
  rfl

/-- A file whose tree is made where one died of which the cache has another answer. -/
theorem report_is_uncached_at_old_address :
    let disk := diskOfOne []
    let world := (run { disk := disk }
      [.tree "old" "a.g.cs".toList (.text []) false, .generated "old" none .unlimited,
        .drop "old"]).2
    let answer := (step world (.report [] [".cs".toList] none .unlimited)).1
    (world.memory.slot 0).table = some [⟨1, ⟨0, 1, false, "old"⟩, true⟩] ∧
    Disk.WellNamed disk ∧ (world.cache none).1.classifier = {} ∧
    (∀ report, answer.said = .report report → ∃ files,
      world.sources [] [".cs".toList] = .ok files ∧
      (step world (.sourceFiles [] [".cs".toList] (.own true))).1.said =
        .paths (files.map (·.path)) ∧
      report.findings = files.filterMap (SourceFile.finding? world.reader) ∧
      report.totalFiles = report.findings.length ∧
      report.generatedCount = (report.findings.filter (·.generated)).length ∧
      answer.events.filter Event.isReadError =
        files.filterMap (SourceFile.readError? (World.placeOf []))) ∧
    ∃ report, answer.said = .report report := by
  intro disk world answer
  have hdisk : Disk.WellNamed disk := wellNamed_diskOfOne []
  have hreach : Reaches (fun _ => True) { disk := disk } world := reaches_run _ (by simp)
  have hcache : (world.cache none).1.classifier = {} := rfl
  obtain ⟨hreport, hunlimited⟩ :=
    report_is_uncached hdisk hreach hcache [] [".cs".toList] .unlimited
  refine ⟨rfl, hdisk, hcache, hreport, ?_⟩
  have hkept : (keptSourceFiles [".cs".toList]
      [.file "a.cs".toList (.ok { bytes := [] })]).toOption.isSome = true := by decide +kernel
  cases hfiles : keptSourceFiles [".cs".toList] [.file "a.cs".toList (.ok { bytes := [] })] with
  | error failure =>
      rw [hfiles] at hkept
      contradiction
  | ok files => exact hunlimited rfl files ((sources_of_one rfl).trans hfiles)

end Session

end GeneratedCode
