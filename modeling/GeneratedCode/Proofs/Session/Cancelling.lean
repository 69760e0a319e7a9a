import Mathlib.Tactic
import GeneratedCode.Proofs.Project.Pace
import GeneratedCode.Proofs.Session.Report
import GeneratedCode.Proofs.Session.Turns

/-!
Cancelling a report is exact.

A report makes the checks of its source files (`Project.SourceFile.checks`), whatever was asked
before. One that may make as many checks is the same as one that nothing cancels, and any other
ends at the first check that it may not make. `cancelling_a_report_is_exact` is the main result;
it puts together how many checks a scan makes (`Project.Scan.paced_scanFrom`), what it finds
(`Project.Scan.scanFrom_usual`) and what it tells the log by the time that it is cut short
(`Project.Scan.exists_readErrors_scanFrom`).
-/

namespace GeneratedCode

open Cache Project

namespace Session

variable {world : World} {project : Text} {extensions : List Text} {cache : Option String}
  {limit : Limit} {files : List SourceFile} {asked : CacheRef}

/-- What a report on some files says. -/
def reportOf (world : World) (files : List SourceFile) : Report :=
  .ofFindings (files.filterMap (SourceFile.finding? world.reader))

/-- What becomes of a report that may make `k` checks: it is the one that is due, or it is cancelled
at the check behind those, and the log has been told of no file that cannot be read but of those
that came before. -/
structure CancelsExactly (report : Report) (files : List SourceFile) (place : Text) (k : ℕ)
    (answer : Answer) : Prop where
  enough : (files.map SourceFile.checks).sum ≤ k → answer.said = .report report ∧
    answer.failure = none ∧ answer.checks = (files.map SourceFile.checks).sum
  short : k < (files.map SourceFile.checks).sum → answer.said = .nothing ∧
    answer.failure = some .cancelled ∧ answer.checks = k + 1 ∧
    ∃ n, answer.events.filter Event.isReadError =
      (files.take n).filterMap (SourceFile.readError? place)

/-! ### Reporting -/

/-- A call that affords the checks of the files gets its report. -/
lemma reported_of_affords (h : world.memory.Numbered) (hasked : asked.classifier = {})
    (hfiles : world.sources project extensions = .ok files)
    (htoken : (world.call limit).token = none)
    (haffords : (world.call limit).affords (files.map SourceFile.checks).sum = true) :
    let out := world.reported project extensions asked limit
    out.1 = .ok (reportOf world files) ∧
      out.2.inner.checks = (world.call limit).checks + (files.map SourceFile.checks).sum := by
  obtain ⟨after, hafter, hreaches⟩ :=
    (@Scan.paced_scanFrom asked (World.placeOf project) none [] files hasked
      world.reader).afforded ⟨world.memory, [], world.call limit⟩ ⟨h, htoken⟩ haffords
  rw [World.reported, hfiles]
  dsimp only
  rw [outcome_reportOn, hafter]
  exact ⟨rfl, hreaches.checks_eq⟩

/-- Any other call is cancelled. -/
lemma reported_of_poor (h : world.memory.Numbered) (hasked : asked.classifier = {})
    (hfiles : world.sources project extensions = .ok files)
    (htoken : (world.call limit).token = none)
    (hpoor : (world.call limit).affords (files.map SourceFile.checks).sum = false) :
    let out := world.reported project extensions asked limit
    out.1 = .error .cancelled ∧ out.2.inner.checks = (world.call limit).overdrawn.checks ∧
      ∃ n, out.2.events.filter Event.isReadError =
        ((files.take n).filterMap (SourceFile.readError? (World.placeOf project))).reverse := by
  obtain ⟨after, hafter, hreaches⟩ :=
    (@Scan.paced_scanFrom asked (World.placeOf project) none [] files hasked
      world.reader).overdrawn ⟨world.memory, [], world.call limit⟩ ⟨h, htoken⟩ hpoor
  obtain ⟨n, htold⟩ := @Scan.exists_readErrors_scanFrom asked (World.placeOf project) none []
    files ⟨world.memory, [], world.call limit⟩ hasked h
  rw [hafter] at htold
  rw [World.reported, hfiles]
  dsimp only
  rw [outcome_reportOn, hafter]
  exact ⟨rfl, hreaches.checks_eq, n, htold.trans (List.append_nil _)⟩

/-- No call gets any other report. -/
lemma eq_reportOf_of_reported (h : world.memory.Numbered) (hasked : asked.classifier = {})
    (hfiles : world.sources project extensions = .ok files) {report : Report}
    (hreport : (world.reported project extensions asked limit).1 = .ok report) :
    report = reportOf world files := by
  obtain ⟨hfound, -⟩ := @Scan.scanFrom_usual asked (World.placeOf project) none [] files
    ⟨world.memory, [], world.call limit⟩ h hasked world.reader
  rw [World.reported, hfiles] at hreport
  dsimp only at hreport hfound
  rw [outcome_reportOn] at hreport
  dsimp only at hreport
  rcases hfound with hcancelled | ⟨hok, -⟩
  · rw [hcancelled] at hreport
    contradiction
  · rw [hok] at hreport
    exact (Except.ok.inj hreport).symm

/-- What a command for a report fails with, and how many checks it makes. -/
lemma failure_step_report (world : World) (project : Text) (extensions : List Text)
    (cache : Option String) (limit : Limit) :
    let answer := (step world (.report project extensions cache limit)).1
    let out := (world.cache cache).2.1.reported project extensions (world.cache cache).1 limit
    answer.failure = (Answer.ofOutcome Said.report out.1).failure ∧
      answer.checks = out.2.inner.checks := by
  let ready := (world.cache cache).2.1
  let asked := (world.cache cache).1
  constructor
  · change (ready.report project extensions asked limit).1.failure = _
    rw [World.report_eq]
  · change (ready.report project extensions asked limit).1.checks = _
    rw [World.report_eq]

/-- There is a report only where there are files to scan. -/
lemma exists_sources_of_reported {report : Report}
    (h : (world.reported project extensions asked limit).1 = .ok report) :
    ∃ files, world.sources project extensions = .ok files := by
  rw [World.reported] at h
  cases hsources : world.sources project extensions with
  | ok files => exact ⟨files, rfl⟩
  | error failure =>
      rw [hsources] at h
      contradiction

/-- **Cancelling a report is exact**: if a call that nothing cancels gets a report, from a cache
with the usual tests, it makes the checks of the source files of the project. So does any call that
may make as many, and gets the same report; one that may not is cancelled at the first check too
many. No call gets a report that says less. -/
theorem cancelling_a_report_is_exact {disk : Disk} {environment : Environment} {report : Report}
    (hreach : Reaches (fun _ => True) { disk := disk, environment := environment } world)
    (hcache : (world.cache cache).1.classifier = {})
    (hreport : (step world (.report project extensions cache .unlimited)).1.said =
      .report report) :
    ∃ files, world.sources project extensions = .ok files ∧
      (step world (.sourceFiles project extensions (.own true))).1.said =
        .paths (files.map (·.path)) ∧
      (step world (.report project extensions cache .unlimited)).1.checks =
        (files.map SourceFile.checks).sum ∧
      (∀ k, CancelsExactly report files (World.placeOf project) k
        (step world (.report project extensions cache (.checks k))).1) ∧
      ∀ limit other, (step world (.report project extensions cache limit)).1.said =
        .report other → other = report := by
  let ready := (world.cache cache).2.1
  have hnumbered : ready.memory.Numbered :=
    ((World.tidy_of_reaches hreach).tidy_cache cache).memory.numbered
  have hsaid (limit : Limit) := (step_report world project extensions cache limit).1
  have hevents (limit : Limit) := (step_report world project extensions cache limit).2
  obtain ⟨files, hfiles⟩ := exists_sources_of_reported
    (said_ofOutcome_eq_report_iff.1 ((hsaid .unlimited).symm.trans hreport))
  have hsame {limit : Limit} {other : Report}
      (hother : (step world (.report project extensions cache limit)).1.said = .report other) :
      other = reportOf ready files :=
    eq_reportOf_of_reported hnumbered hcache hfiles
      (said_ofOutcome_eq_report_iff.1 ((hsaid limit).symm.trans hother))
  obtain rfl := hsame hreport
  refine ⟨files, by rw [← sources_cache world cache, hfiles], ?_, ?_, fun k => ⟨fun hk => ?_,
    fun hk => ?_⟩, fun limit other => hsame⟩
  · change (world.sourceFiles project extensions (.own true)).said = _
    rw [World.sourceFiles_own, ← sources_cache world cache, hfiles]
    rfl
  · have hfree : (ready.call .unlimited).affords (files.map SourceFile.checks).sum = true :=
      Call.affords_of_allowed_none rfl _
    obtain ⟨-, hchecks⟩ := reported_of_affords hnumbered hcache hfiles rfl hfree
    rw [(failure_step_report world project extensions cache .unlimited).2, hchecks]
    exact Nat.zero_add _
  · have haffords : (ready.call (.checks k)).affords (files.map SourceFile.checks).sum = true := by
      rw [World.call, Call.affords_allowing, decide_eq_true hk]
    obtain ⟨hok, hchecks⟩ := reported_of_affords hnumbered hcache hfiles rfl haffords
    obtain ⟨hfailure, hcount⟩ := failure_step_report world project extensions cache (.checks k)
    rw [hsaid, hfailure, hcount, hok, hchecks]
    exact ⟨rfl, rfl, Nat.zero_add _⟩
  · have hpoor : (ready.call (.checks k)).affords (files.map SourceFile.checks).sum = false := by
      rw [World.call, Call.affords_allowing, decide_eq_false (by omega)]
    obtain ⟨hcancelled, hchecks, n, htold⟩ := reported_of_poor hnumbered hcache hfiles rfl hpoor
    obtain ⟨hfailure, hcount⟩ := failure_step_report world project extensions cache (.checks k)
    rw [hsaid, hfailure, hcount, hevents, hcancelled, hchecks, List.filter_append,
      readErrors_cache, List.filter_reverse, htold, List.reverse_reverse, List.nil_append]
    exact ⟨rfl, rfl, Call.overdrawn_allowing_checks k, n, rfl⟩

/-- A project with a file that has to be read. -/
theorem cancelling_a_report_is_exact_of_file :
    let disk := diskOfOne (Text.Utf8.encode "//\nclass é".toList)
    let world := (run { disk := disk } [.newCache "c" (.bound 2048 false) {}]).2
    (world.cache (some "c")).1.classifier = {} ∧
    ∃ report, (step world (.report [] [".cs".toList] (some "c") .unlimited)).1.said =
        .report report ∧
      ∃ files, world.sources [] [".cs".toList] = .ok files ∧
        (step world (.sourceFiles [] [".cs".toList] (.own true))).1.said =
          .paths (files.map (·.path)) ∧
        (step world (.report [] [".cs".toList] (some "c") .unlimited)).1.checks =
          (files.map SourceFile.checks).sum ∧
        (∀ k, CancelsExactly report files (World.placeOf []) k
          (step world (.report [] [".cs".toList] (some "c") (.checks k))).1) ∧
        ∀ limit other, (step world (.report [] [".cs".toList] (some "c") limit)).1.said =
          .report other → other = report := by
  intro disk world
  have hreach : Reaches (fun _ => True) { disk := disk } world := reaches_run _ (by simp)
  have hsources : world.sources [] [".cs".toList] = keptSourceFiles [".cs".toList]
      [.file "a.cs".toList (.ok (Text.Utf8.encode "//\nclass é".toList))] := sources_of_one rfl
  have hkept : (keptSourceFiles [".cs".toList] [.file "a.cs".toList
      (.ok (Text.Utf8.encode "//\nclass é".toList))]).toOption.isSome = true := by decide +kernel
  cases hfiles : keptSourceFiles [".cs".toList]
      [.file "a.cs".toList (.ok (Text.Utf8.encode "//\nclass é".toList))] with
  | error failure =>
      rw [hfiles] at hkept
      contradiction
  | ok files =>
      have hcache : (world.cache (some "c")).1.classifier = {} := rfl
      have hfree : (world.call .unlimited).affords (files.map SourceFile.checks).sum = true :=
        Call.affords_of_allowed_none rfl _
      obtain ⟨hok, -⟩ := reported_of_affords (World.tidy_of_reaches hreach).memory.numbered hcache
        (hsources.trans hfiles) rfl hfree
      have hreport := (step_report world [] [".cs".toList] (some "c") .unlimited).1.trans
        (said_ofOutcome_eq_report_iff.2 hok)
      exact ⟨hcache, _, hreport, cancelling_a_report_is_exact hreach hcache hreport⟩

end Session

end GeneratedCode
