import Mathlib.Tactic
import GeneratedCode.Session.Step

/-!
What a session answers about a project.

The source files of a project by its own rules (`World.sources`) are what both commands on it work
with: one lists their paths (`sourceFiles_own`), the other scans them (`report_eq`).
-/

namespace GeneratedCode

open Cache

/-- What stands behind a computation that has its outcome already. -/
lemma outcome_ofExcept_bind {σ α β : Type} (r : Except Failure α) (f : α → Attempt σ β) (s : σ) :
    (Attempt.ofExcept r >>= f).outcome s =
      match r with
      | .ok a => (f a).outcome s
      | .error failure => (.error failure, s) := by
  cases r <;> rfl

namespace Project

variable {cache : CacheRef} {place : Text} {extensions : List Text}

/-- What a report makes of the files that a project keeps. -/
def reportOn (cache : CacheRef) (place : Text) (files : List SourceFile) : Attempt Scan Report := do
  let findings ← (Scan.scanFrom cache place none [] files).focus id fun before after =>
    { after with store := { after.store with held := before.store.held } }
  return .ofFindings findings

lemma outcome_reportOn (files : List SourceFile) (scan : Scan) :
    (reportOn cache place files).outcome scan =
      let out := (Scan.scanFrom cache place none [] files).outcome scan
      (out.1.map Report.ofFindings,
        { out.2 with store := { out.2.store with held := scan.store.held } }) := by
  rw [reportOn, Attempt.outcome_bind, Attempt.outcome_focus, id_eq]
  cases (Scan.scanFrom cache place none [] files).outcome scan with
  | mk result after => cases result <;> rfl

lemma report_eq_bind (entries : List Entry) :
    report cache place extensions entries =
      Attempt.ofExcept (keptSourceFiles extensions entries) >>= reportOn cache place := rfl

end Project

namespace Session

namespace World

variable {world : World} {project : Text} {extensions : List Text}

/-- The source files of a project by its own rules. -/
def sources (world : World) (project : Text) (extensions : List Text) :
    Except Failure (List Project.SourceFile) := do
  let entries ← world.entries project
  enter project
  Project.keptSourceFiles extensions entries

/-- One command lists the source files. -/
lemma sourceFiles_own :
    world.sourceFiles project extensions (.own true) =
      Answer.ofOutcome (fun files => .paths (files.map (·.path)))
        (world.sources project extensions) := by
  rw [sourceFiles, sources]
  cases world.entries project with
  | error failure => rfl
  | ok entries =>
      cases henter : enter project with
      | error failure => rfl
      | ok _ =>
          simp only [Bind.bind, Except.bind, Project.keptSourceFiles]
          cases Project.rules entries true <;> rfl

/-- How a path below a project is told to the log. -/
def placeOf (project : Text) : Text :=
  Path.joinSlash (Path.collapse (Path.names project))

/-- What reporting on a project comes to: a report, or why there is none, and what the scan leaves.
-/
def reported (world : World) (project : Text) (extensions : List Text) (cache : Project.CacheRef)
    (limit : Limit) : Except Failure Project.Report × Project.Scan :=
  let scan : Project.Scan := ⟨world.memory, [], world.call limit⟩
  match world.sources project extensions with
  | .error failure => (.error failure, scan)
  | .ok files => (Project.reportOn cache (placeOf project) files).outcome scan

/-- The other command scans them. -/
lemma report_eq (cache : Project.CacheRef) (limit : Limit) :
    world.report project extensions cache limit =
      let (result, after) := world.reported project extensions cache limit
      let last := ({ world with memory := after.store } : World).afterCall after.inner
      ({ Answer.ofOutcome .report result with
          live := some (last.liveEntries cache)
          checks := after.inner.checks
          events := after.events.reverse },
        last) := by
  let scan : Project.Scan := ⟨world.memory, [], world.call limit⟩
  have hscan : (do
      let entries ← Attempt.ofExcept (world.entries project)
      Attempt.ofExcept (enter project)
      Project.report cache (placeOf project) extensions entries :
        Attempt Project.Scan Project.Report).outcome scan =
      world.reported project extensions cache limit := by
    rw [reported, sources, outcome_ofExcept_bind]
    cases world.entries project with
    | error failure => rfl
    | ok entries =>
        dsimp only
        rw [outcome_ofExcept_bind]
        cases henter : enter project with
        | error failure => rfl
        | ok _ =>
            simp only [Bind.bind, Except.bind]
            rw [Project.report_eq_bind, outcome_ofExcept_bind]
            cases Project.keptSourceFiles extensions entries <;> rfl
  rw [← hscan]
  rfl

end World

end Session

end GeneratedCode
