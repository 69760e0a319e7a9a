import GeneratedCode.Cache.Classifier
import GeneratedCode.Memory
import GeneratedCode.Project.SourceFile

/-!
Reports: which source files of a project are generated, and why.

A scan goes through the source files of a project (`scanFrom`). For each it makes a check, makes a
tree that lives until the next one is made, and asks a cache about it. The cache sees the bare
name of the file, so the rules on names hold in every directory. A file that cannot be read is left
out, and the log is told; nothing else stops short of ending the scan.
-/

namespace GeneratedCode

namespace Project

open Cache

/-- Why a file is taken to be generated. -/
inductive Reason where
  | fileName
  | comment
  deriving DecidableEq, Repr

/-- What a report says of a file. -/
structure Finding where
  path : Text
  generated : Bool
  reason : Option Reason
  deriving DecidableEq, Repr

namespace Finding

/-- What is said of a file, given the answer for it. -/
def ofAnswer (file : SourceFile) (generated : Bool) : Finding where
  path := file.path
  generated := generated
  reason :=
    if !generated then none
    else if FileName.isGenerated file.name then some .fileName
    else some .comment

end Finding

/-- The report of a project: what is said of its source files, how many they are, and how many of
them are generated. -/
structure Report where
  findings : List Finding
  totalFiles : Nat
  generatedCount : Nat
  deriving DecidableEq, Repr

/-- The report that says this of the files. -/
def Report.ofFindings (findings : List Finding) : Report where
  findings := findings
  totalFiles := findings.length
  generatedCount := findings.countP (·.generated)

/-- A cache: the number of its slot, and its tests. -/
structure CacheRef where
  slot : Nat
  classifier : Classifier
  deriving Repr

/-- The state of a scan: the trees that live and the slots, what the log was told, and what the
call has done. -/
abbrev Scan := Inquiry Memory Call

namespace Scan

/-- Makes the tree of the next file, and lets go of the one before it. -/
def nextTree (previous : Option Handle) : Attempt Scan Handle := do
  let scan ← get
  let (tree, memory) := scan.store.create false ""
  set { scan with store := previous.elim memory memory.release }
  return tree

/-- Asks the cache about a tree over a file, which reports the bare name of the file. -/
def ask (cache : CacheRef) (tree : Handle) (file : SourceFile) : Attempt Scan Bool :=
  let source := Source.file file.path "utf-8" Token.pieceSize
  let inquire := Memory.isGenerated cache.slot tree file.name cache.classifier.byName
    (cache.classifier.byComment fun _ => file.content.mapError .cannotRead)
  inquire.focus
    (fun scan => ⟨scan.store, scan.events, ⟨⟨file.name, source, none, 0⟩, scan.inner⟩⟩)
    (fun _ after => ⟨after.store, after.events, after.inner.call⟩)

/-- A computation's answer, or why a file could not be read; any other failure goes on. -/
def orFileError {α : Type} (x : Attempt Scan α) : Attempt Scan (Except FileError α) :=
  ExceptT.mk fun scan =>
    match x.outcome scan with
    | (.ok a, scan) => (.ok (.ok a), scan)
    | (.error (.cannotRead why), scan) => (.ok (.error why), scan)
    | (.error failure, scan) => (.error failure, scan)

/-- Scans files; `previous` is the tree of the file before them, and `found` what was found so far,
the latest first. Paths are told to the log as those below `place`. -/
def scanFrom (cache : CacheRef) (place : Text) (previous : Option Handle) (found : List Finding) :
    List SourceFile → Attempt Scan (List Finding)
  | [] => return found.reverse
  | file :: files => do
      Inquiry.onInner check
      let tree ← nextTree previous
      match ← orFileError (ask cache tree file) with
      | .ok generated =>
          scanFrom cache place (some tree) (Finding.ofAnswer file generated :: found) files
      | .error why =>
          Inquiry.tell (.readError (Path.entryOf place file.path) why)
          scanFrom cache place (some tree) found files

end Scan

/-- The report of a project: what is found of its source files. The trees that the scan makes do
not outlive it. -/
def report (cache : CacheRef) (place : Text) (extensions : List Text) (entries : List Entry) :
    Attempt Scan Report := do
  let files ← Attempt.ofExcept (keptSourceFiles extensions entries)
  let findings ← (Scan.scanFrom cache place none [] files).focus id fun before after =>
    { after with store := { after.store with held := before.store.held } }
  return .ofFindings findings

end Project

end GeneratedCode
