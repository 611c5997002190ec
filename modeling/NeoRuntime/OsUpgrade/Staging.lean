import Mathlib.Data.List.Basic
import Mathlib.Logic.Function.Basic
import NeoRuntime.Lib.Prog

/-!
# Staging the bundled recovery on the boot partition

`Runner.stageBundledRecovery` (platform/osupgrade/runner.go) copies the two files of a recovery
bundle to the boot partition, keeping what it overwrites in the job's `boot-backup` directory.  The
directories are maps from names to contents (`Disk`).  Each file operation is made at most once, so
a set of failing operations (`Faults`) describes every pattern of failures.
-/

namespace NeoRuntime.OsUpgrade

abbrev Content := List UInt8

inductive Dir where
  | bundle
  | boot
  | backup
  deriving DecidableEq, Repr

abbrev Path := Dir × String

abbrev Disk := Path → Option Content

def Disk.boot (d : Disk) (name : String) : Option Content := d (.boot, name)

/-- What `os.Stat` reports: an existing file, `os.IsNotExist`, or another error. -/
inductive StatResult where
  | found
  | notExist
  | failed
  deriving DecidableEq, Repr

/-- The file operations of a staging run; the answer `true` is the nil error. -/
inductive FileOp : Type → Type where
  | mkdirAll (dir : Dir) : FileOp Bool
  | stat (path : Path) : FileOp StatResult
  | copyFileAtomic (source destination : Path) : FileOp Bool
  | remove (path : Path) : FileOp Bool

abbrev FileProg := Prog FileOp

abbrev Faults := (β : Type) → FileOp β → Bool

/-- The file operations.  A failing copy leaves its destination; a missing source makes it fail; a
missing file counts as removed. -/
def fileHandler (faults : Faults) : Handler FileOp Disk
  | _, .mkdirAll dir, d => (!faults _ (.mkdirAll dir), d)
  | _, .stat path, d =>
      (if faults _ (.stat path) then .failed else if (d path).isSome then .found else .notExist, d)
  | _, .copyFileAtomic source destination, d =>
      match d source with
      | some content =>
          if faults _ (.copyFileAtomic source destination) then (false, d)
          else (true, Function.update d destination (some content))
      | none => (false, d)
  | _, .remove path, d =>
      if faults _ (.remove path) then (false, d) else (true, Function.update d path none)

def mkdirAll (dir : Dir) : FileProg Bool := Prog.perform (.mkdirAll dir)

def stat (path : Path) : FileProg StatResult := Prog.perform (.stat path)

def copyFileAtomic (source destination : Path) : FileProg Bool :=
  Prog.perform (.copyFileAtomic source destination)

def remove (path : Path) : FileProg Bool := Prog.perform (.remove path)

/-- A recovery bundle as `LoadRecoveryBundle` returns it: `recoveryArtifactPath` has checked the
prefixes of the two file names. -/
structure RecoveryBundle where
  fitFile : String
  rootFile : String
  fit_prefix : "fitImage".toList <+: fitFile.toList
  root_prefix : "swupdate-image".toList <+: rootFile.toList

structure StagedFile where
  source : Path
  destination : Path
  backup : Path
  existed : Bool
  deriving DecidableEq, Repr

def StagedFile.fresh (name : String) : StagedFile :=
  { source := (.bundle, name), destination := (.boot, name), backup := (.backup, name),
    existed := false }

def stagedFiles (bundle : RecoveryBundle) : List StagedFile :=
  [.fresh bundle.fitFile, .fresh bundle.rootFile]

/-- The `restore` closure: every file is put back, or removed without its `existed` flag. -/
def restore : List StagedFile → FileProg Bool
  | [] => pure true
  | file :: files => do
      let ok ← if file.existed then copyFileAtomic file.backup file.destination
        else remove file.destination
      let rest ← restore files
      pure (ok && rest)

/-- The staging loop at the entry `file`.  On success it answers the entries that the closure
captures. -/
def stageLoop (done : List StagedFile) : List StagedFile → FileProg (Option (List StagedFile))
  | [] => pure (some done)
  | file :: files => do
      let copy (file : StagedFile) : FileProg (Option (List StagedFile)) := do
        let copied ← copyFileAtomic file.source file.destination
        if copied then stageLoop (done ++ [file]) files
        else
          let _ ← restore (done ++ file :: files)
          pure none
      match ← stat file.destination with
      | .found =>
          let saved ← copyFileAtomic file.destination file.backup
          if saved then copy { file with existed := true } else pure none
      | .notExist => copy file
      | .failed => pure none

def stageBundledRecovery (bundle : RecoveryBundle) : FileProg (Option (List StagedFile)) := do
  let made ← mkdirAll .backup
  if made then stageLoop [] (stagedFiles bundle) else pure none

end NeoRuntime.OsUpgrade
