import NeoRuntime.OsUpgrade.Staging

/-!
# When a failed staging leaves the boot partition as it was

One iteration of the staging loop is described by `run_stageLoop_cons`, one entry of the restore
closure by `undone`.  Following the two files through both gives the exact condition (`Spoils`)
under which an error of `stageBundledRecovery` comes with a changed boot partition.
-/

namespace NeoRuntime.OsUpgrade

open Prog

section Operations

variable (faults : Faults) (d : Disk)

def copyFails (source destination : Path) : Bool :=
  faults _ (.copyFileAtomic source destination) || (d source).isNone

variable (name : String)

/-- The file has been looked at and, when it exists, saved to the backup directory. -/
def prepared : Bool :=
  !faults _ (.stat (.boot, name)) &&
    !((d.boot name).isSome && faults _ (.copyFileAtomic (.boot, name) (.backup, name)))

/-- Putting the file back to its state in `d` fails. -/
def undoFails : Bool :=
  if (d.boot name).isSome then faults _ (.copyFileAtomic (.backup, name) (.boot, name))
  else faults _ (.remove (.boot, name))

def seen : StagedFile :=
  { StagedFile.fresh name with existed := (d.boot name).isSome }

def saved : Disk :=
  if (d.boot name).isSome then Function.update d (.backup, name) (d.boot name) else d

/-- The disk after the restore closure has treated one entry. -/
def undone (file : StagedFile) (d : Disk) : Disk :=
  if file.existed then
    if copyFails faults d file.backup file.destination then d
    else Function.update d file.destination (d file.backup)
  else if faults _ (.remove file.destination) then d
  else Function.update d file.destination none

theorem run_stat (path : Path) : run (fileHandler faults) (stat path) d =
      (if faults _ (.stat path) then .failed else if (d path).isSome then .found else .notExist, d) :=
  rfl

theorem run_copyFileAtomic (source destination : Path) :
    run (fileHandler faults) (copyFileAtomic source destination) d =
      if copyFails faults d source destination then (false, d)
      else (true, Function.update d destination (d source)) := by
  unfold copyFileAtomic
  cases content : d source with
  | none => simp [fileHandler, copyFails, content]
  | some c =>
    cases fault : faults _ (.copyFileAtomic source destination) <;>
      simp [fileHandler, copyFails, content, fault]

theorem run_remove (path : Path) : run (fileHandler faults) (remove path) d =
      if faults _ (.remove path) then (false, d) else (true, Function.update d path none) := rfl

theorem run_stageLoop_cons (done files : List StagedFile) (name : String) (d : Disk) :
    run (fileHandler faults) (stageLoop done (.fresh name :: files)) d =
      if prepared faults d name then
        if copyFails faults d (.bundle, name) (.boot, name) then
          (none, (run (fileHandler faults) (restore (done ++ seen d name :: files)) (saved d name)).2)
        else run (fileHandler faults) (stageLoop (done ++ [seen d name]) files)
          (Function.update (saved d name) (.boot, name) (d (.bundle, name)))
      else (none, d) := by
  simp only [stageLoop, run_bind, run_stat, StagedFile.fresh]
  cases statFault : faults _ (.stat (.boot, name)) with
  | true => simp [prepared, statFault]
  | false =>
    cases there : d (.boot, name) with
    | none =>
      have same : seen d name = .fresh name := by simp [seen, Disk.boot, there, StagedFile.fresh]
      cases fails : copyFails faults d (.bundle, name) (.boot, name) <;>
        simp [run_bind, run_copyFileAtomic, prepared, statFault, Disk.boot, there, same, saved,
          StagedFile.fresh, fails]
    | some old =>
      have same : seen d name = { StagedFile.fresh name with existed := true } := by
        simp [seen, Disk.boot, there]
      cases saveFault : faults _ (.copyFileAtomic (.boot, name) (.backup, name)) with
      | true =>
        simp [run_bind, run_copyFileAtomic, prepared, statFault, Disk.boot, there, copyFails,
          saveFault]
      | false =>
        have saves : copyFails faults d (.boot, name) (.backup, name) = false := by
          simp [copyFails, saveFault, there]
        have source : copyFails faults (Function.update d (.backup, name) (some old))
            (.bundle, name) (.boot, name) = copyFails faults d (.bundle, name) (.boot, name) := by
          simp [copyFails, Function.update_of_ne]
        cases fails : copyFails faults d (.bundle, name) (.boot, name) <;>
          simp [run_bind, run_copyFileAtomic, prepared, statFault, Disk.boot, there, same, saved,
            StagedFile.fresh, saveFault, saves, source, fails]

theorem run_restore_cons (file : StagedFile) (files : List StagedFile) (d : Disk) :
    (run (fileHandler faults) (restore (file :: files)) d).2 =
      (run (fileHandler faults) (restore files) (undone faults file d)).2 := by
  cases existed : file.existed with
  | false =>
    simp only [restore, undone, existed, Bool.false_eq_true, ↓reduceIte, run_bind, run_remove]
    split_ifs <;> rfl
  | true =>
    simp only [restore, undone, existed, ↓reduceIte, run_bind, run_copyFileAtomic]
    split_ifs <;> rfl

theorem run_restore_nil : (run (fileHandler faults) (restore []) d).2 = d := rfl

end Operations

/-! ## The boot partition after each operation -/

section Boot

variable (faults : Faults) (d : Disk)

theorem boot_update_boot (name : String) (content : Option Content) :
    Disk.boot (Function.update d (.boot, name) content) = Function.update d.boot name content := by
  funext other
  by_cases same : other = name
  · simp [Disk.boot, same]
  · rw [Function.update_of_ne same]
    exact Function.update_of_ne (by simp [same]) _ _

theorem saved_boot (name : String) : (saved d name).boot = d.boot := by
  funext other
  unfold saved
  split_ifs
  · exact Function.update_of_ne (by simp) _ _
  · rfl

theorem saved_bundle (name file : String) : saved d name (.bundle, file) = d (.bundle, file) := by
  unfold saved
  split_ifs
  · exact Function.update_of_ne (by simp) _ _
  · rfl

theorem saved_backup (name : String) (there : (d.boot name).isSome) :
    saved d name (.backup, name) = d.boot name := by
  simp [saved, there]

theorem saved_backup_of_ne {name other : String} (ne : other ≠ name) :
    saved d name (.backup, other) = d (.backup, other) := by
  unfold saved
  split_ifs
  · exact Function.update_of_ne (by simp [ne]) _ _
  · rfl

/-- Undoing an entry on a disk that still holds its backup puts the file back, unless the
operation that does it fails. -/
theorem undone_seen_boot (e : Disk) (name : String)
    (backup : (d.boot name).isSome → e (.backup, name) = d.boot name) :
    (undone faults (seen d name) e).boot =
      if undoFails faults d name then e.boot else Function.update e.boot name (d.boot name) := by
  cases there : d.boot name with
  | none =>
    simp only [undone, seen, there, Option.isSome_none, Bool.false_eq_true, ↓reduceIte, undoFails,
      StagedFile.fresh]
    split_ifs
    · rfl
    · exact boot_update_boot e name none
  | some old =>
    have kept : e (.backup, name) = some old := by rw [backup (by simp [there]), there]
    simp only [undone, seen, there, Option.isSome_some, ↓reduceIte, undoFails, StagedFile.fresh,
      copyFails, kept, Option.isNone_some, Bool.or_false]
    split_ifs
    · rfl
    · exact boot_update_boot e name (some old)

theorem undone_backup (file : StagedFile) (e : Disk) (other : String)
    (onBoot : file.destination.1 = .boot) :
    undone faults file e (.backup, other) = e (.backup, other) := by
  have outside : ∀ content, Function.update e file.destination content (.backup, other) =
      e (.backup, other) := by
    intro content
    refine Function.update_of_ne (fun same => ?_) _ _
    rw [← same] at onBoot
    cases onBoot
  unfold undone
  split
  · split
    · rfl
    · exact outside _
  · split
    · rfl
    · exact outside _

theorem undone_fresh_boot (e : Disk) (name : String) : (undone faults (.fresh name) e).boot =
      if faults _ (.remove (.boot, name)) then e.boot else Function.update e.boot name none := by
  cases fault : faults _ (.remove (.boot, name)) <;>
    simp [undone, StagedFile.fresh, fault, boot_update_boot]

end Boot

/-! ## The two files of a bundle -/

theorem RecoveryBundle.fit_ne_root (bundle : RecoveryBundle) : bundle.fitFile ≠ bundle.rootFile := by
  intro same
  obtain ⟨_, fit⟩ := bundle.fit_prefix
  obtain ⟨_, root⟩ := bundle.root_prefix
  rw [same, ← root] at fit
  simp at fit

/-- The failure patterns that damage the boot partition, once the backup directory exists and the
kernel's old file is saved:

* copying the kernel fails while the root file exists: the restore closure finds the root file's
  `existed` flag still unset and removes it;
* the kernel was replaced by a different one, and then looking at or saving the root file fails
  (these returns skip the restore), or copying the root file fails and so does putting the kernel
  back. -/
def Spoils (faults : Faults) (bundle : RecoveryBundle) (d : Disk) : Prop :=
  faults _ (.mkdirAll .backup) = false ∧ prepared faults d bundle.fitFile = true ∧
    if copyFails faults d (.bundle, bundle.fitFile) (.boot, bundle.fitFile) then
      (d.boot bundle.rootFile).isSome ∧ faults _ (.remove (.boot, bundle.rootFile)) = false
    else
      d (.bundle, bundle.fitFile) ≠ d.boot bundle.fitFile ∧
        (prepared faults d bundle.rootFile = false ∨
          copyFails faults d (.bundle, bundle.rootFile) (.boot, bundle.rootFile) = true ∧
            undoFails faults d bundle.fitFile = true)

section Bundle

variable (faults : Faults) (bundle : RecoveryBundle) (d : Disk)

def fitStaged : Disk :=
  Function.update (saved d bundle.fitFile) (.boot, bundle.fitFile) (d (.bundle, bundle.fitFile))

theorem fitStaged_boot : (fitStaged bundle d).boot =
      Function.update d.boot bundle.fitFile (d (.bundle, bundle.fitFile)) := by
  rw [fitStaged, boot_update_boot, saved_boot]

theorem fitStaged_boot_root : (fitStaged bundle d).boot bundle.rootFile = d.boot bundle.rootFile := by
  rw [fitStaged_boot, Function.update_of_ne bundle.fit_ne_root.symm]

theorem fitStaged_bundle (name : String) :
    fitStaged bundle d (.bundle, name) = d (.bundle, name) := by
  rw [fitStaged, Function.update_of_ne (by simp), saved_bundle]

theorem fitStaged_backup (there : (d.boot bundle.fitFile).isSome) :
    fitStaged bundle d (.backup, bundle.fitFile) = d.boot bundle.fitFile := by
  rw [fitStaged, Function.update_of_ne (by simp), saved_backup d _ there]

theorem prepared_fitStaged :
    prepared faults (fitStaged bundle d) bundle.rootFile = prepared faults d bundle.rootFile := by
  simp only [prepared, fitStaged_boot_root]

theorem copyFails_fitStaged (destination : Path) :
    copyFails faults (fitStaged bundle d) (.bundle, bundle.rootFile) destination =
      copyFails faults d (.bundle, bundle.rootFile) destination := by
  simp only [copyFails, fitStaged_bundle]

/-- Copying the kernel failed: the closure removes a root file it has not looked at. -/
theorem restore_unseen_boot :
    (run (fileHandler faults) (restore [seen d bundle.fitFile, .fresh bundle.rootFile])
      (saved d bundle.fitFile)).2.boot =
      if faults _ (.remove (.boot, bundle.rootFile)) then d.boot
      else Function.update d.boot bundle.rootFile none := by
  have kept : (undone faults (seen d bundle.fitFile) (saved d bundle.fitFile)).boot = d.boot := by
    rw [undone_seen_boot _ _ _ _ (saved_backup d bundle.fitFile), saved_boot]
    split_ifs
    · rfl
    · exact Function.update_eq_self _ _
  rw [run_restore_cons, run_restore_cons, run_restore_nil, undone_fresh_boot, kept]

/-- Copying the root file failed: the closure puts the kernel back if it can. -/
theorem restore_seen_boot : (run (fileHandler faults)
      (restore [seen d bundle.fitFile, seen (fitStaged bundle d) bundle.rootFile])
      (saved (fitStaged bundle d) bundle.rootFile)).2.boot =
      if undoFails faults d bundle.fitFile then (fitStaged bundle d).boot else d.boot := by
  have ne := bundle.fit_ne_root
  have fitBack : (undone faults (seen d bundle.fitFile)
      (saved (fitStaged bundle d) bundle.rootFile)).boot =
      if undoFails faults d bundle.fitFile then (fitStaged bundle d).boot else d.boot := by
    rw [undone_seen_boot, saved_boot]
    · split_ifs
      · rfl
      · rw [fitStaged_boot, Function.update_idem, Function.update_eq_self]
    · intro there
      rw [saved_backup_of_ne _ ne, fitStaged_backup bundle d there]
  rw [run_restore_cons, run_restore_cons, run_restore_nil, undone_seen_boot, fitBack]
  · -- the root file was not replaced, so putting it back changes nothing
    have rootSame := fitStaged_boot_root bundle d
    cases undoFails faults d bundle.fitFile
    · simp only [Bool.false_eq_true, ↓reduceIte, rootSame, Function.update_eq_self, ite_self]
    · simp only [↓reduceIte, Function.update_eq_self, ite_self]
  · intro there
    rw [undone_backup _ _ _ _ rfl, saved_backup _ _ there]

/-- The result of a staging run: an error, and the boot partition it leaves behind. -/
def FailsAndChanges : Prop :=
  (run (fileHandler faults) (stageBundledRecovery bundle) d).1 = none ∧
    (run (fileHandler faults) (stageBundledRecovery bundle) d).2.boot ≠ d.boot

theorem update_ne_self_iff (name : String) (content : Option Content) :
    Function.update d.boot name content ≠ d.boot ↔ content ≠ d.boot name := by
  rw [Ne, Function.update_eq_iff]
  simp

theorem run_stageBundledRecovery : run (fileHandler faults) (stageBundledRecovery bundle) d =
      if faults _ (.mkdirAll .backup) then (none, d)
      else run (fileHandler faults) (stageLoop [] (stagedFiles bundle)) d := by
  cases fault : faults _ (.mkdirAll .backup) <;>
    simp [stageBundledRecovery, mkdirAll, fileHandler, fault]

/-- The runs that fail and change the boot partition are exactly those that `Spoils` describes. -/
theorem failsAndChanges_iff : FailsAndChanges faults bundle d ↔ Spoils faults bundle d := by
  unfold FailsAndChanges Spoils
  rw [run_stageBundledRecovery]
  cases faults _ (.mkdirAll .backup) with
  | true => simp
  | false =>
    simp only [Bool.false_eq_true, ↓reduceIte, stagedFiles, run_stageLoop_cons, List.nil_append]
    cases prepared faults d bundle.fitFile with
    | false => simp
    | true =>
      cases copyFails faults d (.bundle, bundle.fitFile) (.boot, bundle.fitFile) with
      | true =>
        -- the closure runs with the root file's flag unset
        simp only [↓reduceIte, true_and, restore_unseen_boot]
        cases faults _ (.remove (.boot, bundle.rootFile)) with
        | true => simp
        | false =>
          simp only [Bool.false_eq_true, ↓reduceIte, update_ne_self_iff, and_true]
          cases d.boot bundle.rootFile <;> simp
      | false =>
        -- the kernel is replaced; the root file is next
        have staged := prepared_fitStaged faults bundle d
        have copied := copyFails_fitStaged faults bundle d (.boot, bundle.rootFile)
        unfold fitStaged at staged copied
        simp only [Bool.false_eq_true, ↓reduceIte, true_and, staged, copied]
        cases prepared faults d bundle.rootFile with
        | false =>
          have changed := fitStaged_boot bundle d
          unfold fitStaged at changed
          simp only [Bool.false_eq_true, ↓reduceIte, true_and, true_or, and_true, changed,
            update_ne_self_iff]
        | true =>
          cases copyFails faults d (.bundle, bundle.rootFile) (.boot, bundle.rootFile) with
          | true =>
            have back := restore_seen_boot faults bundle d
            have changed := fitStaged_boot bundle d
            unfold fitStaged at back changed
            simp only [↓reduceIte, List.cons_append, List.nil_append, true_and, back, changed,
              Bool.true_eq_false, false_or]
            cases undoFails faults d bundle.fitFile <;> simp
          | false => simp [stageLoop]

/-- A failed staging leaves the boot partition exactly if the failures do not spoil it. -/
theorem stageBundledRecovery_error_unchanged_iff :
    ((run (fileHandler faults) (stageBundledRecovery bundle) d).1 = none →
      (run (fileHandler faults) (stageBundledRecovery bundle) d).2.boot = d.boot) ↔
      ¬ Spoils faults bundle d := by
  rw [← failsAndChanges_iff, FailsAndChanges, not_and, Ne, not_not]

end Bundle

def sampleBundle : RecoveryBundle where
  fitFile := "fitImage"
  rootFile := "swupdate-image-hailo15.ext4.gz"
  fit_prefix := ⟨[], by decide⟩
  root_prefix := ⟨"-hailo15.ext4.gz".toList, by decide⟩

/-- Both files exist on the boot partition, with contents other than those of the bundle. -/
def sampleDisk : Disk
  | (.bundle, _) => some [1]
  | (.boot, _) => some [0]
  | (.backup, _) => none

def fitCopyFault : Faults
  | _, .copyFileAtomic (.bundle, "fitImage") _ => true
  | _, _ => false

/-- A failed copy of the first file makes the restore closure delete the second one. -/
theorem stageBundledRecovery_deletes_root :
    (run (fileHandler fitCopyFault) (stageBundledRecovery sampleBundle) sampleDisk).1 = none ∧
      sampleDisk.boot sampleBundle.rootFile = some [0] ∧
      (run (fileHandler fitCopyFault) (stageBundledRecovery sampleBundle) sampleDisk).2.boot
        sampleBundle.rootFile = none := by
  decide

end NeoRuntime.OsUpgrade
