import NeoRuntime.Lib.Run
import NeoRuntime.AppManager.RegistryMemory

/-!
# Atomic methods

A method of the registry either fails and leaves the map and the file alone, or succeeds and leaves
a file that is loaded as the map, unless it panics on a nil pointer or a nil map, or `Register` fails
on a record that the map already holds under another key.
-/

namespace NeoRuntime.AppManager

namespace RegistryMemory

structure CallReport where
  before : RegistryMemory
  outcome : Outcome
  after : RegistryMemory

/-- No panic, nothing changed by an error, and a file that is loaded as the map after success. -/
def Atomic (r : CallReport) : Prop :=
  match r.outcome with
  | .ok => (load r.after.heap r.after.file).view = r.after.view
  | .error _ => r.after.view = r.before.view ∧ r.after.file = r.before.file
  | .panic => False

def step (m : RegistryMemory) (c : RegistryMethod (Option Address) × Bool) : RegistryMemory × List CallReport :=
  ((m.call c.1 c.2).2, [⟨m, (m.call c.1 c.2).1, (m.call c.1 c.2).2⟩])

/-- The argument and the changed entry are no nil pointers; `Register` of a new id finds a map, and
saves it or has a record that the map does not hold, or holds as `Register` would make it. -/
def Callable (m : RegistryMemory) (c : RegistryMethod (Option Address) × Bool) : Prop :=
  match c.1 with
  | .register none _ => False
  | .register (some p) now =>
      m.lookup (m.heap p).id = none → m.apps.isSome ∧
        (c.2 = true ∨ (∀ key, m.lookup key ≠ some (some p)) ∨ stamped (m.heap p) now = m.heap p)
  | .unregister _ => True
  | .update app => app.isSome
  | .setState appId _ _ | .incrementRestartCount appId | .setContainerID appId _
  | .setWebURL appId _ => m.lookup appId ≠ some none

variable {m : RegistryMemory} {key : String} {p : Address} {entry : Option (Option Address)}

/-! ## The map and the records -/

theorem view_load (heap : Address → AppInfo) (entries : String → Option (Option AppInfo)) :
    (load heap (some (.object entries))).view = some entries := by
  refine congrArg some (funext fun key => ?_)
  change Option.map _ (Option.map _ (entries key)) = entries key
  match found : entries key with
  | none => rfl
  | some none => rfl
  | some (some app) => simp [load, found]

theorem load_replaceFile (m : RegistryMemory) :
    (load m.replaceFile.heap m.replaceFile.file).view = m.replaceFile.view := by
  have same : m.replaceFile.view = m.view := rfl
  rw [same, replaceFile]
  cases m.view with
  | none => rfl
  | some entries => exact view_load m.heap entries

theorem put_put (m : RegistryMemory) (key : String) (entry entry' : Option (Option Address)) :
    (m.put key entry).put key entry' = m.put key entry' := by
  simp only [put, Option.map_map, Function.comp_def, Function.update_idem]

theorem put_lookup (present : m.lookup key = entry) : m.put key entry = m := by
  rw [← present]
  cases m with
  | mk heap apps file =>
    cases apps with
    | none => rfl
    | some apps =>
      simp only [put, lookup, Option.map_some, Option.bind_some]
      rw [Function.update_eq_self]

theorem write_apps (m : RegistryMemory) (p : Address) (app : AppInfo) :
    (m.write p app).apps = m.apps := rfl

theorem write_write (m : RegistryMemory) (p : Address) (app app' : AppInfo) :
    (m.write p app).write p app' = m.write p app' := by
  simp only [write, Function.update_idem]

theorem write_self (m : RegistryMemory) (p : Address) : m.write p (m.heap p) = m := by
  simp only [write, Function.update_eq_self]

theorem view_of_apps {apps : String → Option (Option Address)} (found : m.apps = some apps) :
    m.view = some fun key => (apps key).map (Option.map m.heap) := by
  rw [view, found, Option.map_some]

/-- A change of a record that the map does not hold, or no change, is not seen. -/
theorem view_write_iff {app : AppInfo} :
    (m.write p app).view = m.view ↔ (∀ key, m.lookup key ≠ some (some p)) ∨ app = m.heap p := by
  cases found : m.apps with
  | none =>
    refine iff_of_true ?_ (.inl fun key => by simp [lookup, found])
    rw [view, view, write_apps, found]
    rfl
  | some apps =>
    have entries : (m.write p app).apps = some apps := found
    have held_iff (key : String) : m.lookup key = some (some p) ↔ apps key = some (some p) := by
      rw [lookup, found, Option.bind_some]
    simp only [view_of_apps entries, view_of_apps found, Option.some.injEq, funext_iff, held_iff, ne_eq]
    constructor
    · intro same
      by_cases held : ∃ key, apps key = some (some p)
      · obtain ⟨key, entry⟩ := held
        have here := same key
        rw [entry] at here
        exact .inr (by simpa [write] using here)
      · exact .inl (not_exists.mp held)
    · rintro (other | rfl) key
      · match entry : apps key with
        | none => rfl
        | some none => rfl
        | some (some q) =>
          have ne : q ≠ p := fun same => other key (by rw [entry, same])
          simp [write, ne]
      · rw [write_self]

/-! ## One call -/

/-- What `save` makes of a changed registry. -/
theorem atomic_save_iff {m' : RegistryMemory} {undo : RegistryMemory → RegistryMemory} {saved : Bool} :
    Atomic ⟨m, (m'.save undo saved).1, (m'.save undo saved).2⟩ ↔
      (saved = true ∨ (undo m').view = m.view ∧ (undo m').file = m.file) := by
  cases saved with
  | false => simp [save, Atomic]
  | true => simpa [save, Atomic] using load_replaceFile m'

theorem atomic_of_undone {m' : RegistryMemory} {undo : RegistryMemory → RegistryMemory} {saved : Bool}
    (undone : undo m' = m) : Atomic ⟨m, (m'.save undo saved).1, (m'.save undo saved).2⟩ :=
  atomic_save_iff.mpr (.inr (by rw [undone]; exact ⟨rfl, rfl⟩))

theorem modify_atomic_iff {change : AppInfo → AppInfo} {restore : AppInfo → AppInfo → AppInfo}
    (restores : ∀ app, restore app (change app) = app) (appId : String) (saved : Bool) :
    Atomic ⟨m, (m.modify appId change restore saved).1, (m.modify appId change restore saved).2⟩ ↔
      m.lookup appId ≠ some none := by
  unfold modify
  match found : m.lookup appId with
  | none => simp [Atomic]
  | some none => simp [Atomic]
  | some (some p) =>
    refine iff_of_true (atomic_of_undone ?_) (by simp)
    have here : (m.write p (change (m.heap p))).heap p = change (m.heap p) := Function.update_self ..
    rw [here, restores, write_write, write_self]

theorem register_atomic_iff (now : ℕ) (saved : Bool) :
    Atomic ⟨m, (m.register (some p) now saved).1, (m.register (some p) now saved).2⟩ ↔
      (m.lookup (m.heap p).id = none → m.apps.isSome ∧
        (saved = true ∨ (∀ key, m.lookup key ≠ some (some p)) ∨ stamped (m.heap p) now = m.heap p)) := by
  unfold register
  dsimp only
  cases found : m.lookup (m.heap p).id with
  | some entry => simp [Atomic]
  | none =>
    rw [if_neg (by simp), eq_self, true_implies, write_apps]
    cases apps : m.apps with
    | none => simp [Atomic]
    | some entries =>
      rw [Option.isNone_some, if_neg (by simp), Option.isSome_some, atomic_save_iff, put_put]
      have undone : (m.write p (stamped (m.heap p) now)).put (m.heap p).id none =
          m.write p (stamped (m.heap p) now) := put_lookup found
      rw [undone, view_write_iff]
      simp [write]

theorem call_atomic_iff (m : RegistryMemory) (c : RegistryMethod (Option Address) × Bool) :
    Atomic ⟨m, (m.call c.1 c.2).1, (m.call c.1 c.2).2⟩ ↔ m.Callable c := by
  obtain ⟨method, saved⟩ := c
  cases method with
  | register app now =>
    cases app with
    | none => exact Iff.rfl
    | some p => exact register_atomic_iff now saved
  | unregister appId =>
    refine iff_of_true ?_ trivial
    change Atomic ⟨m, (m.unregister appId saved).1, (m.unregister appId saved).2⟩
    unfold unregister
    cases found : m.lookup appId with
    | none => exact ⟨rfl, rfl⟩
    | some old =>
      refine atomic_of_undone ?_
      rw [put_put, put_lookup found]
  | update app =>
    cases app with
    | none => exact iff_of_false (fun atomic => atomic) (by simp [Callable])
    | some p =>
      refine iff_of_true ?_ (by simp [Callable])
      change Atomic ⟨m, (m.update (some p) saved).1, (m.update (some p) saved).2⟩
      unfold update
      dsimp only
      cases found : m.lookup (m.heap p).id with
      | none => exact ⟨rfl, rfl⟩
      | some old =>
        refine atomic_of_undone ?_
        rw [put_put, put_lookup found]
  | setState appId state now => exact modify_atomic_iff (fun _ => rfl) appId saved
  | incrementRestartCount appId => exact modify_atomic_iff (fun _ => rfl) appId saved
  | setContainerID appId containerId => exact modify_atomic_iff (fun _ => rfl) appId saved
  | setWebURL appId webUrl => exact modify_atomic_iff (fun _ => rfl) appId saved

/-- All calls of a sequence are atomic exactly if each can be made. -/
theorem calls_atomic_iff (heap : Address → AppInfo) (file : Option Document)
    (calls : List (RegistryMethod (Option Address) × Bool)) :
    (∀ r ∈ (runLog step (load heap file) calls).2, Atomic r) ↔
      AlongLog step Callable (load heap file) calls := by
  refine runLog_forall_iff (fun _ => True) (fun m c _ => ?_) (fun _ _ _ _ => trivial) trivial calls
  rw [← call_atomic_iff]
  exact List.forall_mem_singleton

def recordOf (id : String) (state : AppState) : AppInfo where
  id := id
  name := ""
  version := ""
  image := ""
  state := state
  containerId := ""
  pid := 0
  installedAt := 1
  startedAt := 0
  stoppedAt := 0
  restartCount := 0
  manifestPath := ""
  instancePath := ""
  isPlugin := false
  capabilities := []
  dependencies := []
  isMultiContainer := false
  webUrl := ""

/-- `null` makes `Register` and `SetState` panic, and a failing `Register` changes another app. -/
theorem register_panics_on_null :
    let records := fun _ => recordOf "a" .installed
    let nulls := load records (some (.object fun _ => some none))
    let misfiled := load records (some (.object fun key =>
      if key = "b" then some (some (recordOf "a" .running)) else none))
    let failed := misfiled.call (.register (some (.loaded "b")) 2) false
    ((load records (some .null)).call (.register (some (.given 0)) 2) true).1 = .panic ∧
      (nulls.call (.setState "a" .running 2) true).1 = .panic ∧
      failed.1 = .error .save ∧
      misfiled.view.bind (· "b") = some (some (recordOf "a" .running)) ∧
      failed.2.view.bind (· "b") = some (some { recordOf "a" .installed with installedAt := 2 }) := by
  decide

end RegistryMemory

end NeoRuntime.AppManager
