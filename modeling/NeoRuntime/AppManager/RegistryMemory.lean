import NeoRuntime.AppManager.Registry

/-!
# The registry in memory and on disk

`Registry` (platform/app-manager/registry/registry.go) with the pointers that its map holds.
`Register` and `Update` file the record of the caller itself, the other methods change a record in
place, and each of them has its own code for taking its change back.  The map may be nil and may
hold nil pointers: `json.Unmarshal` makes them of `null`.
-/

namespace NeoRuntime.AppManager

/-- The address of a record: one that `load` has allocated for a key, or one of a caller. -/
inductive Address where
  | loaded (key : String)
  | given (n : ℕ)
  deriving DecidableEq, Repr

/-- What the decoder makes of `registry.json`. -/
inductive Document where
  | null
  | object (entries : String → Option (Option AppInfo))

/-- The records, the map of pointers, which may be nil, and the file, if there is one. -/
structure RegistryMemory where
  heap : Address → AppInfo
  apps : Option (String → Option (Option Address))
  file : Option Document

inductive Outcome where
  | ok
  | error (error : RegistryError)
  | panic
  deriving DecidableEq, Repr

variable (m : RegistryMemory)

namespace RegistryMemory

def stamped (app : AppInfo) (now : ℕ) : AppInfo := { app with installedAt := now, state := .installed }

def view : Option (String → Option (Option AppInfo)) :=
  m.apps.map fun apps key => (apps key).map (Option.map m.heap)

/-- `NewRegistry` on a file that can be decoded, or that does not exist. -/
def load (heap : Address → AppInfo) (file : Option Document) : RegistryMemory :=
  match file with
  | none => { heap, apps := some fun _ => none, file }
  | some .null => { heap, apps := none, file }
  | some (.object entries) =>
    { heap := fun
        | .loaded key => ((entries key).bind id).getD (heap (.loaded key))
        | .given n => heap (.given n)
      apps := some fun key => (entries key).map (Option.map fun _ => .loaded key)
      file }

/-- The entry of a key; a nil map has none. -/
def lookup (key : String) : Option (Option Address) :=
  m.apps.bind fun apps => apps key

/-- Assign to an entry, or delete it; the map is not nil. -/
def put (key : String) (entry : Option (Option Address)) : RegistryMemory :=
  { m with apps := m.apps.map fun apps => Function.update apps key entry }

def write (p : Address) (app : AppInfo) : RegistryMemory :=
  { m with heap := Function.update m.heap p app }

def replaceFile : RegistryMemory :=
  { m with file := some (match m.view with | none => .null | some entries => .object entries) }

/-- `save` with the code that takes the change back if the file cannot be replaced. -/
def save (undo : RegistryMemory → RegistryMemory) (saved : Bool) : Outcome × RegistryMemory :=
  if saved then (.ok, m.replaceFile) else (.error .save, undo m)

def register (app : Option Address) (now : ℕ) (saved : Bool) : Outcome × RegistryMemory :=
  match app with
  | none => (.panic, m)
  | some p =>
    let id := (m.heap p).id
    if (m.lookup id).isSome then (.error (.alreadyRegistered id), m)
    else
      let m := m.write p (stamped (m.heap p) now)
      -- assignment to an entry of a nil map
      if m.apps.isNone then (.panic, m)
      else (m.put id (some (some p))).save (·.put id none) saved

variable (appId : String)

def unregister (saved : Bool) : Outcome × RegistryMemory :=
  match m.lookup appId with
  | none => (.error (.notFound appId), m)
  | some old => (m.put appId none).save (·.put appId (some old)) saved

def update (app : Option Address) (saved : Bool) : Outcome × RegistryMemory :=
  match app with
  | none => (.panic, m)
  | some p =>
    let id := (m.heap p).id
    match m.lookup id with
    | none => (.error (.notFound id), m)
    | some old => (m.put id (some (some p))).save (·.put id (some old)) saved

/-- A change of a record in place; `restore` puts the old values back into the record. -/
def modify (change : AppInfo → AppInfo)
    (restore : AppInfo → AppInfo → AppInfo) (saved : Bool) : Outcome × RegistryMemory :=
  match m.lookup appId with
  | none => (.error (.notFound appId), m)
  | some none => (.panic, m)
  | some (some p) =>
    let old := m.heap p
    (m.write p (change old)).save (fun m => m.write p (restore old (m.heap p))) saved

def setState (state : AppState) (now : ℕ) (saved : Bool) : Outcome × RegistryMemory :=
  let change (app : AppInfo) : AppInfo :=
    match state with
    | .running => { app with state := state, startedAt := now }
    | .stopped => { app with state := state, stoppedAt := now }
    | _ => { app with state := state }
  m.modify appId change (fun old _ => old) saved

def incrementRestartCount (saved : Bool) : Outcome × RegistryMemory :=
  m.modify appId (fun app => { app with restartCount := app.restartCount + 1 })
    (fun old app => { app with restartCount := old.restartCount }) saved

def setContainerID (appId containerId : String) (saved : Bool) : Outcome × RegistryMemory :=
  m.modify appId (fun app => { app with containerId })
    (fun old app => { app with containerId := old.containerId }) saved

def setWebURL (appId webUrl : String) (saved : Bool) : Outcome × RegistryMemory :=
  m.modify appId (fun app => { app with webUrl })
    (fun old app => { app with webUrl := old.webUrl }) saved

end RegistryMemory

/-- A call of a method that changes the registry; `now` is what `time.Now` answers. -/
inductive RegistryMethod (ρ : Type) where
  | register (app : ρ) (now : ℕ)
  | unregister (appId : String)
  | update (app : ρ)
  | setState (appId : String) (state : AppState) (now : ℕ)
  | incrementRestartCount (appId : String)
  | setContainerID (appId containerId : String)
  | setWebURL (appId webUrl : String)
  deriving DecidableEq, Repr

/-- The call of a method, and whether `save` replaces the file if it is called. -/
def RegistryMemory.call (method : RegistryMethod (Option Address))
    (saved : Bool) : Outcome × RegistryMemory :=
  match method with
  | .register app now => m.register app now saved
  | .unregister appId => m.unregister appId saved
  | .update app => m.update app saved
  | .setState appId state now => m.setState appId state now saved
  | .incrementRestartCount appId => m.incrementRestartCount appId saved
  | .setContainerID appId containerId => m.setContainerID appId containerId saved
  | .setWebURL appId webUrl => m.setWebURL appId webUrl saved

end NeoRuntime.AppManager
