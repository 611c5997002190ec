import NeoRuntime.Lib.Dict

/-!
# The app registry

`Registry` and `PluginRegistry` (platform/app-manager/registry/registry.go).  Every method runs
under the lock, changes the map and writes it to `registry.json`; if that fails, the change is taken
back.  So a method answers an error and leaves everything as it was, or the registry after the
change.
-/

namespace NeoRuntime.AppManager

/-- The state of an app; another text comes from `registry.json` only. -/
inductive AppState where
  | installed
  | running
  | stopped
  | failed
  | other (text : String)
  deriving DecidableEq, Repr

structure CapabilityInfo where
  id : String
  version : String
  transport : String
  deriving DecidableEq, Repr

structure DependencyInfo where
  capability : String
  minVersion : String
  required : Bool
  deriving DecidableEq, Repr

/-- An entry of the registry; times are in nanoseconds, zero if not set. -/
structure AppInfo where
  id : String
  name : String
  version : String
  image : String
  state : AppState
  containerId : String
  pid : ℤ
  installedAt : ℕ
  startedAt : ℕ
  stoppedAt : ℕ
  restartCount : ℤ
  manifestPath : String
  instancePath : String
  isPlugin : Bool
  capabilities : List CapabilityInfo
  dependencies : List DependencyInfo
  isMultiContainer : Bool
  webUrl : String
  deriving DecidableEq, Repr

inductive RegistryError where
  | alreadyRegistered (appId : String)
  | notFound (appId : String)
  /-- `registry.json` could not be replaced. -/
  | save
  deriving DecidableEq, Repr

/-- The map in memory, and the map that `registry.json` decodes to. -/
structure Registry where
  apps : Dict String AppInfo
  file : Dict String AppInfo

variable (appId : String)

namespace Registry

variable (r : Registry)

/-- `save`; `saved` says whether the file could be replaced. -/
def save (saved : Bool) : Except RegistryError Registry :=
  if saved then .ok { r with file := r.apps } else .error .save

/-- `Exists`. -/
def existsApp : Bool := (r.apps.lookup appId).isSome

def register (app : AppInfo) (now : ℕ) (saved : Bool) : Except RegistryError Registry :=
  if r.existsApp app.id then .error (.alreadyRegistered app.id)
  else
    let app := { app with installedAt := now, state := .installed }
    { r with apps := r.apps.insert app.id app }.save saved

def unregister (saved : Bool) : Except RegistryError Registry :=
  if r.existsApp appId then { r with apps := r.apps.erase appId }.save saved
  else .error (.notFound appId)

def get : Except RegistryError AppInfo :=
  match r.apps.lookup appId with
  | some app => .ok app
  | none => .error (.notFound appId)

def update (app : AppInfo) (saved : Bool) : Except RegistryError Registry :=
  if r.existsApp app.id then { r with apps := r.apps.insert app.id app }.save saved
  else .error (.notFound app.id)

def list : List AppInfo := Dict.values r.apps

end Registry

/-! ## Plugins -/

/-- The registry, and the app that each capability is mapped to. -/
structure PluginRegistry where
  registry : Registry
  capToApp : String → Option String

namespace PluginRegistry

/-- The map after the capabilities of an app have been written into it. -/
def mapped (capToApp : String → Option String) (appId : String) (caps : List CapabilityInfo) :
    String → Option String :=
  caps.foldl (fun capToApp cap c => if c = cap.id then some appId else capToApp c) capToApp

variable (pr : PluginRegistry)

def register (caps : List CapabilityInfo) : PluginRegistry :=
  { pr with capToApp := mapped pr.capToApp appId caps }

def unregister : PluginRegistry :=
  { pr with capToApp := fun c => if pr.capToApp c = some appId then none else pr.capToApp c }

/-- `rebuild`, with the apps listed in the order `apps`. -/
def rebuild (apps : List AppInfo) : PluginRegistry :=
  { pr with capToApp := apps.foldl (fun capToApp app =>
      if app.isPlugin then mapped capToApp app.id app.capabilities else capToApp) fun _ => none }

def findByCapability (capabilityId : String) : Option String :=
  pr.capToApp capabilityId

end PluginRegistry

end NeoRuntime.AppManager
