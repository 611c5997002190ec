import NeoRuntime.Lib.Text
import NeoRuntime.AppManager.Registry

/-!
# App manifests

The parts of `AppManifest` (platform/app-manager/manifest/manifest.go) that installing, starting
and monitoring an app read.  A manifest here is a parsed and validated one.
-/

namespace NeoRuntime.AppManager

/-- One container of a multi-container app, with its key in `spec.containers`. -/
structure ContainerSpec where
  name : String
  role : String
  image : String
  deriving DecidableEq, Repr

structure AutoRestart where
  enabled : Bool
  maxRetries : ℕ
  deriving DecidableEq, Repr

structure AppManifest where
  id : String
  name : String
  version : String
  image : String
  /-- `spec.containers`, in the order of the keys. -/
  containers : List ContainerSpec
  startupOrder : List String
  shutdownOrder : List String
  plugin : Option (List CapabilityInfo)
  pluginDependencies : List DependencyInfo
  hasModels : Bool
  autoRestart : AutoRestart
  restartPolicy : String
  restartMaxRetries : ℕ
  deriving DecidableEq, Repr

inductive RestartPolicy where
  | always
  | onFailure
  | no
  deriving DecidableEq, Repr

namespace AppManifest

def effectiveRestartPolicy (m : AppManifest) : RestartPolicy :=
  if m.autoRestart.enabled then .always
  else
    let policy := Text.toLower (Text.trimSpace m.restartPolicy)
    if policy = "always" then .always
    else if policy = "on-failure" ∨ policy = "on_failure" then .onFailure
    else .no

def isAutoRestartEnabled (m : AppManifest) : Bool := m.effectiveRestartPolicy ≠ .no

/-- `EffectiveRestartMaxRetries`; zero stands for no limit. -/
def effectiveRestartMaxRetries (m : AppManifest) : ℕ :=
  if 0 < m.autoRestart.maxRetries then m.autoRestart.maxRetries else m.restartMaxRetries

end AppManifest

def sampleManifest : AppManifest :=
  { id := "a", name := "a", version := "1", image := "i.io/a", containers := [],
    startupOrder := [], shutdownOrder := [], plugin := none, pluginDependencies := [],
    hasModels := false, autoRestart := { enabled := false, maxRetries := 0 }, restartPolicy := "",
    restartMaxRetries := 0 }

end NeoRuntime.AppManager
