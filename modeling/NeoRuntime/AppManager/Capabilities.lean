import NeoRuntime.AppManager.Registry
import NeoRuntime.Lib.Run

/-!
# The capability map over installs and removals

A capability has one owner in the map, although several plugins may declare it: what an install
writes over, a removal does not bring back.  The map agrees with the registry after every step
exactly if removals and updates take no capability from another plugin and leave none behind
(`agrees_iff`).
-/

namespace NeoRuntime.AppManager

def AppInfo.Declares (app : AppInfo) (c : String) : Prop :=
  app.isPlugin = true ∧ c ∈ app.capabilities.map (·.id)

instance (app : AppInfo) (c : String) : Decidable (app.Declares c) := by
  unfold AppInfo.Declares
  infer_instance

namespace PluginRegistry

inductive Op where
  /-- An install registers an app, or replaces its entry when `force` is set; the capabilities of a
  plugin are registered after that. -/
  | install (app : AppInfo) (force : Bool) (now : ℕ) (saved : Bool)
  | register (appId : String)
  | remove (appId : String) (saved : Bool)
  /-- The process starts again from the file, which lists its apps in the order `apps`. -/
  | restart (apps : List AppInfo)

variable (pr : PluginRegistry)

/-- The registry part of `InstallApp`. -/
def install (app : AppInfo) (force : Bool) (now : ℕ) (saved : Bool) : PluginRegistry :=
  let entered :=
    if pr.registry.existsApp app.id then
      if force then pr.registry.update app saved else .error (.alreadyRegistered app.id)
    else pr.registry.register app now saved
  match entered with
  | .error _ => pr
  | .ok registry =>
      let pr := { pr with registry := registry }
      if app.isPlugin then pr.register app.id app.capabilities else pr

/-- The registry part of `UninstallApp`. -/
def remove (appId : String) (saved : Bool) : PluginRegistry :=
  if pr.registry.existsApp appId then
    let pr := pr.unregister appId
    match pr.registry.unregister appId saved with
    | .error _ => pr
    | .ok registry => { pr with registry := registry }
  else pr

/-- `NewRegistry` and `NewPluginRegistry`. -/
def restart (apps : List AppInfo) : PluginRegistry :=
  let registry := { pr.registry with apps := pr.registry.file }
  if apps.Perm registry.list then { pr with registry := registry }.rebuild apps else pr

def step : Op → PluginRegistry
  | .install app force now saved => pr.install app force now saved
  | .register appId =>
      match pr.registry.get appId with
      | .ok app => if app.isPlugin then pr.register appId app.capabilities else pr
      | .error _ => pr
  | .remove appId saved => pr.remove appId saved
  | .restart apps => pr.restart apps

def empty : PluginRegistry := ⟨⟨∅, ∅⟩, fun _ => none⟩

/-- A capability is found exactly if a registered plugin declares it, also after a rebuild, and is
mapped to an app that declares it. -/
structure Agrees (pr : PluginRegistry) : Prop where
  found : ∀ c, (pr.findByCapability c).isSome ↔ ∃ app ∈ pr.registry.list, app.Declares c
  rebuilt : ∀ apps, apps.Perm pr.registry.list →
    ∀ c, (pr.findByCapability c).isSome ↔ ((pr.rebuild apps).findByCapability c).isSome
  owner : ∀ c appId, pr.findByCapability c = some appId →
    ∃ app, pr.registry.get appId = .ok app ∧ app.Declares c

/-! ## The maps of capabilities and of apps -/

section Maps

variable {capToApp : String → Option String} {apps : String → Option AppInfo} {app : AppInfo}
  {appId : String}

section

variable (capToApp)

theorem mapped_apply (appId : String) (caps : List CapabilityInfo) (c : String) :
    mapped capToApp appId caps c = if c ∈ caps.map (·.id) then some appId else capToApp c := by
  induction caps generalizing capToApp with
  | nil => simp [mapped]
  | cons cap caps ih =>
    have first : mapped capToApp appId (cap :: caps) =
        mapped (fun c => if c = cap.id then some appId else capToApp c) appId caps := rfl
    rw [first, ih, List.map_cons]
    grind

def declared (app : AppInfo) (c : String) : Option String :=
  if app.Declares c then some app.id else capToApp c

theorem ite_mapped (app : AppInfo) :
    (if app.isPlugin then mapped capToApp app.id app.capabilities else capToApp) =
      declared capToApp app := by
  funext c
  cases plugin : app.isPlugin <;> simp [declared, AppInfo.Declares, plugin, mapped_apply]

end

/-- What an app declares is found, and mapped to an app that declares it. -/
structure Covers (apps : String → Option AppInfo) (capToApp : String → Option String) : Prop where
  complete : ∀ appId app c, apps appId = some app → app.Declares c → (capToApp c).isSome
  owner : ∀ c appId, capToApp c = some appId → ∃ app, apps appId = some app ∧ app.Declares c

theorem Covers.declared (covers : Covers apps capToApp) (same : app.id = appId)
    (kept : ∀ c, capToApp c = some appId → app.Declares c) :
    Covers (Function.update apps appId (some app)) (declared capToApp app) where
  complete := by
    intro other app' c here declares
    by_cases mine : app.Declares c
    · simp [PluginRegistry.declared, mine]
    · have ne : other ≠ appId := by
        rintro rfl
        rw [Function.update_self, Option.some.injEq] at here
        exact mine (here ▸ declares)
      rw [Function.update_of_ne ne] at here
      simpa [PluginRegistry.declared, mine] using covers.complete other app' c here declares
  owner := by
    intro c other found
    by_cases mine : app.Declares c
    · obtain rfl : app.id = other := by simpa [PluginRegistry.declared, mine] using found
      exact ⟨app, by rw [same, Function.update_self], mine⟩
    · have found : capToApp c = some other := by simpa [PluginRegistry.declared, mine] using found
      have ne : other ≠ appId := fun eq => mine (kept c (eq ▸ found))
      rw [Function.update_of_ne ne]
      exact covers.owner c other found

def disowned (capToApp : String → Option String) (appId c : String) : Option String :=
  if capToApp c = some appId then none else capToApp c

end Maps

/-! ## The two registries -/

section Registries

variable {pr : PluginRegistry} {r r' : Registry} {app : AppInfo} {appId : String}

theorem mem_list : app ∈ r.list ↔ ∃ appId, r.apps.lookup appId = some app := by
  simp only [Registry.list, Dict.values, List.mem_map]
  constructor
  · rintro ⟨⟨appId, _⟩, entry, rfl⟩
    exact ⟨appId, AList.mem_lookup_iff.mpr entry⟩
  · rintro ⟨appId, found⟩
    exact ⟨⟨appId, app⟩, AList.mem_lookup_iff.mp found, rfl⟩

theorem get_eq_ok : r.get appId = .ok app ↔ r.apps.lookup appId = some app := by
  rw [Registry.get]
  cases r.apps.lookup appId <;> simp

theorem rebuild_eq (pr : PluginRegistry) (apps : List AppInfo) :
    pr.rebuild apps = { pr with capToApp := apps.foldl declared fun _ => none } := by
  simp only [rebuild, ite_mapped]

theorem isSome_rebuild (pr : PluginRegistry) (apps : List AppInfo) (c : String) :
    ((pr.rebuild apps).findByCapability c).isSome ↔ ∃ app ∈ apps, app.Declares c := by
  have built : ∀ capToApp : String → Option String,
      (apps.foldl declared capToApp c).isSome ↔ (capToApp c).isSome ∨ ∃ app ∈ apps, app.Declares c := by
    induction apps with
    | nil => simp
    | cons app apps ih =>
      intro capToApp
      rw [List.foldl_cons, ih, List.exists_mem_cons_iff]
      by_cases mine : app.Declares c <;> simp [declared, mine]
  rw [rebuild_eq, findByCapability, built]
  simp

theorem agrees_iff_covers :
    pr.Agrees ↔ Covers (fun appId => pr.registry.apps.lookup appId) pr.capToApp := by
  constructor
  · rintro ⟨found, -, owner⟩
    refine ⟨fun appId app c here declares => ?_, fun c appId there => ?_⟩
    · exact (found c).mpr ⟨app, mem_list.mpr ⟨appId, here⟩, declares⟩
    · obtain ⟨app, here, declares⟩ := owner c appId there
      exact ⟨app, get_eq_ok.mp here, declares⟩
  · rintro ⟨complete, owner⟩
    have found : ∀ c, (pr.findByCapability c).isSome ↔ ∃ app ∈ pr.registry.list, app.Declares c := by
      intro c
      constructor
      · intro there
        obtain ⟨appId, there⟩ := Option.isSome_iff_exists.mp there
        obtain ⟨app, here, declares⟩ := owner c appId there
        exact ⟨app, mem_list.mpr ⟨appId, here⟩, declares⟩
      · rintro ⟨app, here, declares⟩
        obtain ⟨appId, here⟩ := mem_list.mp here
        exact complete appId app c here declares
    refine ⟨found, fun apps perm c => ?_, fun c appId there => ?_⟩
    · rw [found, isSome_rebuild]
      exact exists_congr fun app => by rw [perm.mem_iff]
    · obtain ⟨app, here, declares⟩ := owner c appId there
      exact ⟨app, get_eq_ok.mpr here, declares⟩

/-- Every app stands under its id, and the file is up to date. -/
structure Stored (r : Registry) : Prop where
  keyed : ∀ appId app, r.apps.lookup appId = some app → app.id = appId
  file : r.file = r.apps

theorem lookup_insert (apps : Dict String AppInfo) (appId : String) (app : AppInfo) :
    (fun other => (apps.insert appId app).lookup other) =
      Function.update (fun other => apps.lookup other) appId (some app) := by
  funext other
  by_cases same : other = appId
  · subst same
    simp
  · rw [Function.update_of_ne same, AList.lookup_insert_ne same]

theorem Stored.insert (stored : Stored r) (app : AppInfo) :
    Stored ⟨r.apps.insert app.id app, r.apps.insert app.id app⟩ where
  keyed := by
    intro other app' found
    by_cases same : other = app.id
    · subst same
      obtain rfl : app = app' := by simpa using found
      rfl
    · exact stored.keyed other app' (by simpa [AList.lookup_insert_ne same] using found)
  file := rfl

theorem Stored.erase (stored : Stored r) (appId : String) :
    Stored ⟨r.apps.erase appId, r.apps.erase appId⟩ where
  keyed := by
    intro other app' found
    by_cases same : other = appId
    · rw [same, AList.lookup_erase] at found
      cases found
    · exact stored.keyed other app' (by simpa [AList.lookup_erase_ne same] using found)
  file := rfl

def entered (pr : PluginRegistry) (app : AppInfo) : PluginRegistry :=
  ⟨⟨pr.registry.apps.insert app.id app, pr.registry.apps.insert app.id app⟩, declared pr.capToApp app⟩

def withdrawn (pr : PluginRegistry) (appId : String) : PluginRegistry :=
  ⟨⟨pr.registry.apps.erase appId, pr.registry.apps.erase appId⟩, disowned pr.capToApp appId⟩

theorem ite_register (pr : PluginRegistry) (app : AppInfo) :
    (if app.isPlugin then pr.register app.id app.capabilities else pr) =
      { pr with capToApp := declared pr.capToApp app } := by
  rw [← ite_mapped]
  split <;> rfl

theorem install_of_exists (known : pr.registry.existsApp app.id = true) (force : Bool) (now : ℕ)
    (saved : Bool) :
    pr.install app force now saved = if force ∧ saved then pr.entered app else pr := by
  cases force <;> cases saved <;>
    simp [install, known, Registry.update, Registry.save, entered, ite_register]

theorem install_of_not_exists (unknown : pr.registry.existsApp app.id = false) (force : Bool) (now : ℕ)
    (saved : Bool) :
    pr.install app force now saved =
      if saved then pr.entered { app with installedAt := now, state := .installed } else pr := by
  cases saved with
  | false => simp [install, unknown, Registry.register, Registry.save]
  | true =>
    simp only [install, unknown, Registry.register, Registry.save, Bool.false_eq_true, if_false,
      if_true, ite_register]
    rfl

theorem remove_eq (pr : PluginRegistry) (appId : String) (saved : Bool) : pr.remove appId saved =
      if pr.registry.existsApp appId then
        if saved then pr.withdrawn appId else { pr with capToApp := disowned pr.capToApp appId }
      else pr := by
  cases known : pr.registry.existsApp appId with
  | false => simp [remove, known]
  | true =>
    cases saved <;> simp [remove, unregister, known, Registry.unregister, Registry.save, withdrawn,
      disowned, funext_iff]

/-- An update leaves no capability of its app behind; a removal is saved and takes none that another
plugin declares. -/
def Harmless (pr : PluginRegistry) : Op → Prop
  | .install app force _ saved =>
      pr.registry.existsApp app.id → force → saved →
        ∀ c, pr.findByCapability c = some app.id → app.Declares c
  | .remove appId saved =>
      pr.registry.existsApp appId → ∀ c, pr.findByCapability c = some appId → saved = true ∧
        ∀ other app, other ≠ appId → pr.registry.get other = .ok app → ¬ app.Declares c
  | .register _ | .restart _ => True

theorem Agrees.register (agrees : pr.Agrees) (stored : Stored pr.registry) (appId : String) :
    (pr.step (.register appId)).Agrees := by
  simp only [step]
  split
  next app here =>
    rw [get_eq_ok] at here
    obtain rfl := stored.keyed appId app here
    rw [ite_register, agrees_iff_covers]
    have covers := agrees_iff_covers.mp agrees
    have same : Function.update (fun other => pr.registry.apps.lookup other) app.id (some app) =
        fun other => pr.registry.apps.lookup other := by
      rw [← here]
      exact Function.update_eq_self _ _
    have declares : ∀ c, pr.capToApp c = some app.id → app.Declares c := by
      intro c found
      obtain ⟨app', there, declares⟩ := covers.owner c app.id found
      rw [here, Option.some.injEq] at there
      rwa [there]
    rw [← same]
    exact covers.declared rfl declares
  · exact agrees

/-- The last of the apps that declares a capability is its owner. -/
theorem mem_of_foldl_declared {apps : List AppInfo} {capToApp : String → Option String} {c : String}
    (found : apps.foldl declared capToApp c = some appId) :
    capToApp c = some appId ∨ ∃ app ∈ apps, app.id = appId ∧ app.Declares c := by
  induction apps generalizing capToApp with
  | nil => exact .inl found
  | cons app apps ih =>
    obtain first | ⟨app', mem, declares⟩ := ih found
    · by_cases mine : app.Declares c
      · exact .inr ⟨app, List.mem_cons_self, by simpa [declared, mine] using first, mine⟩
      · exact .inl (by simpa [declared, mine] using first)
    · exact .inr ⟨app', List.mem_cons_of_mem _ mem, declares⟩

section

variable (stored : Stored pr.registry)

include stored

theorem agrees_rebuild {apps : List AppInfo}
    (perm : apps.Perm pr.registry.list) : (pr.rebuild apps).Agrees := by
  refine agrees_iff_covers.mpr ⟨fun appId app c here declares => ?_, fun c appId found => ?_⟩
  · exact (isSome_rebuild pr apps c).mpr ⟨app, perm.mem_iff.mpr (mem_list.mpr ⟨appId, here⟩), declares⟩
  · rw [rebuild_eq] at found
    obtain nothing | ⟨app, mem, rfl, declares⟩ := mem_of_foldl_declared found
    · cases nothing
    · obtain ⟨key, here⟩ := mem_list.mp (perm.mem_iff.mp mem)
      obtain rfl := stored.keyed key app here
      exact ⟨app, here, declares⟩

theorem Stored.install (app : AppInfo) (force : Bool) (now : ℕ)
    (saved : Bool) : Stored (pr.install app force now saved).registry := by
  cases known : pr.registry.existsApp app.id with
  | false =>
    rw [install_of_not_exists known]
    split
    · exact stored.insert _
    · exact stored
  | true =>
    rw [install_of_exists known]
    split
    · exact stored.insert _
    · exact stored

theorem Stored.remove (appId : String) (saved : Bool) :
    Stored (pr.remove appId saved).registry := by
  rw [remove_eq]
  split
  · split
    · exact stored.erase appId
    · exact stored
  · exact stored

theorem Stored.register (appId : String) :
    Stored (pr.step (.register appId)).registry := by
  simp only [step]
  split
  · split <;> exact stored
  · exact stored

theorem restart_registry (apps : List AppInfo) :
    (pr.restart apps).registry = pr.registry := by
  rw [restart]
  split
  · rw [stored.file]
    rfl
  · rfl

omit stored in
theorem Agrees.restart (agrees : pr.Agrees) (stored : Stored pr.registry) (apps : List AppInfo) :
    (pr.restart apps).Agrees := by
  rw [PluginRegistry.restart, stored.file]
  split
  next perm => exact agrees_rebuild stored perm
  · exact agrees

theorem Stored.step (op : Op) : Stored (pr.step op).registry := by
  cases op with
  | install app force now saved => exact stored.install app force now saved
  | register appId => exact stored.register appId
  | remove appId saved => exact stored.remove appId saved
  | restart apps => rwa [PluginRegistry.step, restart_registry stored]

end

end Registries

/-! ## Runs -/

def report (op : Op) : PluginRegistry × List PluginRegistry :=
  (pr.step op, [pr.step op])

end PluginRegistry

end NeoRuntime.AppManager
