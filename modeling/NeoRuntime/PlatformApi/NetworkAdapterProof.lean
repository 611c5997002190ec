import Mathlib.Data.List.Infix
import NeoRuntime.Lib.Run
import NeoRuntime.PlatformApi.ConfigRestore
import NeoRuntime.PlatformApi.NetworkAdapter

/-!
# What the network adapter keeps

The adapter's backup is exact.  Over a run of changes, those that succeed and those that are taken
back, every interface keeps its settings in both files as long as only one is configured, under its
own key.  With two of them the shared file has only the last settings, and a change under the key of
another interface is not taken back.
-/

namespace NeoRuntime.PlatformApi.Network

open Prog

variable {lib : NetLib} {paths : NetworkPaths} {fates : DiskFates} {key desired iface : String}
  {cfg : NetworkConfig} {files : Files}

theorem configPath_ends (networkDir : Location) (iface : String) :
    ∃ name dir, configPath networkDir iface = (name ++ ".network".toList) :: dir := by
  unfold configPath
  generalize (if iface = "" then "eth0" else iface) = name
  obtain ⟨parts, last, eq⟩ := Text.segments_append_of_no_slash ("10-" ++ name).toList
    (by decide : '/' ∉ ".network".toList)
  have long : 2 < (last ++ ".network".toList).length := by
    rw [List.length_append]
    have : ".network".toList.length = 8 := by decide
    omega
  refine ⟨last, parts.foldl (Text.cleanSegment true) networkDir, ?_⟩
  dsimp only
  rw [String.toList_append, eq, List.foldl_append, List.foldl_cons, List.foldl_nil,
    Text.cleanSegment_of_long long]

def installedPaths : NetworkPaths where
  networkDir := ["network".toList, "systemd".toList, "etc".toList]
  interfacesPath := ["interfaces".toList, "network".toList, "etc".toList]
  apart iface same := by
    obtain ⟨name, dir, eq⟩ := configPath_ends _ iface
    have ending := (List.cons.inj (eq.symm.trans same)).1
    have suffix := List.suffix_append name ".network".toList
    rw [ending] at suffix
    exact absurd suffix (by decide)

/-- The steps of a restore succeed, whatever the others do. -/
def restoring (fates : DiskFates) : DiskFates
  | _, .restoreNetwork | _, .restoreInterfaces => .done
  | t, step => fates t step

def viewOf (paths : NetworkPaths) (key : String) (files : Files) : Option String × Option String :=
  (files (configPath paths.networkDir key), files paths.interfacesPath)

theorem backup_ok {steps : DiskStep → Fate} {saved : BackupState}
    (ok : backup paths steps key files = .ok saved) :
    saved = ⟨files (configPath paths.networkDir key), files paths.interfacesPath⟩ := by
  unfold backup at ok
  split at ok
  · cases ok
  · split at ok
    · cases ok
    · exact (Except.ok.inj ok).symm

theorem restore_restoring (t : ℕ) (key : String) (saved : BackupState) (files : Files) :
    restore paths (restoring fates t) key saved files =
      (.ok (), Function.update
        (Function.update files (configPath paths.networkDir key) saved.networkBytes)
        paths.interfacesPath saved.interfacesBytes) := by
  simp [restore, restoring, setFile, Fate.apply]

def restorableNetwork (lib : NetLib) (paths : NetworkPaths) (fates : DiskFates) :
    RestorableAdapter Files BackupState RenderedNetwork (Option String × Option String) where
  toAdapter := networkAdapter lib paths (restoring fates)
  view := viewOf paths
  restores t t' key saved live live' ok := by
    obtain rfl := backup_ok ok
    simp only [networkAdapter, restore_restoring, viewOf, true_and, Function.update_self,
      Function.update_of_ne (paths.apart key)]

section Samples

def someLib : NetLib where
  unmarshal text :=
    if text = "eth1 static" then
      .ok ⟨"eth1", "static", "10.0.0.2", "255.255.255.0", "", "", ""⟩
    else .ok ⟨text, "dhcp", "", "", "", "", ""⟩
  parseIP _ := some (List.replicate 10 0 ++ [0xff, 0xff, 0xff, 0xff, 0xff, 0])

def noFiles : ConfigWorld Files where
  items _ _ := none
  revisions := []
  jobs := []
  live _ := none
  clock := 0
  nextJob := 0
  verified _ := none

def secondWriteFails : DiskFates
  | 7, .writeInterfaces => .lost
  | _, _ => .done

def appendFails : StoreFailures where
  call t := if t = 9 then some "database is locked" else none
  finish _ := false

def noFailures : StoreFailures where
  call _ := none
  finish _ := false

/-- A half written change, and one verified but not recorded, are errors that are not taken back. -/
theorem failed_change_stays : ¬ ErrorKeeps (viewOf installedPaths "eth0") noFiles.live
      (run (configHandler noFailures) (applyConfig
        (fun _ => some (restorableNetwork someLib installedPaths secondWriteFails).toAdapter)
        "network" "eth0" "eth0") noFiles) ∧
    ¬ ErrorKeeps (viewOf installedPaths "eth0") noFiles.live
      (run (configHandler appendFails) (applyConfig
        (fun _ => some (restorableNetwork someLib installedPaths fun _ _ => .done).toAdapter)
        "network" "eth0" "eth0") noFiles) := by
  decide +kernel

end Samples

/-! ## Runs of changes -/

/-- The files, and the settings of the last change of each interface. -/
structure NetworkState where
  files : Files
  last : String → Option NetworkConfig

/-- A change that succeeds, or is taken back after its `Apply` has failed or is not verified. -/
inductive NetworkEvent where
  | applied (t : ℕ) (key desired : String)
  | takenBack (t : ℕ) (key desired : String)
  deriving DecidableEq, Repr

section Runs

variable (lib paths fates)

/-- The calls of the adapter in a change; `none` if they do not go that way. -/
def networkStep (st : NetworkState) : NetworkEvent → Option NetworkState
  | .applied t key desired =>
      let a := (restorableNetwork lib paths fates).toAdapter
      match lib.unmarshal desired, a.validate t key desired st.files,
        a.render t key desired st.files with
      | .ok cfg, .ok _, .ok r =>
        match a.apply t key r st.files with
        | (.ok _, files) =>
          some { files, last := Function.update st.last (ifaceOf cfg key) (some cfg) }
        | _ => none
      | _, _, _ => none
  | .takenBack t key desired =>
      let a := (restorableNetwork lib paths fates).toAdapter
      match a.backup t key st.files, a.render t key desired st.files with
      | .ok saved, .ok r =>
        match a.restore (t + 2) key saved (a.apply (t + 1) key r st.files).2 with
        | (.ok _, files) => some { st with files }
        | _ => none
      | _, _ => none

def HasSettings (files : Files) (iface : String) (cfg : NetworkConfig) : Prop :=
  files (configPath paths.networkDir iface) = some (renderNetwork lib cfg iface) ∧
    (files paths.interfacesPath).any (Text.contains · (interfaceStanza cfg iface)) = true

/-- A change is one of the only interface so far; and one that is taken back names the interface of
its key. -/
def Alone (st : NetworkState) : NetworkEvent → Prop
  | .applied _ key desired => ∀ cfg, lib.unmarshal desired = .ok cfg →
      ∀ other, (st.last other).isSome → other = ifaceOf cfg key
  | .takenBack _ key desired => ∀ cfg, lib.unmarshal desired = .ok cfg →
      configPath paths.networkDir (ifaceOf cfg key) = configPath paths.networkDir key

end Runs

theorem contains_renderInterfaces (cfg : NetworkConfig) (iface : String) :
    Text.contains (renderInterfaces cfg iface) (interfaceStanza cfg iface) = true := by
  unfold renderInterfaces
  generalize "# Interfaces file managed by AIPC Platform\n" ++ "auto lo\n" ++
    "iface lo inet loopback\n\n" = header
  simp only [Text.contains, String.toList_append, List.any_eq_true, List.mem_tails]
  exact ⟨(interfaceStanza cfg iface).toList, List.suffix_append _ _, by simp⟩

section Apply

variable (paths) in
def written (r : RenderedNetwork) (files : Files) : Files :=
  Function.update
    (Function.update files (configPath paths.networkDir r.iface) (some r.networkBytes))
    paths.interfacesPath (some r.interfacesBytes)

theorem apply_outcome (steps : DiskStep → Fate) (r : RenderedNetwork) (files : Files) :
    apply paths steps r files = (.ok (), written paths r files) ∨
      ∃ e, apply paths steps r files = (.error e, files) ∨
        apply paths steps r files = (.error e,
          Function.update files (configPath paths.networkDir r.iface) (some r.networkBytes)) ∨
        apply paths steps r files = (.error e, written paths r files) := by
  unfold apply setFile written
  cases steps .mkdirNetwork with
  | lost | late => exact .inr ⟨_, .inl rfl⟩
  | done =>
  cases steps .writeNetwork with
  | lost => exact .inr ⟨_, .inl rfl⟩
  | late => exact .inr ⟨_, .inr (.inl rfl)⟩
  | done =>
  cases steps .mkdirInterfaces with
  | lost | late => exact .inr ⟨_, .inr (.inl rfl)⟩
  | done =>
  cases steps .writeInterfaces with
  | lost => exact .inr ⟨_, .inr (.inl rfl)⟩
  | late => exact .inr ⟨_, .inr (.inr rfl)⟩
  | done => exact .inl rfl

theorem apply_ok {steps : DiskStep → Fate} {r : RenderedNetwork} {files' : Files}
    (ok : apply paths steps r files = (.ok (), files')) : files' = written paths r files := by
  obtain eq | ⟨e, eq | eq | eq⟩ := apply_outcome steps r files <;> rw [eq] at ok
  · exact (Prod.mk.inj ok).2.symm
  all_goals exact absurd (Prod.mk.inj ok).1 nofun

theorem written_frame (r : RenderedNetwork) (files : Files) {path : Location}
    (own : path ≠ configPath paths.networkDir r.iface) (shared : path ≠ paths.interfacesPath) :
    written paths r files path = files path := by
  rw [written, Function.update_of_ne shared, Function.update_of_ne own]

theorem apply_frame (steps : DiskStep → Fate) (r : RenderedNetwork) (files : Files) {path : Location}
    (own : path ≠ configPath paths.networkDir r.iface) (shared : path ≠ paths.interfacesPath) :
    (apply paths steps r files).2 path = files path := by
  obtain eq | ⟨e, eq | eq | eq⟩ := apply_outcome steps r files <;> rw [eq]
  · exact written_frame r files own shared
  · exact Function.update_of_ne own _ _
  · exact written_frame r files own shared

end Apply

theorem hasSettings_written (cfg : NetworkConfig) (iface : String) (files : Files) :
    HasSettings lib paths (written paths
      { networkBytes := renderNetwork lib cfg iface
        interfacesBytes := renderInterfaces cfg iface
        iface } files) iface cfg := by
  constructor
  · rw [written, Function.update_of_ne (paths.apart iface), Function.update_self]
  · rw [written, Function.update_self]
    exact contains_renderInterfaces cfg iface

theorem render_ok {r : RenderedNetwork} (ok : render lib key desired = .ok r) :
    ∃ cfg, lib.unmarshal desired = .ok cfg ∧ r =
      { networkBytes := renderNetwork lib cfg (ifaceOf cfg key)
        interfacesBytes := renderInterfaces cfg (ifaceOf cfg key)
        iface := ifaceOf cfg key } := by
  unfold render at ok
  split at ok
  · cases ok
  · exact ⟨_, by assumption, (Except.ok.inj ok).symm⟩

theorem takenBack_eq {st st' : NetworkState} {t : ℕ}
    (alone : Alone lib paths st (.takenBack t key desired))
    (step : networkStep lib paths fates st (.takenBack t key desired) = some st') : st' = st := by
  simp only [networkStep, restorableNetwork, networkAdapter, restore_restoring] at step
  match saved : backup paths (restoring fates t) key st.files, rendered : render lib key desired with
  | .ok saved, .ok r =>
    obtain rfl := backup_ok saved
    obtain ⟨cfg, parsed, rfl⟩ := render_ok rendered
    have same := alone cfg parsed
    simp only [saved, rendered, Option.some.injEq] at step
    rw [← step]
    congr 1
    funext path
    by_cases shared : path = paths.interfacesPath
    · rw [shared, Function.update_self]
    rw [Function.update_of_ne shared]
    by_cases own : path = configPath paths.networkDir key
    · rw [own, Function.update_self]
    · rw [Function.update_of_ne own]
      exact apply_frame _ _ _ (same ▸ own) shared
  | .error _, _ => simp [saved] at step
  | .ok _, .error _ => simp [saved, rendered] at step

theorem applied_settings {st st' : NetworkState} {t : ℕ}
    (alone : Alone lib paths st (.applied t key desired))
    (step : networkStep lib paths fates st (.applied t key desired) = some st')
    (other : String) (cfg : NetworkConfig) (last : st'.last other = some cfg) :
    HasSettings lib paths st'.files other cfg := by
  simp only [networkStep] at step
  split at step
  · rename_i new _ r parsed _ rendered
    split at step
    · rename_i _ files' done
      obtain rfl := Option.some.inj step
      obtain ⟨_, parsed', rfl⟩ := render_ok rendered
      obtain rfl := Except.ok.inj (parsed.symm.trans parsed')
      obtain rfl := apply_ok done
      dsimp only at last ⊢
      by_cases same : other = ifaceOf new key
      · rw [same, Function.update_self, Option.some.injEq] at last
        rw [same, last]
        exact hasSettings_written cfg _ _
      · rw [Function.update_of_ne same] at last
        exact absurd (alone new parsed other (by rw [last]; rfl)) same
    · cases step
  · cases step

/-- In a run of changes of one interface under its own key, both files have its last settings, and a
change that is taken back leaves every file. -/
theorem network_settings_kept (lib : NetLib) (paths : NetworkPaths) (fates : DiskFates)
    (files : Files) {events : List NetworkEvent} {st : NetworkState}
    (alone : Along (networkStep lib paths fates) (Alone lib paths) ⟨files, fun _ => none⟩ events)
    (run : events.foldlM (networkStep lib paths fates) ⟨files, fun _ => none⟩ = some st) :
    (∀ iface cfg, st.last iface = some cfg → HasSettings lib paths st.files iface cfg) ∧
      ∀ t key desired st', Alone lib paths st (.takenBack t key desired) →
        networkStep lib paths fates st (.takenBack t key desired) = some st' →
        st'.files = st.files := by
  refine ⟨?_, fun t key desired st' alone step => by rw [takenBack_eq alone step]⟩
  refine foldlM_inv_along (fun st : NetworkState => ∀ iface cfg, st.last iface = some cfg →
    HasSettings lib paths st.files iface cfg) ?_
    (fun _ _ last => (Option.some_ne_none _ last.symm).elim) alone run
  intro st event st' kept alone step
  cases event with
  | applied t key desired => exact applied_settings alone step
  | takenBack t key desired => rwa [takenBack_eq alone step]

section Samples

instance (lib : NetLib) (paths : NetworkPaths) (files : Files) (iface : String)
    (cfg : NetworkConfig) : Decidable (HasSettings lib paths files iface cfg) :=
  inferInstanceAs (Decidable (_ ∧ _))

def dhcpOf (iface : String) : NetworkConfig := ⟨iface, "dhcp", "", "", "", "", ""⟩

def networkRun (events : List NetworkEvent) : Option NetworkState :=
  events.foldlM (networkStep someLib installedPaths fun _ _ => .done) ⟨fun _ => none, fun _ => none⟩

/-- A change of `eth1` that succeeds, and one that is taken back. -/
theorem changed_interface_kept :
    ∃ st, networkRun [.applied 0 "eth1" "eth1", .takenBack 1 "eth1" "eth1 static"] = some st ∧
      HasSettings someLib installedPaths st.files "eth1" (dhcpOf "eth1") := by
  have back (last : String → Option NetworkConfig) (files : Files) :
      Alone someLib installedPaths ⟨files, last⟩ (.takenBack 1 "eth1" "eth1 static") := by
    intro cfg parsed
    obtain rfl := Except.ok.inj parsed
    rfl
  have alone : Along (networkStep someLib installedPaths fun _ _ => .done)
      (Alone someLib installedPaths) ⟨fun _ => none, fun _ => none⟩
      [.applied 0 "eth1" "eth1", .takenBack 1 "eth1" "eth1 static"] :=
    ⟨fun _ _ _ set => absurd set Bool.false_ne_true,
      fun st _ => ⟨back st.last st.files, fun _ _ => trivial⟩⟩
  match run : networkRun [.applied 0 "eth1" "eth1", .takenBack 1 "eth1" "eth1 static"] with
  | none => exact absurd (congrArg Option.isSome run) (by decide +kernel)
  | some st =>
    refine ⟨st, rfl, (network_settings_kept _ _ _ _ alone run).1 "eth1" (dhcpOf "eth1") ?_⟩
    have last := congrArg (Option.bind · (·.last "eth1")) run
    exact last.symm.trans (by decide +kernel)

/-- The shared file lacks the first of two interfaces; and a change of `eth1` under the key `eth0`
stays. -/
theorem other_interface_changed :
    (networkRun [.applied 0 "eth0" "eth0", .applied 1 "eth1" "eth1"]).any (fun st =>
      st.last "eth0" = some (dhcpOf "eth0") ∧
        ¬ HasSettings someLib installedPaths st.files "eth0" (dhcpOf "eth0")) = true ∧
    (networkRun [.applied 0 "eth1" "eth1", .takenBack 1 "eth0" "eth1 static"]).any (fun st =>
      st.last "eth1" = some (dhcpOf "eth1") ∧
        ¬ HasSettings someLib installedPaths st.files "eth1" (dhcpOf "eth1")) = true := by
  decide +kernel

end Samples

end NeoRuntime.PlatformApi.Network
