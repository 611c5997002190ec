import NeoRuntime.AppManager.Registry
import NeoRuntime.Lib.Kahn

/-!
# The start order of plugins

`DependencyResolver.TopologicalSort` (platform/app-manager/plugin/resolver.go) sorts apps so that the
providers of the capabilities that an app depends on come before it.  The order in which the loop
over the map `deps` has its keys is an input.
-/

namespace NeoRuntime.AppManager

inductive SortError
  | circularDependency
  deriving DecidableEq

namespace PluginRegistry

variable (pr : PluginRegistry)

/-- `deps[id]`. -/
def providers (id : String) : List String :=
  match pr.registry.get id with
  | .error _ => []
  | .ok app => app.dependencies.filterMap fun d => pr.findByCapability d.capability

/-- The maps `inDeg` and `adj`. -/
structure Links where
  inDeg : String → ℤ := fun _ => 0
  adj : String → List String := fun _ => []

def Links.add (m : Links) (provider consumer : String) : Links :=
  { inDeg := Function.update m.inDeg consumer (m.inDeg consumer + 1)
    adj := Function.update m.adj provider (m.adj provider ++ [consumer]) }

variable (ids order : List String)

/-- The loops over `deps` and over the providers. -/
def links : Links :=
  order.foldl (fun m consumer => (pr.providers consumer).foldl
    (fun m provider => if provider ∈ ids then m.add provider consumer else m) m) {}

/-- `TopologicalSort`, if its loop ends in so many rounds. -/
def topologicalSort (rounds : ℕ) : Option (Except SortError (List String)) :=
  let m := pr.links ids order
  (Kahn.loop m.adj rounds
      { inDegree := m.inDeg, queue := ids.filter (m.inDeg · = 0), sorted := [] }).map fun s =>
    if s.sorted.length ≠ ids.length then .error .circularDependency else .ok s.sorted

/-- Both apps are in the list, and the first provides a capability that the second depends on. -/
def Before (ids : List String) (provider consumer : String) : Prop :=
  provider ∈ ids ∧ consumer ∈ ids ∧ provider ∈ pr.providers consumer

def edges : List (String × String) :=
  order.flatMap fun consumer => ((pr.providers consumer).filter (· ∈ ids)).map (·, consumer)

section

variable {pr : PluginRegistry} {ids order : List String}

theorem links_eq_foldl : pr.links ids order =
    (pr.edges ids order).foldl (fun m e => m.add e.1 e.2) {} := by
  rw [links, edges, List.foldl_flatMap]
  congr 1
  funext m consumer
  rw [List.foldl_map, List.foldl_filter]
  congr 1
  funext m provider
  by_cases inside : provider ∈ ids <;> simp [inside]

theorem foldl_add (es : List (String × String)) (m : Links) :
    (∀ c, (es.foldl (fun m e => m.add e.1 e.2) m).inDeg c =
        m.inDeg c + Kahn.openEdges es [] c) ∧
      ∀ p, (es.foldl (fun m e => m.add e.1 e.2) m).adj p = m.adj p ++ Kahn.successors es p := by
  induction es generalizing m with
  | nil => simp [Kahn.openEdges, Kahn.successors]
  | cons e es ih =>
    obtain ⟨degree, adjacent⟩ := ih (m.add e.1 e.2)
    refine ⟨fun c => ?_, fun p => ?_⟩
    · rw [List.foldl_cons, degree c]
      by_cases target : e.2 = c
      · subst target
        simp [Links.add, Kahn.openEdges]
        omega
      · simp [Links.add, Kahn.openEdges, target, Function.update_of_ne (Ne.symm target)]
    · rw [List.foldl_cons, adjacent p]
      by_cases source : e.1 = p
      · subst source
        simp [Links.add, Kahn.successors]
      · simp [Links.add, Kahn.successors, source, Function.update_of_ne (Ne.symm source)]

/-- The maps describe the edges. -/
theorem links_eq (pr : PluginRegistry) (ids order : List String) :
    (∀ c, (pr.links ids order).inDeg c = Kahn.openEdges (pr.edges ids order) [] c) ∧
      (pr.links ids order).adj = Kahn.successors (pr.edges ids order) := by
  rw [links_eq_foldl]
  obtain ⟨degree, adjacent⟩ := foldl_add (pr.edges ids order) {}
  exact ⟨fun c => (degree c).trans (Int.zero_add _), funext fun p => adjacent p⟩

theorem mem_edges (perm : order.Perm (ids.filter (pr.providers · ≠ []))) {p c : String} :
    (p, c) ∈ pr.edges ids order ↔ pr.Before ids p c := by
  simp only [edges, Before, List.mem_flatMap, List.mem_map, List.mem_filter, decide_eq_true_eq,
    Prod.mk.injEq, perm.mem_iff]
  constructor
  · rintro ⟨consumer, ⟨known, -⟩, provider, ⟨provides, inside⟩, rfl, rfl⟩
    exact ⟨inside, known, provides⟩
  · rintro ⟨inside, known, provides⟩
    exact ⟨c, ⟨known, List.ne_nil_of_mem provides⟩, p, ⟨provides, inside⟩, rfl, rfl⟩

theorem sorting_start (distinct : ids.Nodup) : Kahn.Sorting ids (pr.edges ids order)
      { inDegree := (pr.links ids order).inDeg
        queue := ids.filter ((pr.links ids order).inDeg · = 0)
        sorted := [] } where
  degree := (links_eq pr ids order).1
  nodup := distinct.filter _
  inside _ found := List.mem_of_mem_filter found
  free n known := by simp [known, (links_eq pr ids order).1 n]
  order _ _ _ split := by simp at split

end

/-- Apps come after their providers, and an order is found exactly if there is no cycle. -/
theorem topologicalSort_spec {pr : PluginRegistry} {ids order : List String} (distinct : ids.Nodup)
    (perm : order.Perm (ids.filter (pr.providers · ≠ []))) {rounds : ℕ}
    (enough : ids.length ≤ rounds) :
    ((∀ n, ¬ Relation.TransGen (pr.Before ids) n n) →
      ∃ sorted, pr.topologicalSort ids order rounds = some (.ok sorted) ∧ sorted.Perm ids ∧
        ∀ before id after, sorted = before ++ id :: after →
          ∀ p ∈ pr.providers id, p ∈ ids → p ∈ before) ∧
    (pr.topologicalSort ids order rounds = some (.error .circularDependency) ↔
      ∃ n, Relation.TransGen (pr.Before ids) n n) := by
  have relation : (fun p c => (p, c) ∈ pr.edges ids order) = pr.Before ids :=
    funext fun p => funext fun c => propext (mem_edges perm)
  have ends (e : String × String) (found : e ∈ pr.edges ids order) : e.1 ∈ ids ∧ e.2 ∈ ids :=
    ⟨((mem_edges perm).mp found).1, ((mem_edges perm).mp found).2.1⟩
  obtain ⟨s, loops, sorting, ended⟩ := (sorting_start distinct).loop
    (fun e found => (ends e found).2) (show ids.length ≤ ([] : List String).length + rounds by
      simpa using enough)
  have result : pr.topologicalSort ids order rounds =
      some (if s.sorted.length ≠ ids.length then .error .circularDependency else .ok s.sorted) := by
    rw [topologicalSort, (links_eq pr ids order).2, loops]
    rfl
  have nodup : s.sorted.Nodup := (List.nodup_append.mp sorting.nodup).1
  have inside : s.sorted ⊆ ids := fun n found => sorting.inside n (List.mem_append_left _ found)
  have complete : s.sorted.length = ids.length ↔ ∀ n, ¬ Relation.TransGen (pr.Before ids) n n := by
    rw [← relation]
    constructor
    · intro length
      have all := (List.subperm_of_subset nodup inside).perm_of_length_le length.ge
      exact sorting.acyclic (fun e found => (ends e found).2) fun n known => all.mem_iff.mpr known
    · intro acyclic
      have all := sorting.complete ended (fun e found => (ends e found).1) acyclic
      exact ((List.perm_ext_iff_of_nodup nodup distinct).mpr fun n => ⟨fun f => inside f, all n⟩).length_eq
  refine ⟨fun acyclic => ?_, ?_⟩
  · have length := complete.mpr acyclic
    have all := (List.subperm_of_subset nodup inside).perm_of_length_le length.ge
    refine ⟨s.sorted, by rw [result, if_neg (not_not.mpr length)], all, ?_⟩
    intro before id after split p provides known
    have consumer : id ∈ ids := inside (by simp [split])
    exact sorting.order before id after split (p, id) ((mem_edges perm).mpr ⟨known, consumer, provides⟩)
      rfl
  · rw [result]
    by_cases length : s.sorted.length = ids.length
    · rw [if_neg (not_not.mpr length)]
      refine ⟨fun absurd => ?_, fun ⟨n, cycle⟩ => absurd cycle (complete.mp length n)⟩
      cases absurd
    · rw [if_pos length]
      refine ⟨fun _ => ?_, fun _ => rfl⟩
      by_contra none
      exact length (complete.mpr fun n cycle => none ⟨n, cycle⟩)

def cameraAndViewer : PluginRegistry where
  registry :=
    { apps := (∅ : Dict String AppInfo).insert "viewer"
        { id := "viewer", name := "", version := "", image := "", state := .installed
          containerId := "", pid := 0, installedAt := 0, startedAt := 0, stoppedAt := 0
          restartCount := 0, manifestPath := "", instancePath := "", isPlugin := false
          capabilities := [], isMultiContainer := false, webUrl := ""
          dependencies := [⟨"video", "", true⟩, ⟨"still", "", false⟩] }
      file := ∅ }
  capToApp _ := some "camera"

theorem topologicalSort_cameraAndViewer :
    cameraAndViewer.topologicalSort ["viewer", "camera"] ["viewer"] 2 =
        some (.ok ["camera", "viewer"]) ∧
      (cameraAndViewer.topologicalSort ["viewer", "camera"] ["viewer"] 2 =
          some (.error .circularDependency) ↔
        ∃ n, Relation.TransGen (cameraAndViewer.Before ["viewer", "camera"]) n n) :=
  ⟨by decide +kernel, (topologicalSort_spec (by decide) (by decide +kernel) (by decide)).2⟩

end PluginRegistry

end NeoRuntime.AppManager
