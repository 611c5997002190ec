import Mathlib.Data.Int.Notation
import Mathlib.Data.List.Nodup
import Mathlib.Logic.Function.Basic
import Mathlib.Order.WellFoundedSet

/-!
# Sorting a graph by in-degrees

Kahn's algorithm on a list of edges, which may hold an edge several times.  As many rounds as there
are nodes suffice (`Sorting.loop`); every node is reached exactly if the graph has no cycle
(`Sorting.complete`, `Sorting.acyclic`).
-/

namespace NeoRuntime.Kahn

variable {α : Type} [DecidableEq α]

/-- The targets of the edges from a node, in order. -/
def successors (edges : List (α × α)) (a : α) : List α := (edges.filter (·.1 = a)).map Prod.snd

/-- The number of edges into `c` from nodes that are not done. -/
def openEdges (edges : List (α × α)) (done : List α) (c : α) : ℕ :=
  edges.countP fun e => e.2 = c ∧ e.1 ∉ done

structure State (α : Type) where
  inDegree : α → ℤ
  queue : List α
  sorted : List α

/-- An edge to `c` is taken away. -/
def release (s : (α → ℤ) × List α) (c : α) : (α → ℤ) × List α :=
  let inDegree := Function.update s.1 c (s.1 c - 1)
  (inDegree, if inDegree c = 0 then s.2 ++ [c] else s.2)

/-- The round for the node that is taken from the queue. -/
def visit (next : α → List α) (s : State α) (node : α) (queue : List α) : State α :=
  let released := (next node).foldl release (s.inDegree, queue)
  { inDegree := released.1, queue := released.2, sorted := s.sorted ++ [node] }

def loop (next : α → List α) : ℕ → State α → Option (State α)
  | 0, s => if s.queue = [] then some s else none
  | rounds + 1, s =>
    match s.queue with
    | [] => some s
    | node :: queue => loop next rounds (visit next s node queue)

/-- The targets of the edges taken away that are free now are put into the queue, once. -/
theorem foldl_release {d : α → ℤ} {ns : List α} (enough : ∀ c, (ns.count c : ℤ) ≤ d c)
    (queue : List α) : ∃ pushed : List α,
      (ns.foldl release (d, queue)).2 = queue ++ pushed ∧ pushed.Nodup ∧
      (∀ c, c ∈ pushed ↔ c ∈ ns ∧ d c = ns.count c) ∧
      ∀ c, (ns.foldl release (d, queue)).1 c = d c - ns.count c := by
  induction ns generalizing d queue with
  | nil => exact ⟨[], by simp, List.nodup_nil, by simp, by simp⟩
  | cons n ns ih =>
    have counted (c : α) : Function.update d n (d n - 1) c - ns.count c = d c - (n :: ns).count c := by
      by_cases same : c = n
      · subst same
        simp
        omega
      · simp [Function.update_of_ne same, List.count_cons_of_ne (Ne.symm same)]
    have enough' (c : α) : (ns.count c : ℤ) ≤ Function.update d n (d n - 1) c := by
      have := counted c
      have := enough c
      omega
    obtain ⟨pushed, later, nodup, mem, degree⟩ := ih enough' (release (d, queue) n).2
    have mem' (c : α) : c ∈ pushed ↔ c ∈ ns ∧ d c = (n :: ns).count c := by
      rw [mem]
      have := counted c
      exact and_congr_right fun _ => by omega
    rw [List.foldl_cons]
    have total (c : α) : (ns.foldl release (release (d, queue) n)).1 c = d c - (n :: ns).count c :=
      (degree c).trans (counted c)
    by_cases last : d n = 1
    · -- no further edge to this node is left
      have single : ns.count n = 0 := by
        have := enough n
        rw [List.count_cons_self] at this
        omega
      have absent : n ∉ ns := List.count_eq_zero.mp single
      refine ⟨n :: pushed, ?_, List.nodup_cons.mpr ⟨fun inside => absent ((mem' n).mp inside).1, nodup⟩,
        fun c => ?_, total⟩
      · have first : (release (d, queue) n).2 = queue ++ [n] := by simp [release, last]
        change (ns.foldl release (_, (release (d, queue) n).2)).2 = _
        rw [later, first, List.append_assoc]
        rfl
      · rw [List.mem_cons, mem', List.mem_cons, or_and_right]
        refine or_congr_left (and_iff_left_of_imp ?_).symm
        rintro rfl
        rw [List.count_cons_self, single, last]
        rfl
    · refine ⟨pushed, ?_, nodup, fun c => ?_, total⟩
      · have first : (release (d, queue) n).2 = queue := by
          simp only [release, Function.update_self]
          rw [if_neg (by omega)]
        change (ns.foldl release (_, (release (d, queue) n).2)).2 = _
        rw [later, first]
      · rw [mem', List.mem_cons, or_and_right, or_iff_right_of_imp]
        rintro ⟨rfl, all⟩
        refine ⟨?_, all⟩
        rw [List.count_cons_self] at all
        exact List.count_pos_iff.mp (by omega)

theorem openEdges_eq {edges : List (α × α)} {done : List α} {node : α} (new : node ∉ done) (c : α) :
    openEdges edges done c =
      (successors edges node).count c + openEdges edges (done ++ [node]) c := by
  induction edges with
  | nil => rfl
  | cons e edges ih =>
    simp only [openEdges, successors] at ih ⊢
    rw [List.countP_cons, List.countP_cons, ih, List.filter_cons]
    by_cases source : e.1 = node
    · have old : e.1 ∉ done := source ▸ new
      by_cases target : e.2 = c
      · simp [source, target, new]
        omega
      · simp [source, target, new]
    · by_cases old : e.1 ∈ done
      · simp [source, old]
      · by_cases target : e.2 = c
        · simp [source, target, old]
          omega
        · simp [source, target, old]

theorem openEdges_eq_zero_iff {edges : List (α × α)} {done : List α} {c : α} :
    openEdges edges done c = 0 ↔ ∀ e ∈ edges, e.2 = c → e.1 ∈ done := by
  simp [openEdges, List.countP_eq_zero]

/-- The queue has the free nodes that are not done, and what is done comes after its sources. -/
structure Sorting (nodes : List α) (edges : List (α × α)) (s : State α) : Prop where
  degree : ∀ c, s.inDegree c = openEdges edges s.sorted c
  nodup : (s.sorted ++ s.queue).Nodup
  inside : ∀ n ∈ s.sorted ++ s.queue, n ∈ nodes
  free : ∀ n ∈ nodes, openEdges edges s.sorted n = 0 ↔ n ∈ s.sorted ++ s.queue
  order : ∀ before c after, s.sorted = before ++ c :: after → ∀ e ∈ edges, e.2 = c → e.1 ∈ before

namespace Sorting

variable {nodes : List α} {edges : List (α × α)} {s : State α} (sorting : Sorting nodes edges s)

include sorting

theorem visit (targets : ∀ e ∈ edges, e.2 ∈ nodes) {node : α}
    {queue : List α} (head : s.queue = node :: queue) :
    Sorting nodes edges (visit (successors edges) s node queue) := by
  have fresh : node ∉ s.sorted ∧ (s.sorted ++ node :: queue).Nodup := by
    have := head ▸ sorting.nodup
    exact ⟨fun inside => (List.nodup_append.mp this).2.2 node inside node List.mem_cons_self rfl, this⟩
  have split (c : α) : openEdges edges s.sorted c = _ := openEdges_eq fresh.1 c
  obtain ⟨pushed, queued, nodup, mem, degree⟩ := foldl_release
    (show ∀ c, ((successors edges node).count c : ℤ) ≤ s.inDegree c from
      fun c => by rw [sorting.degree c, split c]; omega) queue
  have mem' (c : α) : c ∈ pushed ↔
      c ∈ successors edges node ∧ openEdges edges (s.sorted ++ [node]) c = 0 := by
    rw [mem, sorting.degree c, split c]
    exact and_congr_right fun _ => by omega
  have target {c : α} (reached : c ∈ successors edges node) : c ∈ nodes := by
    obtain ⟨e, found, rfl⟩ := List.mem_map.mp reached
    exact targets e (List.mem_of_mem_filter found)
  have notFree {c : α} (reached : c ∈ successors edges node) : c ∉ s.sorted ++ node :: queue := by
    rw [← head, ← sorting.free c (target reached), split c]
    have := List.count_pos_iff.mpr reached
    omega
  have lists : s.sorted ++ [node] ++ (queue ++ pushed) = s.sorted ++ node :: queue ++ pushed := by simp
  have shape : Kahn.visit (successors edges) s node queue =
      ⟨((successors edges node).foldl release (s.inDegree, queue)).1, queue ++ pushed,
        s.sorted ++ [node]⟩ := by
    rw [Kahn.visit, queued]
  rw [shape]
  refine ⟨fun c => ?_, ?_, ?_, fun n known => ?_, ?_⟩
  · dsimp only
    rw [degree c, sorting.degree c, split c]
    omega
  · dsimp only
    rw [lists, List.nodup_append]
    refine ⟨fresh.2, nodup, fun a old b new same => ?_⟩
    subst same
    exact notFree ((mem' a).mp new).1 old
  · dsimp only
    rw [lists]
    intro n inside
    obtain old | new := List.mem_append.mp inside
    · exact sorting.inside n (head ▸ old)
    · exact target ((mem' n).mp new).1
  · dsimp only
    rw [lists, List.mem_append, mem', ← head, ← sorting.free n known, split n]
    by_cases reached : n ∈ successors edges node
    · have := List.count_pos_iff.mpr reached
      simp only [reached, true_and]
      omega
    · have := List.count_eq_zero.mpr reached
      simp only [reached, false_and, or_false]
      omega
  · intro before c after shape e found arrives
    obtain ⟨rfl, rfl, -⟩ | ⟨after', rfl, old⟩ :
        (before = s.sorted ∧ c = node ∧ after = []) ∨
          ∃ after', after = after' ++ [node] ∧ s.sorted = before ++ c :: after' := by
      dsimp only at shape
      obtain rfl | ⟨after', last, rfl⟩ : after = [] ∨ ∃ after' last, after = after' ++ [last] := by
        simpa [List.concat_eq_append] using List.eq_nil_or_concat after
      · obtain ⟨same, node'⟩ := List.append_inj' shape rfl
        exact .inl ⟨same.symm, (List.singleton_inj.mp node').symm, rfl⟩
      · right
        rw [← List.cons_append, ← List.append_assoc] at shape
        obtain ⟨same, node'⟩ := List.append_inj' shape rfl
        exact ⟨after', by rw [List.singleton_inj.mp node'], same⟩
    · have free := (sorting.free c (sorting.inside c (by simp [head]))).mpr (by simp [head])
      exact openEdges_eq_zero_iff.mp free e found arrives
    · exact sorting.order before c after' old e found arrives

/-- As many rounds as there are nodes are enough. -/
theorem loop (targets : ∀ e ∈ edges, e.2 ∈ nodes) {rounds : ℕ}
    (enough : nodes.length ≤ s.sorted.length + rounds) :
    ∃ s', loop (successors edges) rounds s = some s' ∧ Sorting nodes edges s' ∧ s'.queue = [] := by
  induction rounds generalizing s with
  | zero =>
    have all := (List.subperm_of_subset sorting.nodup sorting.inside).length_le
    rw [List.length_append] at all
    have empty : s.queue = [] := List.eq_nil_of_length_eq_zero (by omega)
    exact ⟨s, by rw [Kahn.loop, if_pos empty], sorting, empty⟩
  | succ rounds ih =>
    cases head : s.queue with
    | nil => exact ⟨s, by simp only [Kahn.loop, head], sorting, head⟩
    | cons node queue =>
      obtain ⟨s', ends, others⟩ := ih (sorting.visit targets head) (by
        simp only [Kahn.visit, List.length_append, List.length_singleton]
        omega)
      exact ⟨s', by simpa only [Kahn.loop, head] using ends, others⟩

/-- At the end of the loop every node is sorted, if there is no cycle. -/
theorem complete (ended : s.queue = [])
    (sources : ∀ e ∈ edges, e.1 ∈ nodes)
    (acyclic : ∀ n, ¬ Relation.TransGen (fun a b => (a, b) ∈ edges) n n) :
    ∀ n ∈ nodes, n ∈ s.sorted := by
  have : IsStrictOrder α (Relation.TransGen fun a b => (a, b) ∈ edges) :=
    { irrefl := acyclic, trans := fun _ _ _ => Relation.TransGen.trans }
  have founded : {n | n ∈ nodes}.WellFoundedOn (Relation.TransGen fun a b => (a, b) ∈ edges) :=
    (List.finite_toSet nodes).wellFoundedOn
  intro n known
  refine founded.induction (P := fun n => n ∈ s.sorted) known fun c inside before => ?_
  have free : openEdges edges s.sorted c = 0 := openEdges_eq_zero_iff.mpr fun e found target =>
    before e.1 (sources e found) (.single (by rw [← target]; exact found))
  simpa [ended] using (sorting.free c inside).mp free

/-- If every node is sorted, there is no cycle. -/
theorem acyclic (targets : ∀ e ∈ edges, e.2 ∈ nodes)
    (all : ∀ n ∈ nodes, n ∈ s.sorted) (n : α) :
    ¬ Relation.TransGen (fun a b => (a, b) ∈ edges) n n := by
  have forward {a b : α} (edge : (a, b) ∈ edges) : s.sorted.idxOf a < s.sorted.idxOf b := by
    obtain ⟨before, after, split⟩ := List.append_of_mem (all b (targets _ edge))
    have source := sorting.order before b after split _ edge rfl
    have distinct := (List.nodup_append.mp sorting.nodup).1
    rw [split, List.nodup_append] at distinct
    have later : b ∉ before := fun old => distinct.2.2 b old b List.mem_cons_self rfl
    rw [split, List.idxOf_append_of_mem source, List.idxOf_append_of_notMem later, List.idxOf_cons_self]
    have := List.idxOf_lt_length_iff.mpr source
    omega
  intro cycle
  have : ∀ {b : α}, Relation.TransGen (fun a b => (a, b) ∈ edges) n b →
      s.sorted.idxOf n < s.sorted.idxOf b := by
    intro b path
    induction path with
    | single edge => exact forward edge
    | tail _ edge ih => exact ih.trans (forward edge)
  exact lt_irrefl _ (this cycle)

end Sorting

end NeoRuntime.Kahn
