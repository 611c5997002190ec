import Mathlib.Data.List.Nodup
import Mathlib.Logic.Function.Basic

/-!
# Changing a memory place by place

A change of the value at one place, as a function of the old value, and what a list of such changes
at different places leaves behind.
-/

namespace NeoRuntime

variable {α β : Type} [DecidableEq α]

/-- The value at a place is replaced by its image. -/
def poke (m : α → β) (change : α × (β → β)) : α → β :=
  Function.update m change.1 (change.2 (m change.1))

theorem poke_self (m : α → β) (a : α) {f : β → β} (same : f (m a) = m a) : poke m (a, f) = m := by
  show Function.update m a (f (m a)) = m
  rw [same, Function.update_eq_self]

theorem foldl_poke_of_notMem {changes : List (α × (β → β))} {a : α}
    (untouched : ∀ change ∈ changes, change.1 ≠ a) (m : α → β) : changes.foldl poke m a = m a := by
  induction changes generalizing m with
  | nil => rfl
  | cons change changes ih =>
    obtain ⟨first, rest⟩ := List.forall_mem_cons.1 untouched
    rw [List.foldl_cons, ih rest, poke, Function.update_of_ne first.symm]

theorem foldl_poke_of_mem {changes : List (α × (β → β))} (distinct : (changes.map Prod.fst).Nodup)
    {a : α} {f : β → β} (mem : (a, f) ∈ changes) (m : α → β) :
    changes.foldl poke m a = f (m a) := by
  induction changes generalizing m with
  | nil => cases mem
  | cons change changes ih =>
    rw [List.map_cons, List.nodup_cons] at distinct
    rw [List.foldl_cons]
    obtain rfl | later := List.mem_cons.1 mem
    · rw [foldl_poke_of_notMem, poke, Function.update_self]
      exact fun other there same => distinct.1 (List.mem_map.2 ⟨other, there, same⟩)
    · have ne : a ≠ change.1 := fun same =>
        distinct.1 (same ▸ List.mem_map_of_mem (f := Prod.fst) later)
      rw [ih distinct.2 later, poke, Function.update_of_ne ne]

end NeoRuntime
