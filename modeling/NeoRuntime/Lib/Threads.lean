import Mathlib.Data.Nat.Notation
import Mathlib.Data.List.Basic

/-!
# Threads

The threads of a system are a list of local states, and a step replaces one of them.  The rule here
says what such a step does to the number of threads with a property.
-/

namespace NeoRuntime

variable {α : Type} {p : α → Bool} {threads : List α} {i : ℕ} {t : α}

theorem countP_set_add (found : threads[i]? = some t) (t' : α) :
    (threads.set i t').countP p + (p t).toNat = threads.countP p + (p t').toNat := by
  obtain ⟨lt, rfl⟩ := List.getElem?_eq_some_iff.mp found
  rw [List.countP_set lt]
  cases here : p threads[i] with
  | false => cases p t' <;> simp
  | true =>
    have pos : 0 < threads.countP p := List.countP_pos_iff.mpr ⟨_, List.getElem_mem lt, here⟩
    cases p t' <;> simp <;> omega

end NeoRuntime
