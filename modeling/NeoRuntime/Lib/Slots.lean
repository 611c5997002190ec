import Mathlib.Data.Nat.Notation
import Mathlib.Data.List.ReduceOption
import Mathlib.Order.Nat

/-!
# A slot table that is scanned upwards

A table of `n` slots is filled at the lowest free slot while a scan empties it from the lowest slot
upwards.  When the scan stands at index `p`, the used slots below `p` are the first ones, and so are
the used slots from `p` on: the table is a pair of queues, those behind the scan and those ahead of
it (`slotTable`), and storing, taking and ending the scan are queue operations.
-/

namespace NeoRuntime

variable {α : Type}

def firstFree (slots : List (Option α)) : Option ℕ := slots.findIdx? Option.isNone

theorem getElem?_of_firstFree {slots : List (Option α)} {i : ℕ} (found : firstFree slots = some i) :
    slots[i]? = some none := by
  obtain ⟨lt, empty, -⟩ := List.findIdx?_eq_some_iff_getElem.1 found
  rw [List.getElem?_eq_getElem lt, Option.isNone_iff_eq_none.1 empty]

theorem firstFree_map {β : Type} (f : α → β) (slots : List (Option α)) :
    firstFree (slots.map (Option.map f)) = firstFree slots := by
  rw [firstFree, List.findIdx?_map, firstFree]
  congr 1
  funext slot
  exact Option.isNone_map

/-- `k` slots of which the first ones hold the queue. -/
def slotRow (k : ℕ) (queue : List α) : List (Option α) :=
  queue.map some ++ List.replicate (k - queue.length) none

/-- The table of `n` slots with the scan at index `p`. -/
def slotTable (n p : ℕ) (behind ahead : List α) : List (Option α) :=
  slotRow p behind ++ slotRow (n - p) ahead

section Row

variable {k : ℕ} {queue : List α}

theorem length_slotRow (room : queue.length ≤ k) : (slotRow k queue).length = k := by
  rw [slotRow, List.length_append, List.length_map, List.length_replicate]
  omega

theorem slotRow_nil (k : ℕ) : slotRow k ([] : List α) = List.replicate k none := by
  simp [slotRow]

theorem firstFree_slotRow_full (full : queue.length = k) : firstFree (slotRow k queue) = none := by
  rw [slotRow, full, Nat.sub_self, List.replicate_zero, List.append_nil, firstFree,
    List.findIdx?_eq_none_iff]
  simp

theorem firstFree_slotRow (room : queue.length < k) :
    firstFree (slotRow k queue) = some queue.length := by
  obtain ⟨m, hm⟩ := Nat.exists_eq_add_of_lt room
  have free : k - queue.length = m + 1 := by omega
  have used : (queue.map some).findIdx? Option.isNone = none := by simp
  rw [slotRow, free, List.replicate_succ, firstFree, List.findIdx?_append, used,
    List.findIdx?_cons]
  simp

theorem slotRow_set (room : queue.length < k) (a : α) :
    (slotRow k queue).set queue.length (some a) = slotRow k (queue ++ [a]) := by
  obtain ⟨m, hm⟩ := Nat.exists_eq_add_of_lt room
  have free : k - queue.length = m + 1 := by omega
  have free' : k - (queue ++ [a]).length = m := by
    rw [List.length_append, List.length_singleton]
    omega
  rw [slotRow, slotRow, free, free', List.replicate_succ, List.set_append_right _ _ (by simp)]
  simp

end Row

section Table

variable {n p : ℕ} {behind ahead : List α}

theorem slotTable_start (n : ℕ) (ahead : List α) : slotTable n 0 [] ahead = slotRow n ahead := by
  rw [slotTable, slotRow_nil, List.replicate_zero, List.nil_append, Nat.sub_zero]

theorem slotTable_finish (n : ℕ) (behind : List α) : slotTable n n behind [] = slotRow n behind := by
  rw [slotTable, Nat.sub_self, slotRow_nil, List.replicate_zero, List.append_nil]

theorem firstFree_slotTable_behind (room : behind.length < p) :
    firstFree (slotTable n p behind ahead) = some behind.length := by
  have found := firstFree_slotRow room
  rw [firstFree] at found
  rw [firstFree, slotTable, List.findIdx?_append, found]
  rfl

theorem firstFree_slotTable_ahead (full : behind.length = p) :
    firstFree (slotTable n p behind ahead) =
      (firstFree (slotRow (n - p) ahead)).map (p + ·) := by
  have none := firstFree_slotRow_full full
  rw [firstFree] at none
  rw [firstFree, slotTable, List.findIdx?_append, none, length_slotRow full.le, Option.none_or,
    firstFree]
  congr 1
  funext i
  exact Nat.add_comm i p

theorem slotTable_set_behind (room : behind.length < p) (a : α) :
    (slotTable n p behind ahead).set behind.length (some a) =
      slotTable n p (behind ++ [a]) ahead := by
  rw [slotTable, List.set_append_left _ _ (by rwa [length_slotRow room.le]), slotRow_set room,
    slotTable]

theorem slotTable_set_ahead (le : behind.length ≤ p) (room : ahead.length < n - p) (a : α) :
    (slotTable n p behind ahead).set (p + ahead.length) (some a) =
      slotTable n p behind (ahead ++ [a]) := by
  rw [slotTable, List.set_append_right _ _ (by rw [length_slotRow le]; omega), length_slotRow le,
    Nat.add_sub_cancel_left, slotRow_set room, slotTable]

theorem getElem?_slotTable (le : behind.length ≤ p) (lt : p < n) :
    (slotTable n p behind ahead)[p]? = some ahead.head? := by
  obtain ⟨m, hm⟩ := Nat.exists_eq_add_of_lt lt
  rw [slotTable, List.getElem?_append_right (length_slotRow le).le, length_slotRow le,
    Nat.sub_self]
  cases ahead with
  | nil => simp [slotRow_nil, show n - p = m + 1 by omega, List.replicate_succ]
  | cons a ahead => simp [slotRow]

theorem slotTable_set_none (le : behind.length ≤ p) (lt : p < n) (room : ahead.length ≤ n - p) :
    (slotTable n p behind ahead).set p none = slotTable n (p + 1) behind ahead.tail := by
  obtain ⟨m, hm⟩ := Nat.exists_eq_add_of_lt lt
  have row : (slotRow (n - p) ahead).set 0 none = none :: slotRow (n - (p + 1)) ahead.tail := by
    cases ahead with
    | nil =>
      rw [List.tail_nil, slotRow_nil, slotRow_nil, show n - p = m + 1 by omega,
        show n - (p + 1) = m by omega, List.replicate_succ, List.set_cons_zero]
    | cons a ahead =>
      rw [List.tail_cons, slotRow, slotRow, List.map_cons, List.length_cons, List.cons_append,
        List.set_cons_zero, Nat.sub_add_eq, Nat.sub_add_eq, Nat.sub_right_comm]
  rw [slotTable, List.set_append_right _ _ (length_slotRow le).le, length_slotRow le,
    Nat.sub_self, row, slotTable]
  have grow : slotRow (p + 1) behind = slotRow p behind ++ [none] := by
    rw [slotRow, slotRow, Nat.succ_sub le, List.replicate_succ', List.append_assoc]
  rw [grow, List.append_assoc, List.singleton_append]

theorem reduceOption_slotTable (n p : ℕ) (behind ahead : List α) :
    (slotTable n p behind ahead).reduceOption = behind ++ ahead := by
  have row (k : ℕ) (queue : List α) : (slotRow k queue).reduceOption = queue := by
    rw [slotRow, List.reduceOption_append]
    simp [List.reduceOption]
  rw [slotTable, List.reduceOption_append, row, row]

end Table

end NeoRuntime
