import Mathlib.Algebra.GroupWithZero.Nat
import Mathlib.Data.List.AList

/-!
# Dictionaries

Maps with finitely many entries, whose order is of no consequence: Mathlib's association lists
without repeated keys, at constant value type.  What is looped over is the list of entries, up to
its order; the lemmas say how the operations on one key change it.
-/

namespace NeoRuntime

/-- A map from `κ` to `ν`. -/
abbrev Dict (κ ν : Type) := AList fun _ : κ => ν

namespace Dict

open List

variable {κ ν : Type}

def values (m : Dict κ ν) : List ν := m.entries.map (·.2)

variable [DecidableEq κ] {m : Dict κ ν} {k : κ} {v : ν}

theorem entries_perm_of_lookup (found : m.lookup k = some v) :
    m.entries ~ ⟨k, v⟩ :: (m.erase k).entries := by
  have member : (⟨k, v⟩ : Sigma fun _ : κ => ν) ∈ m.entries := AList.mem_lookup_iff.mp found
  obtain ⟨v', before, after, -, split, rest⟩ := exists_of_kerase (mem_keys_of_mem member)
  have same : v' = v := by
    have here : (⟨k, v'⟩ : Sigma fun _ : κ => ν) ∈ m.entries := by rw [split]; simp
    exact Option.some.inj ((AList.mem_lookup_iff.mpr here).symm.trans found)
  subst same
  have erased : (m.erase k).entries = before ++ after := rest
  rw [erased, split]
  exact perm_middle

theorem entries_erase_of_lookup (missing : m.lookup k = none) : (m.erase k).entries = m.entries :=
  kerase_of_notMem_keys (AList.lookup_eq_none.mp missing)

section

variable (m)

theorem lookup_insert_eq (k k' : κ) (v : ν) :
    (m.insert k v).lookup k' = if k' = k then some v else m.lookup k' := by
  by_cases same : k' = k
  · subst same
    rw [AList.lookup_insert, if_pos rfl]
  · rw [AList.lookup_insert_ne same, if_neg same]

theorem lookup_erase_eq (k k' : κ) :
    (m.erase k).lookup k' = if k' = k then none else m.lookup k' := by
  by_cases same : k' = k
  · subst same
    rw [AList.lookup_erase, if_pos rfl]
  · rw [AList.lookup_erase_ne same, if_neg same]

theorem lookup_ite (c : Prop) [Decidable c] (m : Dict κ ν) (k k' : κ) (v : ν) :
    (if c then m.erase k else m.insert k v).lookup k' =
      if k' = k then (if c then none else some v) else m.lookup k' := by
  split_ifs with holds same same
  · rw [lookup_erase_eq, if_pos same]
  · rw [lookup_erase_eq, if_neg same]
  · rw [lookup_insert_eq, if_pos same]
  · rw [lookup_insert_eq, if_neg same]

theorem entries_insert (k : κ) (v : ν) :
    (m.insert k v).entries = ⟨k, v⟩ :: (m.erase k).entries := AList.entries_insert

theorem erase_insert (k : κ) (v : ν) : (m.insert k v).erase k = m.erase k := by
  refine AList.ext (?_ : kerase k (m.insert k v).entries = (m.erase k).entries)
  rw [entries_insert]
  exact kerase_cons_eq rfl

theorem values_insert (k : κ) (v : ν) : values (m.insert k v) = v :: values (m.erase k) := by
  simp only [values, entries_insert, map_cons]

end

theorem values_perm_of_lookup (found : m.lookup k = some v) : values m ~ v :: values (m.erase k) :=
  (entries_perm_of_lookup found).map _

theorem values_erase_of_lookup (missing : m.lookup k = none) : values (m.erase k) = values m := by
  simp only [values, entries_erase_of_lookup missing]

/-! ## Tallies -/

/-- One is subtracted from an entry, which goes when it is zero. -/
def decrement (m : Dict κ ℕ) (k : κ) : Dict κ ℕ :=
  match m.lookup k with
  | none => m
  | some n => if n = 0 then m else if n - 1 = 0 then m.erase k else m.insert k (n - 1)

/-- The map says how often each key is in the list, and has no entry for those that are not. -/
def Tally (m : Dict κ ℕ) (l : List κ) : Prop :=
  ∀ k, m.lookup k = if l.count k = 0 then none else some (l.count k)

section Tally

variable {m : Dict κ ℕ} {l l' : List κ}

theorem tally_nil : Tally (∅ : Dict κ ℕ) [] := fun _ => rfl

theorem Tally.getD (tally : Tally m l) (k : κ) : (m.lookup k).getD 0 = l.count k := by
  rw [tally k]
  split_ifs with zero
  · rw [zero, Option.getD_none]
  · rfl

theorem Tally.congr {m' : Dict κ ℕ} (tally : Tally m l) (same : ∀ k, m'.lookup k = m.lookup k) : Tally m' l :=
  fun k => (same k).trans (tally k)

theorem Tally.lookup_ne (tally : Tally m l) (k : κ) : m.lookup k ≠ some 0 := by
  rw [tally k]
  split_ifs with zero
  · simp
  · exact fun same => zero (Option.some.inj same)

theorem Tally.perm (tally : Tally m l) (perm : l ~ l') : Tally m l' := fun k => by
  rw [← perm.count_eq k]
  exact tally k

theorem Tally.insert (tally : Tally m l) (k : κ) : Tally (m.insert k (l.count k + 1)) (k :: l) := fun k' => by
  rw [lookup_insert_eq]
  by_cases same : k' = k
  · rw [if_pos same, same, count_cons_self, if_neg (Nat.succ_ne_zero _)]
  · rw [if_neg same, count_cons_of_ne (Ne.symm same)]
    exact tally k'

theorem Tally.decrement (tally : Tally m (k :: l)) : Tally (decrement m k) l := by
  have found : m.lookup k = some (l.count k + 1) := by
    rw [tally k, count_cons_self, if_neg (Nat.succ_ne_zero _)]
  intro k'
  have other : k' ≠ k → m.lookup k' = if l.count k' = 0 then none else some (l.count k') := fun ne => by
    rw [tally k', count_cons_of_ne (Ne.symm ne)]
  rw [Dict.decrement, found]
  dsimp only
  rw [if_neg (Nat.succ_ne_zero _), Nat.add_sub_cancel, lookup_ite]
  by_cases same : k' = k
  · rw [if_pos same, same]
  · rw [if_neg same, other same]

end Tally

end Dict

end NeoRuntime
