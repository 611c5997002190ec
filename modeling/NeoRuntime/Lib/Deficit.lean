import Mathlib.Algebra.BigOperators.Group.Finset.Piecewise
import Mathlib.Algebra.BigOperators.Ring.Finset
import Mathlib.Algebra.Order.BigOperators.Group.Finset
import Mathlib.Algebra.Order.Ring.Int
import Mathlib.Tactic.Linarith
import Mathlib.Tactic.Ring

/-!
# Rounds of a weighted deficit game

In a round every active member gains its weight, and one with the greatest deficit pays the sum of
the weights.  With fixed members each is chosen in exact proportion to its weight
(`Rounds.count_eq`).  If members come with no deficit, and go, the deficits of any `k` members add
up to at most `spread b c k` in absolute value (`Spread`).
-/

namespace NeoRuntime

variable {ι : Type}

/-- One round, in which `j` is chosen. -/
structure Round (active : Finset ι) (w d d' : ι → ℤ) (j : ι) : Prop where
  mem : j ∈ active
  greatest : ∀ i ∈ active, d i + w i ≤ d j + w j
  gains : ∀ i ∈ active, i ≠ j → d' i = d i + w i
  pays : d' j = d j + w j - ∑ i ∈ active, w i

section Round

variable {active K : Finset ι} {w d d' : ι → ℤ} {j : ι}

theorem Round.sum_of_notMem (round : Round active w d d' j) (sub : K ⊆ active) (not : j ∉ K) :
    ∑ i ∈ K, d' i = ∑ i ∈ K, (d i + w i) := by
  refine Finset.sum_congr rfl fun i mem => round.gains i (sub mem) ?_
  rintro rfl
  exact not mem

variable [DecidableEq ι]

theorem Round.sum_of_mem (round : Round active w d d' j) (sub : K ⊆ active) (mem : j ∈ K) :
    ∑ i ∈ K, d' i = ∑ i ∈ K, (d i + w i) - ∑ i ∈ active, w i := by
  have rest := round.sum_of_notMem ((Finset.erase_subset j K).trans sub) (Finset.notMem_erase j K)
  rw [← Finset.add_sum_erase K d' mem, ← Finset.add_sum_erase K _ mem, rest, round.pays]
  ring

/-- The deficits of all members keep their sum. -/
theorem Round.sum_eq (round : Round active w d d' j) : ∑ i ∈ active, d' i = ∑ i ∈ active, d i := by
  rw [round.sum_of_mem (Finset.Subset.refl _) round.mem, Finset.sum_add_distrib]
  ring

end Round

/-! ## Fixed members -/

section Fixed

variable {active : Finset ι} {w : ι → ℤ}

/-- Rounds with the same members, and the members chosen in them. -/
inductive Rounds (active : Finset ι) (w d : ι → ℤ) : (ι → ℤ) → List ι → Prop
  | none : Rounds active w d d []
  | round {d' d'' : ι → ℤ} {j : ι} {chosen : List ι} (before : Rounds active w d d' chosen)
      (last : Round active w d' d'' j) : Rounds active w d d'' (chosen ++ [j])

variable [DecidableEq ι] {d d' : ι → ℤ} {chosen : List ι}

/-- A deficit is what was gained without what was paid. -/
theorem Rounds.eq (rounds : Rounds active w d d' chosen) {i : ι} (mem : i ∈ active) :
    d' i = d i + chosen.length * w i - chosen.count i * ∑ k ∈ active, w k := by
  induction rounds with
  | none => simp
  | @round d' d'' j chosen before last ih =>
    rw [List.length_append, List.count_append, List.length_singleton, List.count_singleton]
    by_cases same : i = j
    · rw [same, last.pays, ← same, ih]
      simp
      ring
    · rw [last.gains i mem same, ih]
      simp [Ne.symm same]
      ring

/-- From no deficits, none falls to the negative sum of the weights. -/
theorem Rounds.lower (rounds : Rounds active w (fun _ => 0) d' chosen) (pos : ∀ i ∈ active, 0 < w i) :
    ∑ i ∈ active, d' i = 0 ∧ ∀ i ∈ active, -∑ k ∈ active, w k < d' i := by
  induction rounds with
  | none =>
    refine ⟨Finset.sum_const_zero, fun i mem => ?_⟩
    have total : w i ≤ ∑ k ∈ active, w k :=
      Finset.single_le_sum (fun k at_ => (pos k at_).le) mem
    have own := pos i mem
    dsimp only
    omega
  | @round d' d'' j chosen before last ih =>
    obtain ⟨zero, lower⟩ := ih
    refine ⟨last.sum_eq.trans zero, fun i mem => ?_⟩
    by_cases same : i = j
    · -- the greatest of deficits with a positive sum is positive
      have gained : 0 < d' j + w j := by
        by_contra low
        have sum : ∑ i ∈ active, (d' i + w i) ≤ 0 :=
          Finset.sum_nonpos fun i at_ => (last.greatest i at_).trans (not_lt.1 low)
        rw [Finset.sum_add_distrib, zero] at sum
        have total := Finset.sum_pos pos ⟨j, last.mem⟩
        omega
      rw [same, last.pays]
      omega
    · rw [last.gains i mem same]
      have own := pos i mem
      have old := lower i mem
      omega

theorem Rounds.length_eq (rounds : Rounds active w d d' chosen) :
    ∑ i ∈ active, chosen.count i = chosen.length := by
  induction rounds with
  | none => simp
  | @round d' d'' j chosen before last ih =>
    simp only [List.count_append, Finset.sum_add_distrib, ih, List.length_append,
      List.length_singleton, List.count_singleton, beq_iff_eq]
    rw [Finset.sum_ite_eq active j fun _ => 1, if_pos last.mem]

/-- After a multiple of the sum of the weights every member was chosen that multiple of its weight, and
the deficits are gone. -/
theorem Rounds.count_eq (rounds : Rounds active w (fun _ => 0) d' chosen) (pos : ∀ i ∈ active, 0 < w i)
    {k : ℕ} (length : (chosen.length : ℤ) = k * ∑ i ∈ active, w i) {i : ι} (mem : i ∈ active) :
    (chosen.count i : ℤ) = k * w i ∧ d' i = 0 := by
  have total : 0 < ∑ i ∈ active, w i := Finset.sum_pos pos ⟨i, mem⟩
  have deficit : ∀ i ∈ active, d' i = (k * w i - chosen.count i) * ∑ i ∈ active, w i := by
    intro i mem
    rw [rounds.eq mem, length]
    ring
  have atMost : ∀ i ∈ active, (chosen.count i : ℤ) ≤ k * w i := by
    intro i mem
    have lower := (rounds.lower pos).2 i mem
    rw [deficit i mem] at lower
    by_contra more
    have less : (k * w i - chosen.count i : ℤ) ≤ -1 := by omega
    have product := mul_le_mul_of_nonneg_right less total.le
    omega
  have sums : ∑ i ∈ active, (chosen.count i : ℤ) = ∑ i ∈ active, k * w i := by
    rw [← Nat.cast_sum, rounds.length_eq, length, Finset.mul_sum]
  have exact_ := (Finset.sum_eq_sum_iff_of_le atMost).1 sums i mem
  refine ⟨exact_, ?_⟩
  rw [deficit i mem, exact_]
  ring

end Fixed

/-! ## Members that come and go -/

/-- A bound for the deficits of `k` of at most `c` members, if a round adds at most `b`. -/
def spread (b c k : ℕ) : ℤ := b * k * (2 * c + 1 - k)

theorem spread_zero (b c : ℕ) : spread b c 0 = 0 := by simp [spread]

theorem spread_concave (b c k : ℕ) :
    spread b c k + spread b c (k + 2) + 2 * b = 2 * spread b c (k + 1) := by
  unfold spread
  push_cast
  ring

theorem spread_mono (b : ℕ) {c k : ℕ} (le : k + 1 ≤ c) : spread b c k ≤ spread b c (k + 1) := by
  have step : spread b c (k + 1) - spread b c k = b * (2 * (c - k)) := by
    unfold spread
    push_cast
    ring
  have room : (0 : ℤ) ≤ b * (2 * (c - k)) := by
    have : (k : ℤ) ≤ c := by omega
    exact mul_nonneg (by omega) (by omega)
  omega

/-- No set of members has a larger sum of deficits, or of negative deficits. -/
structure Spread (b c : ℕ) (active : Finset ι) (d : ι → ℤ) : Prop where
  few : active.card ≤ c
  upper : ∀ K ⊆ active, ∑ i ∈ K, d i ≤ spread b c K.card
  lower : ∀ K ⊆ active, -∑ i ∈ K, d i ≤ spread b c K.card

section Spread

variable {b c : ℕ} {active : Finset ι} {w d d' : ι → ℤ} {j : ι}

theorem spread_empty (b c : ℕ) (d : ι → ℤ) : Spread b c ∅ d := by
  refine ⟨Nat.zero_le _, fun K sub => ?_, fun K sub => ?_⟩
  all_goals
    rw [Finset.subset_empty.1 sub]
    simp [spread_zero]

theorem Spread.congr (spreads : Spread b c active d) (same : ∀ i ∈ active, d' i = d i) :
    Spread b c active d' := by
  have sums : ∀ K ⊆ active, ∑ i ∈ K, d' i = ∑ i ∈ K, d i := fun K sub =>
    Finset.sum_congr rfl fun i mem => same i (sub mem)
  refine ⟨spreads.few, fun K sub => ?_, fun K sub => ?_⟩
  · rw [sums K sub]
    exact spreads.upper K sub
  · rw [sums K sub]
    exact spreads.lower K sub

theorem Spread.subset (spreads : Spread b c active d) {active' : Finset ι} (sub : active' ⊆ active) :
    Spread b c active' d :=
  ⟨(Finset.card_le_card sub).trans spreads.few, fun K at_ => spreads.upper K (at_.trans sub),
    fun K at_ => spreads.lower K (at_.trans sub)⟩

theorem sum_weights_le (nonneg : ∀ i ∈ active, 0 ≤ w i) {K : Finset ι} (sub : K ⊆ active) :
    0 ≤ ∑ i ∈ K, w i ∧ ∑ i ∈ K, w i ≤ ∑ i ∈ active, w i :=
  ⟨Finset.sum_nonneg fun i mem => nonneg i (sub mem),
    Finset.sum_le_sum_of_subset_of_nonneg sub fun i mem _ => nonneg i mem⟩

theorem Spread.le (spreads : Spread b c active d) {i : ι} (mem : i ∈ active) :
    -(2 * b * c) ≤ d i ∧ d i ≤ 2 * b * c := by
  have upper := spreads.upper {i} (Finset.singleton_subset_iff.2 mem)
  have lower := spreads.lower {i} (Finset.singleton_subset_iff.2 mem)
  have one : spread b c 1 = 2 * b * c := by
    unfold spread
    push_cast
    ring
  rw [Finset.sum_singleton, Finset.card_singleton, one] at upper lower
  omega

variable [DecidableEq ι] (spreads : Spread b c active d)

include spreads

theorem Spread.insert (zero : d j = 0)
    (few : (Insert.insert j active).card ≤ c) : Spread b c (Insert.insert j active) d := by
  have without : ∀ K ⊆ Insert.insert j active, j ∈ K →
      K.erase j ⊆ active ∧ ∑ i ∈ K, d i = ∑ i ∈ K.erase j, d i ∧
        spread b c (K.erase j).card ≤ spread b c K.card := by
    intro K sub mem
    have card := Finset.card_erase_add_one mem
    have small := (Finset.card_le_card sub).trans few
    refine ⟨(Finset.subset_insert_iff).1 sub, ?_, ?_⟩
    · rw [← Finset.add_sum_erase K d mem, zero, zero_add]
    · rw [← card]
      exact spread_mono b (by omega)
  refine ⟨few, fun K sub => ?_, fun K sub => ?_⟩
  · by_cases mem : j ∈ K
    · obtain ⟨old, sum, mono⟩ := without K sub mem
      rw [sum]
      exact (spreads.upper _ old).trans mono
    · exact spreads.upper K ((Finset.subset_insert_iff_of_notMem mem).1 sub)
  · by_cases mem : j ∈ K
    · obtain ⟨old, sum, mono⟩ := without K sub mem
      rw [sum]
      exact (spreads.lower _ old).trans mono
    · exact spreads.lower K ((Finset.subset_insert_iff_of_notMem mem).1 sub)

/-- The chosen member has the greatest deficit, so the sums are concave in the number of members. -/
theorem Spread.upper_round (round : Round active w d d' j)
    (nonneg : ∀ i ∈ active, 0 ≤ w i) (light : ∑ i ∈ active, w i ≤ b) (K : Finset ι) (sub : K ⊆ active) :
    ∑ i ∈ K, d' i ≤ spread b c K.card := by
  by_cases mem : j ∈ K
  · have weights := sum_weights_le nonneg sub
    have before := spreads.upper K sub
    rw [round.sum_of_mem sub mem, Finset.sum_add_distrib]
    omega
  · obtain rfl | ⟨i, at_⟩ := K.eq_empty_or_nonempty
    · simp [spread_zero]
    · have less := spreads.upper (K.erase i) ((Finset.erase_subset i K).trans sub)
      have wide : Insert.insert j K ⊆ active := Finset.insert_subset round.mem sub
      have more := spreads.upper (Insert.insert j K) wide
      have lessWeights := sum_weights_le nonneg ((Finset.erase_subset i K).trans sub)
      have moreWeights := sum_weights_le nonneg wide
      have greatest := round.greatest i (sub at_)
      have card := Finset.card_erase_add_one at_
      rw [Finset.card_insert_of_notMem mem, Finset.sum_insert mem, ← card] at more
      rw [Finset.sum_insert mem] at moreWeights
      have concave := spread_concave b c (K.erase i).card
      rw [round.sum_of_notMem sub mem, Finset.sum_add_distrib, ← card]
      have sums := Finset.add_sum_erase K d at_
      have weights := Finset.add_sum_erase K w at_
      rw [show (K.erase i).card + 1 + 1 = (K.erase i).card + 2 from rfl] at more
      linarith

/-- A member that is not in the set has at most the deficit of the chosen one in it. -/
theorem Spread.lower_round (round : Round active w d d' j)
    (nonneg : ∀ i ∈ active, 0 ≤ w i) (light : ∑ i ∈ active, w i ≤ b) (K : Finset ι) (sub : K ⊆ active) :
    -∑ i ∈ K, d' i ≤ spread b c K.card := by
  by_cases mem : j ∈ K
  · by_cases all : active ⊆ K
    · obtain rfl := Finset.Subset.antisymm sub all
      rw [round.sum_eq]
      exact spreads.lower K sub
    · obtain ⟨i, active_i, not⟩ := Finset.not_subset.1 all
      have less := spreads.lower (K.erase j) ((Finset.erase_subset j K).trans sub)
      have wide : Insert.insert i K ⊆ active := Finset.insert_subset active_i sub
      have more := spreads.lower (Insert.insert i K) wide
      have lessWeights := sum_weights_le nonneg ((Finset.erase_subset j K).trans sub)
      have moreWeights := sum_weights_le nonneg wide
      have greatest := round.greatest i active_i
      have card := Finset.card_erase_add_one mem
      rw [Finset.card_insert_of_notMem not, Finset.sum_insert not, ← card] at more
      rw [Finset.sum_insert not] at moreWeights
      have concave := spread_concave b c (K.erase j).card
      rw [round.sum_of_mem sub mem, Finset.sum_add_distrib, ← card]
      have sums := Finset.add_sum_erase K d mem
      have weights := Finset.add_sum_erase K w mem
      rw [show (K.erase j).card + 1 + 1 = (K.erase j).card + 2 from rfl] at more
      linarith
  · have weights := sum_weights_le nonneg sub
    have before := spreads.lower K sub
    rw [round.sum_of_notMem sub mem, Finset.sum_add_distrib]
    omega

theorem Spread.round (round : Round active w d d' j)
    (nonneg : ∀ i ∈ active, 0 ≤ w i) (light : ∑ i ∈ active, w i ≤ b) : Spread b c active d' :=
  ⟨spreads.few, spreads.upper_round round nonneg light, spreads.lower_round round nonneg light⟩

end Spread

end NeoRuntime
