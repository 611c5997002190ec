import Mathlib.Data.Nat.Notation
import Mathlib.Data.List.Basic

/-!
# Runs of machines

A machine that answers every input with a list of outputs is run over a list of inputs
(`runLog`); one whose steps may be refused is run by `List.foldlM`.  The rules here turn what one
step does into what a whole run does: an invariant, and a simulation of one machine by another.
-/

namespace NeoRuntime

universe u v

section Log

variable {σ : Type u} {τ : Type v} {ι κ ω ν : Type}

/-- The state after the inputs, and all outputs in order. -/
def runLog (step : σ → ι → σ × List ω) (s : σ) : List ι → σ × List ω
  | [] => (s, [])
  | i :: is =>
      ((runLog step (step s i).1 is).1, (step s i).2 ++ (runLog step (step s i).1 is).2)

variable {step : σ → ι → σ × List ω} {step' : τ → κ → τ × List ν}

@[simp] theorem runLog_nil (s : σ) : runLog step s [] = (s, []) := rfl

theorem runLog_cons (s : σ) (i : ι) (is : List ι) : runLog step s (i :: is) =
      ((runLog step (step s i).1 is).1, (step s i).2 ++ (runLog step (step s i).1 is).2) := rfl

theorem runLog_append (s : σ) (is js : List ι) : runLog step s (is ++ js) =
      ((runLog step (runLog step s is).1 js).1,
        (runLog step s is).2 ++ (runLog step (runLog step s is).1 js).2) := by
  induction is generalizing s with
  | nil => rfl
  | cons i is ih => simp only [List.cons_append, runLog_cons, ih, List.append_assoc]

variable {s : σ} {Cond : σ → ι → Prop} {is : List ι}

/-- What holds at first and is kept by every step holds after every run. -/
theorem runLog_inv (Inv : σ → Prop) (kept : ∀ s i, Inv s → Inv (step s i).1)
    (start : Inv s) (is : List ι) : Inv (runLog step s is).1 := by
  induction is generalizing s with
  | nil => exact start
  | cons i is ih => exact ih (kept s i start)

theorem runLog_outputs {f : ι → List ω} (same : ∀ s i, (step s i).2 = f i) (s : σ)
    (is : List ι) : (runLog step s is).2 = is.flatMap f := by
  induction is generalizing s with
  | nil => rfl
  | cons i is ih => rw [runLog_cons, List.flatMap_cons, same, ih]

theorem runLog_part (part : σ → τ) {f : τ → ι → τ} (is : List ι)
    (same : ∀ i ∈ is, ∀ s, part (step s i).1 = f (part s) i) (s : σ) :
    part (runLog step s is).1 = is.foldl f (part s) := by
  induction is generalizing s with
  | nil => rfl
  | cons i is ih =>
    obtain ⟨first, rest⟩ := List.forall_mem_cons.1 same
    rw [runLog_cons, List.foldl_cons, ih rest, first]

def AlongLog (step : σ → ι → σ × List ω) (Cond : σ → ι → Prop) : σ → List ι → Prop
  | _, [] => True
  | s, i :: is => Cond s i ∧ AlongLog step Cond (step s i).1 is

/-- If a step has good outputs exactly when it meets a condition that keeps the invariant, so has a
run. -/
theorem runLog_forall_iff {Good : ω → Prop} (Inv : σ → Prop)
    (good : ∀ s i, Inv s → ((∀ o ∈ (step s i).2, Good o) ↔ Cond s i))
    (kept : ∀ s i, Inv s → Cond s i → Inv (step s i).1) (start : Inv s) (is : List ι) :
    (∀ o ∈ (runLog step s is).2, Good o) ↔ AlongLog step Cond s is := by
  induction is generalizing s with
  | nil => simp [AlongLog]
  | cons i is ih =>
    rw [runLog_cons, List.forall_mem_append, good s i start]
    exact and_congr_right fun cond => ih (kept s i start cond)

instance AlongLog.decidable (step : σ → ι → σ × List ω) (Cond : σ → ι → Prop)
    [∀ s i, Decidable (Cond s i)] : ∀ (s : σ) (is : List ι), Decidable (AlongLog step Cond s is)
  | _, [] => isTrue trivial
  | s, i :: is =>
      have := AlongLog.decidable step Cond (step s i).1 is
      inferInstanceAs (Decidable (_ ∧ _))

theorem AlongLog.forall_mem {Good : ω → Prop} (Inv : σ → Prop)
    (good : ∀ s i, Inv s → Cond s i → ∀ o ∈ (step s i).2, Good o)
    (kept : ∀ s i, Inv s → Cond s i → Inv (step s i).1) (start : Inv s)
    (along : AlongLog step Cond s is) : ∀ o ∈ (runLog step s is).2, Good o := by
  induction is generalizing s with
  | nil => simp
  | cons i is ih =>
    rw [runLog_cons, List.forall_mem_append]
    exact ⟨good s i start along.1, ih (kept s i start along.1) along.2⟩

theorem AlongLog.of_forall (all : ∀ i ∈ is, ∀ s, Cond s i) : AlongLog step Cond s is := by
  induction is generalizing s with
  | nil => trivial
  | cons i is ih =>
    obtain ⟨first, rest⟩ := List.forall_mem_cons.mp all
    exact ⟨first s, ih rest⟩

theorem AlongLog.inv (Inv : σ → Prop)
    (kept : ∀ s i, Inv s → Cond s i → Inv (step s i).1) (start : Inv s)
    (along : AlongLog step Cond s is) : Inv (runLog step s is).1 := by
  induction is generalizing s with
  | nil => exact start
  | cons i is ih => exact ih (kept s i start along.1) along.2

/-- An output that every step which makes it pays for from a potential. -/
theorem AlongLog.count_le [DecidableEq ω] (Inv : σ → Prop) (o : ω) (potential : σ → ℕ)
    (pays : ∀ s i, Inv s → Cond s i →
      (step s i).2.count o + potential (step s i).1 ≤ potential s)
    (kept : ∀ s i, Inv s → Cond s i → Inv (step s i).1) (start : Inv s)
    (along : AlongLog step Cond s is) : (runLog step s is).2.count o ≤ potential s := by
  induction is generalizing s with
  | nil => exact Nat.zero_le _
  | cons i is ih =>
    have first := pays s i start along.1
    have rest := ih (kept s i start along.1) along.2
    rw [runLog_cons, List.count_append]
    omega

end Log

section Fold

variable {σ ι : Type} {step : σ → ι → σ}

theorem foldl_inv (Inv : σ → Prop) (kept : ∀ s i, Inv s → Inv (step s i)) {s : σ} (start : Inv s)
    (is : List ι) : Inv (is.foldl step s) := by
  induction is generalizing s with
  | nil => exact start
  | cons i is ih => exact ih (kept s i start)

end Fold

section Partial

variable {σ ι : Type} {step : σ → ι → Option σ} {is : List ι}

theorem foldlM_cons_eq_some {i : ι} {s s' : σ} : (i :: is).foldlM step s = some s' ↔
    ∃ m, step s i = some m ∧ is.foldlM step m = some s' := by
  rw [List.foldlM_cons, Option.bind_eq_bind, Option.bind_eq_some_iff]

def Along (step : σ → ι → Option σ) (Cond : σ → ι → Prop) : σ → List ι → Prop
  | _, [] => True
  | s, i :: is => Cond s i ∧ ∀ s', step s i = some s' → Along step Cond s' is

instance Along.decidable (step : σ → ι → Option σ) (Cond : σ → ι → Prop)
    [∀ s i, Decidable (Cond s i)] : ∀ (s : σ) (is : List ι), Decidable (Along step Cond s is)
  | _, [] => isTrue trivial
  | s, i :: is =>
    match found : step s i with
    | none => decidable_of_iff (Cond s i) ⟨fun cond => ⟨cond, by simp [found]⟩, And.left⟩
    | some m =>
      have := Along.decidable step Cond m is
      decidable_of_iff (Cond s i ∧ Along step Cond m is) (by simp [Along, found])

theorem Along.of_forall {Cond : σ → ι → Prop} (all : ∀ i ∈ is, ∀ s, Cond s i)
    {s : σ} : Along step Cond s is := by
  induction is generalizing s with
  | nil => trivial
  | cons i is ih =>
    obtain ⟨first, rest⟩ := List.forall_mem_cons.mp all
    exact ⟨first s, fun _ _ => ih rest⟩

theorem Along.and {First Second : σ → ι → Prop} {s : σ} (first : Along step First s is)
    (second : Along step Second s is) : Along step (fun s i => First s i ∧ Second s i) s is := by
  induction is generalizing s with
  | nil => trivial
  | cons i is ih =>
    exact ⟨⟨first.1, second.1⟩, fun s' taken => ih (first.2 s' taken) (second.2 s' taken)⟩

theorem Along.append {Cond : σ → ι → Prop} {js : List ι} {s m : σ}
    (along : Along step Cond s (is ++ js)) (run : is.foldlM step s = some m) :
    Along step Cond s is ∧ Along step Cond m js := by
  induction is generalizing s with
  | nil =>
    obtain rfl : s = m := by simpa using run
    exact ⟨trivial, along⟩
  | cons i is ih =>
    obtain ⟨n, first, rest⟩ := foldlM_cons_eq_some.1 run
    obtain ⟨front, back⟩ := ih (along.2 n first) rest
    refine ⟨⟨along.1, fun n' first' => ?_⟩, back⟩
    obtain rfl : n = n' := Option.some.inj (first.symm.trans first')
    exact front

theorem foldlM_inv_along {Cond : σ → ι → Prop} (Inv : σ → Prop)
    (kept : ∀ s i s', Inv s → Cond s i → step s i = some s' → Inv s') {s s' : σ} (start : Inv s)
    (along : Along step Cond s is) (run : is.foldlM step s = some s') : Inv s' := by
  induction is generalizing s with
  | nil =>
    obtain rfl : s = s' := by simpa using run
    exact start
  | cons i is ih =>
    obtain ⟨m, first, rest⟩ := foldlM_cons_eq_some.1 run
    exact ih (kept s i m start along.1 first) (along.2 m first) rest

theorem foldlM_inv (Inv : σ → Prop) (kept : ∀ s i s', Inv s → step s i = some s' → Inv s')
    {s s' : σ} (start : Inv s) (run : is.foldlM step s = some s') : Inv s' := by
  have along : Along step (fun _ _ => True) s is := Along.of_forall fun _ _ _ => trivial
  exact foldlM_inv_along Inv (fun s i s' inv _ => kept s i s' inv) start along run

end Partial

end NeoRuntime
