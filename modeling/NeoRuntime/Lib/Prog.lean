import Mathlib.Data.Nat.Notation
import Mathlib.Logic.Basic

/-!
# Interruptible programs

A program is a tree of calls to the outside world; a *handler* gives the operations their meaning on
a state `σ`.  `run` executes a program to its end, `runFor n` stops it after at most `n` operations,
as a loss of power or a kill does.  `Safe C Q`: every state between two operations satisfies `C`,
and the outcome `Q`.
-/

namespace NeoRuntime

/-- A program over the operations `Op`; an operation of type `Op β` answers with a `β`. -/
inductive Prog (Op : Type → Type) (α : Type) : Type 1 where
  | ret (a : α)
  | call {β : Type} (op : Op β) (k : β → Prog Op α)

/-- What an operation does to the state, and what it answers. -/
abbrev Handler (Op : Type → Type) (σ : Type) : Type 1 := (β : Type) → Op β → σ → β × σ

/-- What becomes of a call: it is answered, or it fails before or after it takes effect. -/
inductive Fate where
  | done
  | lost
  | late
  deriving DecidableEq, Repr

/-- A call in the state `s` that is answered with `failed` unless it is `done`. -/
def Fate.apply {σ α : Type} (fate : Fate) (failed : α) (s : σ) (act : α × σ) : α × σ :=
  match fate with
  | .done => act
  | .lost => (failed, s)
  | .late => (failed, act.2)

namespace Prog

variable {Op : Type → Type} {σ α β γ : Type}

protected def bind : Prog Op α → (α → Prog Op β) → Prog Op β
  | ret a, f => f a
  | call op k, f => call op fun r => (k r).bind f

instance : Monad (Prog Op) where
  pure := ret
  bind := Prog.bind

def perform (op : Op γ) : Prog Op γ := call op ret

@[simp] theorem pure_eq_ret (a : α) : (pure a : Prog Op α) = ret a := rfl

@[simp] theorem ret_bind (a : α) (f : α → Prog Op β) : (ret a >>= f) = f a := rfl

@[simp] theorem call_bind (op : Op γ) (k : γ → Prog Op α) (f : α → Prog Op β) :
    (call op k >>= f) = call op fun r => k r >>= f := rfl

@[simp] theorem perform_bind (op : Op γ) (f : γ → Prog Op β) : (perform op >>= f) = call op f := rfl

theorem bind_assoc (p : Prog Op α) (f : α → Prog Op β) (g : β → Prog Op γ) :
    (p >>= f) >>= g = p >>= fun a => f a >>= g := by
  induction p with
  | ret a => rfl
  | call op k ih => exact congrArg (call op) (funext ih)

/-! ## Execution -/

section Execution

variable (h : Handler Op σ)

def run : Prog Op α → σ → α × σ
  | ret a, s => (a, s)
  | call op k, s => run (k (h _ op s).1) (h _ op s).2

/-- The state in which the program is when it has made at most `n` calls. -/
def runFor : ℕ → Prog Op α → σ → σ
  | 0, _, s => s
  | _ + 1, ret _, s => s
  | n + 1, call op k, s => runFor n (k (h _ op s).1) (h _ op s).2

@[simp] theorem run_ret (a : α) (s : σ) : run h (ret a : Prog Op α) s = (a, s) := rfl

@[simp] theorem run_call (op : Op γ) (k : γ → Prog Op α) (s : σ) :
    run h (call op k) s = run h (k (h _ op s).1) (h _ op s).2 := rfl

@[simp] theorem run_perform (op : Op γ) (s : σ) : run h (perform op) s = h _ op s := rfl

theorem run_bind (p : Prog Op α) (f : α → Prog Op β) (s : σ) :
    run h (p >>= f) s = run h (f (run h p s).1) (run h p s).2 := by
  induction p generalizing s with
  | ret a => rfl
  | call op k ih => exact ih _ _

@[simp] theorem runFor_zero (p : Prog Op α) (s : σ) : runFor h 0 p s = s := by
  cases p <;> rfl

@[simp] theorem runFor_ret (n : ℕ) (a : α) (s : σ) : runFor h n (ret a : Prog Op α) s = s := by
  cases n <;> rfl

/-- What is reported of the calls that an execution makes. -/
def report {ρ : Type} (f : (β : Type) → Op β → Option ρ) : Prog Op α → σ → List ρ
  | ret _, _ => []
  | call op k, s => (f _ op).toList ++ report f (k (h _ op s).1) (h _ op s).2

theorem report_perform_bind {ρ : Type} (f : (β : Type) → Op β → Option ρ) (op : Op γ)
    (k : γ → Prog Op α) (s : σ) :
    report h f (perform op >>= k) s = (f _ op).toList ++ report h f (k (h _ op s).1) (h _ op s).2 := rfl

theorem report_bind {ρ : Type} (f : (β : Type) → Op β → Option ρ) (p : Prog Op α)
    (k : α → Prog Op β) (s : σ) :
    report h f (p >>= k) s = report h f p s ++ report h f (k (run h p s).1) (run h p s).2 := by
  induction p generalizing s with
  | ret a => rfl
  | call op next ih => exact (congrArg _ (ih _ _)).trans (List.append_assoc ..).symm

/-- The handler that also logs what is reported of the calls. -/
def logged {ρ : Type} (f : (β : Type) → Op β → Option ρ) : Handler Op (σ × List ρ) :=
  fun _ op s => ((h _ op s.1).1, (h _ op s.1).2, s.2 ++ (f _ op).toList)

theorem runFor_logged {ρ : Type} (f : (β : Type) → Op β → Option ρ) (n : ℕ) (p : Prog Op α) (s : σ)
    (log : List ρ) : (runFor (logged h f) n p (s, log)).1 = runFor h n p s := by
  induction p generalizing s log n with
  | ret a => simp
  | call op k ih =>
    cases n with
    | zero => rfl
    | succ n => exact ih _ _ _ _

/-! ## The program logic -/

/-- Every state between two operations satisfies `C`, and the outcome satisfies `Q`. -/
def Safe (C : σ → Prop) (Q : α → σ → Prop) : Prog Op α → σ → Prop
  | ret a, s => C s ∧ Q a s
  | call op k, s => C s ∧ Safe C Q (k (h _ op s).1) (h _ op s).2

variable {h} {C : σ → Prop} {Q : α → σ → Prop} {s : σ} {p : Prog Op α}

theorem safe_perform_bind {op : Op γ} {f : γ → Prog Op α} :
    Safe h C Q (perform op >>= f) s ↔ C s ∧ Safe h C Q (f (h _ op s).1) (h _ op s).2 := Iff.rfl

theorem safe_run (p : Prog Op α) (s : σ) :
    Safe h (fun _ => True) (fun a t => (a, t) = run h p s) p s := by
  induction p generalizing s with
  | ret a => exact ⟨trivial, rfl⟩
  | call op k ih => exact ⟨trivial, ih _ _⟩

theorem Safe.runFor (safe : Safe h C Q p s) (n : ℕ) : C (runFor h n p s) := by
  induction p generalizing s n with
  | ret a => rw [runFor_ret]; exact safe.1
  | call op k ih =>
    cases n with
    | zero => exact safe.1
    | succ n => exact ih _ safe.2 n

theorem Safe.run (safe : Safe h C Q p s) : Q (run h p s).1 (run h p s).2 := by
  induction p generalizing s with
  | ret a => exact safe.2
  | call op k ih => exact ih _ safe.2

theorem Safe.mono {C' : σ → Prop} {Q' : α → σ → Prop}
    (safe : Safe h C Q p s) (hC : ∀ t, C t → C' t) (hQ : ∀ a t, Q a t → Q' a t) :
    Safe h C' Q' p s := by
  induction p generalizing s with
  | ret a => exact ⟨hC _ safe.1, hQ _ _ safe.2⟩
  | call op k ih => exact ⟨hC _ safe.1, ih _ safe.2⟩

theorem Safe.unlogged {ρ : Type} {f : (β : Type) → Op β → Option ρ} {log : List ρ}
    (safe : Safe (logged h f) (fun t => C t.1) (fun a t => Q a t.1) p (s, log)) : Safe h C Q p s := by
  induction p generalizing s log with
  | ret a => exact safe
  | call op k ih => exact ⟨safe.1, ih _ safe.2⟩

/-- Sequencing: the outcome of the first part is where the second part starts. -/
theorem Safe.bind {P : α → σ → Prop} {Q : β → σ → Prop} {f : α → Prog Op β} (first : Safe h C P p s)
    (second : ∀ a t, P a t → Safe h C Q (f a) t) : Safe h C Q (p >>= f) s := by
  induction p generalizing s with
  | ret a => exact second a s first.2
  | call op k ih => exact ⟨first.1, ih _ first.2⟩

end Execution

end Prog

end NeoRuntime
