import Mathlib.Data.Nat.Notation
import Mathlib.Data.List.Basic

/-!
# Parsers of a growing buffer

A parser takes one item after the other from the front of a buffer that grows at its end.  If more
input never changes how an item ends, the items do not depend on the pieces in which the input
arrives (`foldl_receive`).
-/

namespace NeoRuntime

/-- `next` takes the first item off a buffer that contains all of it. -/
structure ItemParser (β ω : Type) where
  next : List β → Option (ω × List β)
  shrinks : ∀ {bs o rest}, next bs = some (o, rest) → rest.length < bs.length
  stable : ∀ {bs o rest}, next bs = some (o, rest) → ∀ more, next (bs ++ more) = some (o, rest ++ more)

namespace ItemParser

variable {β ω : Type} (p : ItemParser β ω)

/-- The items in a buffer, as many as the first argument at most, and what is left. -/
def take : ℕ → List β → List ω × List β
  | 0, bs => ([], bs)
  | n + 1, bs =>
    match p.next bs with
    | none => ([], bs)
    | some (o, rest) => (o :: (take n rest).1, (take n rest).2)

def drain (bs : List β) : List ω × List β := p.take bs.length bs

variable {p}

theorem next_nil : p.next [] = none := by
  cases found : p.next [] with
  | none => rfl
  | some item => simpa using p.shrinks found

theorem take_nil (n : ℕ) : p.take n [] = ([], []) := by
  cases n <;> simp [take, next_nil]

theorem take_congr {m n : ℕ} {bs : List β} (left : bs.length ≤ m) (right : bs.length ≤ n) :
    p.take m bs = p.take n bs := by
  induction m generalizing n bs with
  | zero =>
    obtain rfl := List.length_eq_zero_iff.mp (Nat.le_zero.mp left)
    rw [take_nil, take_nil]
  | succ m ih =>
    cases n with
    | zero =>
      obtain rfl := List.length_eq_zero_iff.mp (Nat.le_zero.mp right)
      rw [take_nil, take_nil]
    | succ n =>
      cases found : p.next bs with
      | none => simp [take, found]
      | some item =>
        have less := p.shrinks found
        simp only [take, found]
        rw [ih (n := n) (by omega) (by omega)]

theorem drain_of_none {bs : List β} (found : p.next bs = none) : p.drain bs = ([], bs) := by
  unfold drain
  cases bs.length <;> simp [take, found]

theorem drain_of_some {bs rest : List β} {o : ω} (found : p.next bs = some (o, rest)) :
    p.drain bs = (o :: (p.drain rest).1, (p.drain rest).2) := by
  have less := p.shrinks found
  rw [drain, ← Nat.succ_pred_eq_of_pos (Nat.lt_of_le_of_lt (Nat.zero_le _) less)]
  simp only [take, found]
  rw [take_congr (Nat.le_pred_of_lt less) (Nat.le_refl _), drain]

/-- What is left of a buffer is parsed on with what comes next. -/
theorem drain_append (bs more : List β) :
    p.drain (bs ++ more) = ((p.drain bs).1 ++ (p.drain ((p.drain bs).2 ++ more)).1,
      (p.drain ((p.drain bs).2 ++ more)).2) := by
  induction h : bs.length using Nat.strongRecOn generalizing bs with
  | ind n ih =>
    cases found : p.next bs with
    | none => simp [drain_of_none found]
    | some item =>
      rw [drain_of_some found, drain_of_some (p.stable found more),
        ih item.2.length (h ▸ p.shrinks found) item.2 rfl]
      rfl

variable (p)

def receive (s : List ω × List β) (piece : List β) : List ω × List β :=
  (s.1 ++ (p.drain (s.2 ++ piece)).1, (p.drain (s.2 ++ piece)).2)

theorem foldl_receive (pieces : List (List β)) :
    pieces.foldl p.receive (p.drain []) = p.drain pieces.flatten := by
  suffices all : ∀ bs, pieces.foldl p.receive (p.drain bs) = p.drain (bs ++ pieces.flatten) from
    all []
  induction pieces with
  | nil => simp
  | cons piece pieces ih =>
    intro bs
    rw [List.foldl_cons, List.flatten_cons, ← List.append_assoc, ← ih, drain_append bs piece]
    rfl

end ItemParser

end NeoRuntime
