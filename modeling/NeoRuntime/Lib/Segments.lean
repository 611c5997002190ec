import Mathlib.Data.List.Basic

/-!
# Segments of a stream

`Picks segs stream` says that the lists `segs` lie in `stream` as contiguous segments, in this
order and without overlap.
-/

namespace NeoRuntime

variable {α : Type}

/-- The lists are disjoint segments of the stream, in order. -/
inductive Picks : List (List α) → List α → Prop where
  | none (gap : List α) : Picks [] gap
  | pick (gap seg : List α) {segs : List (List α)} {rest : List α} :
      Picks segs rest → Picks (seg :: segs) (gap ++ seg ++ rest)

namespace Picks

variable {segs segs' : List (List α)} {stream stream' : List α} (picks : Picks segs stream)

include picks

theorem append_gap (gap : List α) : Picks segs (stream ++ gap) := by
  induction picks with
  | none first => exact .none _
  | pick first seg _ ih =>
    rw [List.append_assoc]
    exact .pick first seg ih

theorem gap_append (gap : List α) : Picks segs (gap ++ stream) := by
  cases picks with
  | none first => exact .none _
  | pick first seg rest =>
    rw [List.append_assoc, ← List.append_assoc]
    simpa using Picks.pick (gap ++ first) seg rest

theorem append (picks' : Picks segs' stream') :
    Picks (segs ++ segs') (stream ++ stream') := by
  induction picks with
  | none gap => exact picks'.gap_append gap
  | pick gap seg _ ih =>
    rw [List.append_assoc]
    exact .pick gap seg ih

theorem snoc (seg : List α) : Picks (segs ++ [seg]) (stream ++ seg) :=
  picks.append (by simpa using Picks.pick [] seg (Picks.none []))

theorem sublist (sub : segs'.Sublist segs) : Picks segs' stream := by
  induction picks generalizing segs' with
  | none gap =>
    obtain rfl := List.sublist_nil.1 sub
    exact .none gap
  | pick gap seg _ ih =>
    cases sub with
    | cons _ sub => exact (ih sub).gap_append _
    | cons_cons _ sub => exact .pick gap seg (ih sub)

end Picks

end NeoRuntime
