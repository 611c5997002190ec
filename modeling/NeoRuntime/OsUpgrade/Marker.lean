import Mathlib.Data.List.Infix
import NeoRuntime.Lib.Run

/-!
# The search for markers

`markerWriter` (platform/osupgrade/validate.go) looks for a marker in a file that is written to it in
pieces.  It counts how many bytes of the marker it has seen.  After a byte that does not fit, it goes
on with the first byte of the marker or with nothing; a longer beginning of the marker that ends here
is lost.
-/

namespace NeoRuntime.OsUpgrade

structure MarkerWriter where
  matched : ℕ := 0
  found : Bool := false
  deriving DecidableEq

variable (marker : List UInt8)

namespace MarkerWriter

/-- The body of the loop of `Write`. -/
def byte (w : MarkerWriter) (value : UInt8) : MarkerWriter :=
  if w.found then w
  else if some value = marker[w.matched]? then
    { matched := w.matched + 1, found := w.matched + 1 = marker.length }
  else if some value = marker[0]? then { w with matched := 1 }
  else { w with matched := 0 }

def write (w : MarkerWriter) (data : List UInt8) : MarkerWriter :=
  data.foldl (byte marker) w

end MarkerWriter

open MarkerWriter

def afterWrites (writes : List (List UInt8)) : MarkerWriter :=
  writes.foldl (write marker) {}

def asciiBytes (s : String) : List UInt8 := s.toList.map fun c => UInt8.ofNat c.toNat

def singleRecoveryMarker : List UInt8 := asciiBytes "AIPC_LOCAL_RECOVERY_V1"

def anyModeMarker : List UInt8 := asciiBytes "AIPC_LOCAL_RECOVERY_ANY_MODE_V1"

/-- After so many bytes of the marker its first byte comes again. -/
def Repeats (m : ℕ) : Prop :=
  0 < m ∧ m < marker.length ∧ marker[m]? = marker[0]?

instance (marker : List UInt8) (m : ℕ) : Decidable (Repeats marker m) :=
  inferInstanceAs (Decidable (_ ∧ _ ∧ _))

/-- The bytes end with a beginning of the marker, then its first byte, and are not covered before.
-/
def covered (marker : List UInt8) : ℕ → List UInt8 → Bool
  | 0, _ => false
  | n + 1, before => (List.range marker.length).any fun m =>
      Repeats marker m && marker.take m <:+ before &&
        !covered marker n (before.take (before.length - m))

def Covered (marker before : List UInt8) : Prop := covered marker before.length before = true

instance (marker before : List UInt8) : Decidable (Covered marker before) :=
  inferInstanceAs (Decidable (_ = true))

section Writer

variable {marker : List UInt8}

/-- The writer after some bytes, in whatever pieces. -/
def written (marker : List UInt8) (bytes : List UInt8) : MarkerWriter := write marker {} bytes

theorem afterWrites_eq (writes : List (List UInt8)) :
    afterWrites marker writes = written marker writes.flatten := by
  rw [afterWrites, written, write, List.foldl_flatten]
  rfl

theorem written_concat (bytes : List UInt8) (b : UInt8) :
    written marker (bytes ++ [b]) = byte marker (written marker bytes) b := by
  simp [written, write]

theorem written_append {bytes : List UInt8} (found : (written marker bytes).found = true)
    (more : List UInt8) : (written marker (bytes ++ more)).found = true := by
  rw [written, write, List.foldl_append]
  refine foldl_inv (fun w : MarkerWriter => w.found = true) (fun w b here => ?_) found more
  rw [byte, if_pos here]
  exact here

theorem byte_fits {w : MarkerWriter} {b : UInt8} (search : w.found = false)
    (fits : some b = marker[w.matched]?) :
    byte marker w b = { matched := w.matched + 1, found := w.matched + 1 = marker.length } := by
  rw [byte, if_neg (by simp [search]), if_pos fits]

/-- What is counted is at the end of the bytes, and began where the count could go to one. -/
structure Counted (marker bytes : List UInt8) (m : ℕ) : Prop where
  beginning : ∃ before, bytes = before ++ marker.take m ∧ (written marker before).found = false ∧
    ¬ Repeats marker (written marker before).matched

theorem counted_written (some : marker ≠ []) (bytes : List UInt8) :
    ((written marker bytes).found = false → (written marker bytes).matched < marker.length ∧
        (0 < (written marker bytes).matched → Counted marker bytes (written marker bytes).matched)) ∧
      ((written marker bytes).found = true → ∃ before after, bytes = before ++ marker ++ after ∧
        (written marker before).found = false ∧ ¬ Repeats marker (written marker before).matched) := by
  have long : 0 < marker.length := List.length_pos_iff.mpr some
  induction bytes using List.reverseRecOn with
  | nil => exact ⟨fun _ => ⟨long, fun absurd => by cases absurd⟩, fun absurd => by cases absurd⟩
  | append_singleton bytes b ih =>
    rw [written_concat]
    cases search : (written marker bytes).found with
    | true =>
      rw [byte, if_pos search]
      obtain ⟨before, after, rfl, others⟩ := ih.2 search
      refine ⟨fun absurd => ?_, fun _ => ⟨before, after ++ [b], by simp, others⟩⟩
      rw [search] at absurd
      cases absurd
    | false =>
      obtain ⟨short, counted⟩ := ih.1 search
      by_cases fits : Option.some b = marker[(written marker bytes).matched]?
      · -- one more byte of the marker
        rw [byte_fits search fits]
        have grown : Counted marker (bytes ++ [b]) ((written marker bytes).matched + 1) := by
          have last : marker.take ((written marker bytes).matched + 1) =
              marker.take (written marker bytes).matched ++ [b] := by
            rw [List.take_add_one, ← fits]
            rfl
          cases count : (written marker bytes).matched with
          | zero =>
            rw [count] at last
            refine ⟨bytes, ?_, search, fun again => ?_⟩
            · rw [last]
              rfl
            · rw [count] at again
              cases again.1
          | succ m =>
            obtain ⟨before, shape, others⟩ := (counted (by omega)).beginning
            refine ⟨before, ?_, others⟩
            rw [← count, last, ← List.append_assoc, ← shape]
        refine ⟨fun unfinished => ⟨?_, fun _ => grown⟩, fun finished => ?_⟩
        · simp only [decide_eq_false_iff_not] at unfinished
          dsimp only
          omega
        · obtain ⟨before, shape, others⟩ := grown.beginning
          simp only [decide_eq_true_eq] at finished
          refine ⟨before, [], ?_, others⟩
          rw [shape, finished, List.take_length, List.append_nil]
      · rw [byte, if_neg (by simp [search]), if_neg fits]
        by_cases first : Option.some b = marker[0]?
        · rw [if_pos first]
          refine ⟨fun _ => ⟨?_, fun _ => ⟨bytes, ?_, search, fun again => ?_⟩⟩, fun absurd => ?_⟩
          · dsimp only
            by_contra alone
            have zero : (written marker bytes).matched = 0 := by omega
            exact fits (by rw [zero]; exact first)
          · obtain ⟨a, rest, rfl⟩ := List.exists_cons_of_ne_nil some
            obtain rfl : b = a := by simpa using first
            rfl
          · exact fits (first.trans again.2.2.symm)
          · rw [search] at absurd
            cases absurd
        · rw [if_neg first]
          refine ⟨fun _ => ⟨long, fun absurd => by cases absurd⟩, fun absurd => ?_⟩
          rw [search] at absurd
          cases absurd

/-- After bytes that let the count go to one, every beginning of the marker is counted. -/
theorem written_append_take {before : List UInt8} (search : (written marker before).found = false)
    (short : (written marker before).matched < marker.length)
    (free : ¬ Repeats marker (written marker before).matched) {k : ℕ} (inside : k < marker.length) :
    written marker (before ++ marker.take (k + 1)) =
      { matched := k + 1, found := k + 1 = marker.length } := by
  induction k with
  | zero =>
    obtain ⟨a, rest, rfl⟩ := List.exists_cons_of_length_pos inside
    rw [show (a :: rest).take (0 + 1) = [a] from rfl, written_concat]
    by_cases zero : (written (a :: rest) before).matched = 0
    · rw [byte_fits search (by rw [zero]; rfl), zero]
    · have other : ¬ some a = (a :: rest)[(written (a :: rest) before).matched]? := fun again =>
        free ⟨by omega, short, again.symm⟩
      have more : ¬ 0 + 1 = (a :: rest).length := by
        rw [List.length_cons] at short ⊢
        omega
      rw [byte, if_neg (by simp [search]), if_neg other,
        if_pos (show some a = (a :: rest)[0]? from rfl), search, decide_eq_false more]
  | succ k ih =>
    have here : written marker (before ++ marker.take (k + 1)) =
        { matched := k + 1, found := false } := by
      rw [ih (by omega), decide_eq_false (by omega)]
    have fits : some marker[k + 1] = marker[k + 1]? := by simp [inside]
    rw [List.take_add_one, ← fits, ← List.append_assoc]
    exact (written_concat _ _).trans (by rw [here]; exact byte_fits rfl fits)

/-- While the search goes on, the bytes are covered when the count stands before a repetition. -/
theorem covered_iff (some : marker ≠ []) {n : ℕ} {bytes : List UInt8} (enough : bytes.length ≤ n)
    (search : (written marker bytes).found = false) :
    covered marker n bytes = true ↔ Repeats marker (written marker bytes).matched := by
  induction n generalizing bytes with
  | zero =>
    obtain rfl : bytes = [] := List.eq_nil_of_length_eq_zero (by omega)
    exact ⟨fun hides => (by cases hides), fun again => absurd again.1 (Nat.lt_irrefl 0)⟩
  | succ n ih =>
    have earlier {before after : List UInt8} (split : bytes = before ++ after) :
        (written marker before).found = false := by
      by_contra found
      rw [split, written_append (by simpa using found)] at search
      cases search
    simp only [covered, List.any_eq_true, List.mem_range, Bool.and_eq_true, decide_eq_true_eq,
      Bool.not_eq_true']
    constructor
    · rintro ⟨m, inside, ⟨again, before, shape⟩, free⟩
      have length : (marker.take m).length = m := by simp; omega
      have front : bytes.take (bytes.length - m) = before := by
        rw [← shape, List.length_append, length, Nat.add_sub_cancel, List.take_left]
      rw [front] at free
      have positive := again.1
      obtain ⟨k, rfl⟩ : ∃ k, m = k + 1 := ⟨m - 1, by omega⟩
      have searching := earlier shape.symm
      have unrepeated : ¬ Repeats marker (written marker before).matched := by
        rw [← ih (by have := congrArg List.length shape; simp at this; omega) searching, free]
        decide
      rw [← shape, written_append_take searching ((counted_written some before).1 searching).1 unrepeated
        (by omega)]
      exact again
    · intro again
      obtain ⟨-, counted⟩ := (counted_written some bytes).1 search
      obtain ⟨before, shape, searching, free⟩ := (counted again.1).beginning
      have length : (marker.take (written marker bytes).matched).length =
          (written marker bytes).matched := by
        have := again.2.1
        simp
        omega
      have sum := congrArg List.length shape
      rw [List.length_append, length] at sum
      have front : bytes.take (bytes.length - (written marker bytes).matched) = before := by
        rw [sum, Nat.add_sub_cancel]
        conv_lhs => rw [shape]
        exact List.take_left
      refine ⟨_, again.2.1, ⟨again, before, shape.symm⟩, ?_⟩
      rw [front, ← Bool.not_eq_true, ih (by have := again.1; omega) searching]
      exact free

end Writer

/-- The marker is found if it stands somewhere after bytes that are not covered. -/
theorem found_iff_uncovered {marker : List UInt8} (some : marker ≠ []) (writes : List (List UInt8)) :
    (afterWrites marker writes).found = true ↔
      ∃ before after, writes.flatten = before ++ marker ++ after ∧ ¬ Covered marker before := by
  rw [afterWrites_eq]
  constructor
  · intro found
    obtain ⟨before, after, shape, search, free⟩ := (counted_written some writes.flatten).2 found
    exact ⟨before, after, shape, fun hides => free ((covered_iff some (Nat.le_refl _) search).mp hides)⟩
  · rintro ⟨before, after, shape, free⟩
    rw [shape, List.append_assoc]
    by_cases search : (written marker before).found = true
    · exact written_append search _
    rw [Bool.not_eq_true] at search
    have whole := written_append_take search ((counted_written some before).1 search).1
      (fun again => free ((covered_iff some (Nat.le_refl _) search).mpr again))
      (show marker.length - 1 < marker.length by have := List.length_pos_iff.mpr some; omega)
    have length : marker.length - 1 + 1 = marker.length := by
      have := List.length_pos_iff.mpr some
      omega
    rw [length, List.take_length, decide_eq_true rfl] at whole
    rw [← List.append_assoc]
    exact written_append (by rw [whole]) after

/-- The search is right for exactly those bytes in which the marker, if it occurs, stands after
bytes that are not covered. -/
theorem found_right_iff {marker : List UInt8} (some : marker ≠ []) (writes : List (List UInt8)) :
    ((afterWrites marker writes).found = true ↔ marker <:+: writes.flatten) ↔
      (marker <:+: writes.flatten →
        ∃ before after, writes.flatten = before ++ marker ++ after ∧ ¬ Covered marker before) := by
  rw [found_iff_uncovered some]
  constructor
  · exact fun right => right.mpr
  · refine fun uncovered => ⟨?_, uncovered⟩
    rintro ⟨before, after, shape, -⟩
    exact ⟨before, after, shape.symm⟩

theorem found_right_split : (singleRecoveryMarker <:+: asciiBytes "x AIPC_LOCAL_RECOVERY_V1" →
        ∃ before after, asciiBytes "x AIPC_LOCAL_RECOVERY_V1" = before ++ singleRecoveryMarker ++ after ∧
          ¬ Covered singleRecoveryMarker before) ∧
      ((afterWrites singleRecoveryMarker [asciiBytes "x AIPC_LO", asciiBytes "CAL_RECOVERY_V1"]).found =
          true ↔
        singleRecoveryMarker <:+: asciiBytes "x AIPC_LOCAL_RECOVERY_V1") :=
  have uncovered : singleRecoveryMarker <:+: asciiBytes "x AIPC_LOCAL_RECOVERY_V1" →
      ∃ before after, asciiBytes "x AIPC_LOCAL_RECOVERY_V1" = before ++ singleRecoveryMarker ++ after ∧
        ¬ Covered singleRecoveryMarker before :=
    fun _ => ⟨asciiBytes "x ", [], by decide +kernel, by decide +kernel⟩
  ⟨uncovered, (found_right_iff (by decide) [asciiBytes "x AIPC_LO", asciiBytes "CAL_RECOVERY_V1"]).mpr
    uncovered⟩

/-- A beginning of a marker hides the marker behind it. -/
theorem hidden_markers : (singleRecoveryMarker <:+: asciiBytes "AIPC_LOCAIPC_LOCAL_RECOVERY_V1" ∧
        (afterWrites singleRecoveryMarker [asciiBytes "AIPC_LOCAIPC_LOCAL_RECOVERY_V1"]).found = false) ∧
      (anyModeMarker <:+: asciiBytes "AIPC_LOCAL_RECOVERY_AIPC_LOCAL_RECOVERY_ANY_MODE_V1" ∧
        (afterWrites anyModeMarker
          [asciiBytes "AIPC_LOCAL_RECOVERY_AIPC_LOCAL_RECOVERY_ANY_MODE_V1"]).found = false) := by
  decide +kernel

end NeoRuntime.OsUpgrade
