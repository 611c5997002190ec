import Mathlib.Data.Nat.Notation
import Mathlib.Data.List.Basic

/-!
# Text

The functions of Go's `strings` and `path/filepath` that configuration code is written with, on
the characters of a string.
-/

namespace NeoRuntime.Text

def isSpace (c : Char) : Bool :=
  let code := c.toNat
  code ∈ [0x09, 0x0a, 0x0b, 0x0c, 0x0d, 0x20, 0x85, 0xa0, 0x1680, 0x2028, 0x2029, 0x202f, 0x205f,
    0x3000] ∨ 0x2000 ≤ code ∧ code ≤ 0x200a

/-- The characters without the blanks at both ends. -/
def trim (cs : List Char) : List Char :=
  ((cs.dropWhile isSpace).reverse.dropWhile isSpace).reverse

def trimSpace (s : String) : String := String.ofList (trim s.toList)

/-- `unicode.ToLower`, as far as the result is ASCII: the Kelvin sign and the dotted capital I too.
-/
def toLowerChar (c : Char) : Char :=
  if 'A' ≤ c ∧ c ≤ 'Z' then Char.ofNat (c.toNat + 0x20)
  else if c.toNat = 0x212a then 'k'
  else if c.toNat = 0x130 then 'i'
  else c

def toLower (s : String) : String := String.ofList (s.toList.map toLowerChar)

def contains (s part : String) : Bool := s.toList.tails.any part.toList.isPrefixOf

/-- The parts of a path between its separators. -/
def segments : List Char → List (List Char)
  | [] => [[]]
  | '/' :: cs => [] :: segments cs
  | c :: cs =>
    match segments cs with
    | [] => [[c]]
    | part :: parts => (c :: part) :: parts

/-- One part of a path, after the parts (the last one first) that are kept so far. -/
def cleanSegment (rooted : Bool) (kept : List (List Char)) (part : List Char) : List (List Char) :=
  if part = [] ∨ part = ['.'] then kept
  else if part = ['.', '.'] then
    match kept with
    | [] => if rooted then [] else [part]
    | last :: rest => if last = ['.', '.'] then part :: last :: rest else rest
  else part :: kept

theorem segments_of_no_slash {cs : List Char} (none : '/' ∉ cs) : segments cs = [cs] := by
  induction cs with
  | nil => rfl
  | cons c cs ih =>
    have rest := ih fun mem => none (List.mem_cons_of_mem _ mem)
    have other : c ≠ '/' := fun eq => none (eq ▸ List.mem_cons_self)
    rw [segments.eq_3 c cs (fun eq => other eq), rest]

/-- The last part of a path keeps the end of the text, if that has no separator. -/
theorem segments_append_of_no_slash (cs : List Char) {ending : List Char} (none : '/' ∉ ending) :
    ∃ parts last, segments (cs ++ ending) = parts ++ [last ++ ending] := by
  induction cs with
  | nil => exact ⟨[], [], by rw [List.nil_append, segments_of_no_slash none]; rfl⟩
  | cons c cs ih =>
    obtain ⟨parts, last, eq⟩ := ih
    by_cases slash : c = '/'
    · subst slash
      exact ⟨[] :: parts, last, by rw [List.cons_append, segments, eq]; rfl⟩
    · rw [List.cons_append, segments.eq_3 _ _ (fun eq => slash eq), eq]
      cases parts with
      | nil => exact ⟨[], c :: last, rfl⟩
      | cons part parts => exact ⟨(c :: part) :: parts, last, rfl⟩

theorem cleanSegment_of_long {rooted : Bool} {kept : List (List Char)} {part : List Char}
    (long : 2 < part.length) : cleanSegment rooted kept part = part :: kept := by
  have ne {other : List Char} (short : other.length ≤ 2) : part ≠ other := by
    rintro rfl
    omega
  simp only [cleanSegment, ne (by decide : ([] : List Char).length ≤ 2),
    ne (by decide : ['.'].length ≤ 2), ne (by decide : ['.', '.'].length ≤ 2), or_self, if_false]

/-! ## Lines -/

theorem flatMap_splitOn {ls : List (List Char)} (single : ∀ l ∈ ls, '\n' ∉ l) :
    ls.flatMap (·.splitOn '\n') = ls := by
  induction ls with
  | nil => rfl
  | cons l ls ih =>
    obtain ⟨first, rest⟩ := List.forall_mem_cons.1 single
    rw [List.flatMap_cons, List.splitOn_eq_singleton first, ih rest]
    rfl

theorem notMem_of_mem_splitOn (text : List Char) : ∀ piece ∈ text.splitOn '\n', '\n' ∉ piece := by
  induction text with
  | nil => simp
  | cons c text ih =>
    rw [List.splitOn_cons_eq_if_modifyHead]
    split_ifs with sep
    · simpa using ih
    · obtain ⟨first, rest, eq⟩ := List.exists_cons_of_ne_nil (List.splitOn_ne_nil '\n' text)
      rw [eq] at ih ⊢
      have other : '\n' ≠ c := fun same => sep (beq_iff_eq.2 same.symm)
      simpa [other] using ih

theorem splitOn_join {ls : List (List Char)} (some : ls ≠ []) :
    (['\n'].intercalate ls).splitOn '\n' = ls.flatMap (·.splitOn '\n') := by
  induction ls with
  | nil => exact absurd rfl some
  | cons l ls ih =>
    cases ls with
    | nil => simp
    | cons l' ls =>
      rw [List.intercalate_cons_cons, List.append_assoc, List.singleton_append,
        List.splitOn_append_cons_self, ih (List.cons_ne_nil _ _)]
      rfl

end NeoRuntime.Text
