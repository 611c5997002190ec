import Mathlib.Data.List.Infix
import NeoRuntime.Lib.Bytes

/-!
# Byte streams with start codes

The Annex B format writes every unit behind a start code of three or four bytes.  Every byte string
is a stream of units behind some other bytes (`parse`), such that no start code begins inside a unit
(`Tight`).  Behind the codes (`positions`) the stream can be cut into them (`cut_stream`).  A unit
that does not imitate a start code is `Clean`.
-/

namespace NeoRuntime.AnnexB

/-- A start code, with a leading zero byte if it is a long one. -/
def code (long : Bool) : List UInt8 := if long then [0, 0, 0, 1] else [0, 0, 1]

/-- The length of the start code at the front, or 0. -/
def codeLength (bs : List UInt8) : ℕ :=
  if [0, 0, 1] <+: bs then 3 else if [0, 0, 0, 1] <+: bs then 4 else 0

/-- Contents that cannot be taken for a start code, also not with the zeros of the next one. -/
structure Clean (unit : List UInt8) : Prop where
  nonempty : unit ≠ []
  noZeros : ¬ [0, 0, 0] <:+: unit
  noCode : ¬ [0, 0, 1] <:+: unit
  last : unit.getLast? ≠ some 0

instance (unit : List UInt8) : Decidable (Clean unit) :=
  decidable_of_iff (unit ≠ [] ∧ ¬ [0, 0, 0] <:+: unit ∧ ¬ [0, 0, 1] <:+: unit ∧
      unit.getLast? ≠ some 0)
    ⟨fun ⟨a, b, c, d⟩ => ⟨a, b, c, d⟩, fun ⟨a, b, c, d⟩ => ⟨a, b, c, d⟩⟩

def stream (units : List (Bool × List UInt8)) : List UInt8 :=
  units.flatMap fun u => code u.1 ++ u.2

/-- Where the units of a stream begin that stands at offset `i`. -/
def positions (i : ℕ) : List (Bool × List UInt8) → List ℕ
  | [] => []
  | u :: us => (i + (code u.1).length) :: positions (i + (code u.1).length + u.2.length) us

variable (data : List UInt8)

/-- Where the start code ends that stands before offset `o`. -/
def codeBegin (o : ℕ) : ℕ :=
  if 4 ≤ o ∧ (data.drop (o - 4)).take 4 = [0, 0, 0, 1] then o - 4 else o - 3

/-- The bytes from offset `a` up to offset `b`. -/
def slice (a b : ℕ) : List UInt8 := (data.drop a).take (b - a)

/-! ## Start codes -/

theorem codeLength_code (long : Bool) (rest : List UInt8) :
    codeLength (code long ++ rest) = (code long).length := by
  cases long with
  | false => rw [codeLength, if_pos ⟨rest, rfl⟩]; rfl
  | true =>
    have short : ¬ [0, 0, 1] <+: code true ++ rest := by
      rintro ⟨t, eq⟩
      simp [code] at eq
    rw [codeLength, if_neg short, if_pos ⟨rest, rfl⟩]
    rfl

/-- No start code begins inside a clean unit. -/
theorem Clean.codeLength_suffix {unit s : List UInt8} (clean : Clean unit) (inside : s <:+ unit)
    (some : s ≠ []) (rest : List UInt8) : codeLength (s ++ rest) = 0 := by
  have last : s.getLast? ≠ Option.some 0 := by
    obtain ⟨t, rfl⟩ := inside
    rw [← List.getLast?_append_of_ne_nil t some]
    exact clean.last
  -- a code needs two zeros, which `s` has only if it goes on with a third byte
  have long {p : List UInt8} (starts : 0 :: 0 :: p <+: s ++ rest) : 3 ≤ s.length := by
    obtain ⟨t, eq⟩ := starts
    obtain _ | ⟨a, _ | ⟨b, _ | ⟨c, s⟩⟩⟩ := s
    · exact absurd rfl some
    · simp only [List.cons_append, List.cons.injEq] at eq
      exact absurd (by simp [← eq.1]) last
    · simp only [List.cons_append, List.cons.injEq] at eq
      exact absurd (by simp [← eq.2.1]) last
    · simp
  have three : ¬ [0, 0, 1] <+: s ++ rest := fun starts =>
    clean.noCode ((List.prefix_of_prefix_length_le starts ⟨rest, rfl⟩ (long starts)).isInfix.trans
      inside.isInfix)
  have four : ¬ [0, 0, 0, 1] <+: s ++ rest := fun starts => by
    have zeros : [0, 0, 0] <+: s ++ rest := List.IsPrefix.trans ⟨[1], rfl⟩ starts
    exact clean.noZeros ((List.prefix_of_prefix_length_le zeros ⟨rest, rfl⟩
      (long starts)).isInfix.trans inside.isInfix)
  rw [codeLength, if_neg three, if_neg four]

theorem codeBegin_append {before : List UInt8} {long : Bool}
    (last : long = false → before.getLast? ≠ some 0) (rest : List UInt8) :
    codeBegin (before ++ (code long ++ rest)) (before.length + (code long).length) =
      before.length := by
  cases long with
  | true =>
    rw [codeBegin, if_pos]
    · rfl
    · exact ⟨by simp [code], by simp [code]⟩
  | false =>
    have short : ¬ (4 ≤ before.length + (code false).length ∧
        ((before ++ (code false ++ rest)).drop (before.length + (code false).length - 4)).take 4 =
          [0, 0, 0, 1]) := by
      rintro ⟨some, eq⟩
      have ne : before ≠ [] := by
        rintro rfl
        simp [code] at some
      obtain ⟨front, b, rfl⟩ : ∃ front b, before = front ++ [b] :=
        ⟨_, _, (List.dropLast_append_getLast ne).symm⟩
      have here : (front ++ [b]).length + (code false).length - 4 = front.length := by
        simp [code]
      rw [here, List.append_assoc, List.drop_left] at eq
      exact last rfl (by simp [(List.cons.inj eq).1])
    rw [codeBegin, if_neg short]
    rfl

/-! ## Units without a start code -/

/-- No start code begins inside the unit, with the bytes behind it. -/
def Tight : List UInt8 → List UInt8 → Prop
  | [], _ => True
  | b :: bs, rest => codeLength (b :: bs ++ rest) = 0 ∧ Tight bs rest

def AllTight : List (Bool × List UInt8) → Prop
  | [] => True
  | u :: us => Tight u.2 (stream us) ∧ AllTight us

theorem stream_cons (u : Bool × List UInt8) (us : List (Bool × List UInt8)) :
    stream (u :: us) = code u.1 ++ u.2 ++ stream us := List.flatMap_cons

theorem Clean.tight {unit : List UInt8} (clean : Clean unit) (rest : List UInt8) :
    Tight unit rest := by
  have suffix (s : List UInt8) (inside : s <:+ unit) : Tight s rest := by
    induction s with
    | nil => trivial
    | cons b s ih =>
      exact ⟨clean.codeLength_suffix inside (List.cons_ne_nil b s) rest,
        ih ((List.suffix_cons b s).trans inside)⟩
  exact suffix unit List.suffix_rfl

theorem allTight_of_clean {units : List (Bool × List UInt8)} (clean : ∀ u ∈ units, Clean u.2) :
    AllTight units := by
  induction units with
  | nil => trivial
  | cons u us ih =>
    obtain ⟨first, others⟩ := List.forall_mem_cons.mp clean
    exact ⟨first.tight _, ih others⟩

theorem Tight.noCode {unit rest : List UInt8} (tight : Tight unit rest) :
    ¬ [0, 0, 1] <:+: unit := by
  induction unit with
  | nil => simp
  | cons b bs ih =>
    rw [List.infix_cons_iff, not_or]
    refine ⟨fun starts => ?_, ih tight.2⟩
    have none := tight.1
    rw [codeLength, if_pos (starts.trans (List.prefix_append _ _))] at none
    cases none

/-- A unit before a short code does not end with the zero of a long one. -/
theorem Tight.getLast_ne {unit rest : List UInt8} (tight : Tight unit (code false ++ rest)) :
    unit.getLast? ≠ some 0 := by
  induction unit with
  | nil => simp
  | cons b bs ih =>
    cases bs with
    | nil =>
      rintro zero
      obtain rfl : b = 0 := by simpa using zero
      exact absurd tight.1 (by simp [codeLength, code])
    | cons c cs =>
      rw [List.getLast?_cons_cons]
      exact ih tight.2

/-- Behind bytes without a start code a short code can become a long one. -/
theorem tight_before {before : List UInt8} (free : ¬ [0, 0, 1] <:+: before) (long : Bool)
    (rest : List UInt8) : Tight before (code long ++ rest) ∨
      ∃ front, before = front ++ [0] ∧ long = false ∧ Tight front (code true ++ rest) := by
  induction before with
  | nil => exact .inl trivial
  | cons b bs ih =>
    have three : ¬ [0, 0, 1] <+: b :: bs ++ (code long ++ rest) := by
      rintro ⟨t, found⟩
      obtain _ | ⟨c, _ | ⟨d, bs⟩⟩ := bs
      · cases long <;> simp [code] at found
      · cases long <;> simp [code] at found
      · simp only [List.cons_append, List.nil_append, List.cons.injEq] at found
        obtain ⟨rfl, rfl, rfl, -⟩ := found
        exact free ⟨[], bs, rfl⟩
    have four : [0, 0, 0, 1] <+: b :: bs ++ (code long ++ rest) →
        b = 0 ∧ bs = [] ∧ long = false := by
      rintro ⟨t, found⟩
      obtain _ | ⟨c, _ | ⟨d, _ | ⟨e, bs⟩⟩⟩ := bs
      · cases long <;> simp [code] at found ⊢
        exact found.1.symm
      · cases long <;> simp [code] at found
      · cases long <;> simp [code] at found
      · simp only [List.cons_append, List.nil_append, List.cons.injEq] at found
        obtain ⟨rfl, rfl, rfl, rfl, -⟩ := found
        exact absurd ⟨[0], bs, rfl⟩ free
    by_cases found : [0, 0, 0, 1] <+: b :: bs ++ (code long ++ rest)
    · obtain ⟨rfl, rfl, rfl⟩ := four found
      exact .inr ⟨[], rfl, rfl, trivial⟩
    · have here : codeLength (b :: bs ++ (code long ++ rest)) = 0 := by
        rw [codeLength, if_neg three, if_neg found]
      refine (ih fun inside => free (inside.trans (List.suffix_cons b bs).isInfix)).imp
        (fun tight => ⟨here, tight⟩) ?_
      rintro ⟨front, rfl, rfl, tight⟩
      exact ⟨b :: front, rfl, rfl, by simpa [code] using here, tight⟩

/-- The units of a byte string, and the bytes before them. -/
def parse : List UInt8 → List UInt8 × List (Bool × List UInt8)
  | 0 :: 0 :: 1 :: rest => ([], (false, (parse rest).1) :: (parse rest).2)
  | 0 :: 0 :: 0 :: 1 :: rest => ([], (true, (parse rest).1) :: (parse rest).2)
  | b :: rest => (b :: (parse rest).1, (parse rest).2)
  | [] => ([], [])

theorem codeLength_eq_zero {b : UInt8} {bs : List UInt8}
    (short : ∀ rest, b = 0 → bs = 0 :: 1 :: rest → False)
    (long : ∀ rest, b = 0 → bs = 0 :: 0 :: 1 :: rest → False) : codeLength (b :: bs) = 0 := by
  rw [codeLength, if_neg, if_neg]
  · rintro ⟨rest, eq⟩
    obtain ⟨rfl, rfl⟩ := List.cons.inj eq
    exact long rest rfl rfl
  · rintro ⟨rest, eq⟩
    obtain ⟨rfl, rfl⟩ := List.cons.inj eq
    exact short rest rfl rfl

theorem parse_spec :
    data = (parse data).1 ++ stream (parse data).2 ∧ Tight (parse data).1 (stream (parse data).2) ∧
      AllTight (parse data).2 := by
  fun_induction parse data with
  | case1 rest ih | case2 rest ih =>
    obtain ⟨eq, first, others⟩ := ih
    exact ⟨by rw [stream_cons]; simpa [code] using eq, trivial, first, others⟩
  | case3 b rest short long ih =>
    obtain ⟨eq, first, others⟩ := ih
    refine ⟨congrArg (b :: ·) eq, ⟨?_, first⟩, others⟩
    rw [List.cons_append, ← eq]
    exact codeLength_eq_zero short long
  | case4 => exact ⟨rfl, trivial, trivial⟩

def cut (data : List UInt8) : List ℕ → List (List UInt8)
  | [] => []
  | [o] => [data.drop o]
  | o :: o' :: os => slice data o (codeBegin data o') :: cut data (o' :: os)

theorem cut_stream {units : List (Bool × List UInt8)} (tight : AllTight units)
    (before : List UInt8) :
    cut (before ++ stream units) (positions before.length units) = units.map Prod.snd := by
  induction units generalizing before with
  | nil => rfl
  | cons u us ih =>
    obtain ⟨first, others⟩ := tight
    have rest := ih others (before ++ code u.1 ++ u.2)
    have whole : before ++ code u.1 ++ u.2 ++ stream us = before ++ stream (u :: us) := by
      simp [stream_cons]
    have front : (before ++ code u.1 ++ u.2).length =
        before.length + (code u.1).length + u.2.length := by simp only [List.length_append]
    rw [whole, front] at rest
    have start : (before ++ stream (u :: us)).drop (before.length + (code u.1).length) =
        u.2 ++ stream us := by
      rw [stream_cons, ← List.append_assoc, ← List.append_assoc, List.append_assoc (_ ++ _),
        List.drop_left' (by simp)]
    cases us with
    | nil =>
      rw [positions, positions, cut, start]
      simp [stream]
    | cons v vs =>
      have last : v.1 = false → (before ++ code u.1 ++ u.2).getLast? ≠ some 0 := by
        intro short
        rw [stream_cons, short, List.append_assoc] at first
        by_cases empty : u.2 = []
        · cases long : u.1 <;> simp [empty, code]
        · rw [List.getLast?_append_of_ne_nil _ empty]
          exact first.getLast_ne
      have ends := codeBegin_append last (v.2 ++ stream vs)
      rw [front, ← List.append_assoc (code v.1), ← stream_cons, whole] at ends
      rw [positions, positions, cut, ends, slice, start, ← positions, rest]
      simp

end NeoRuntime.AnnexB
