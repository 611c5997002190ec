import Mathlib.Data.List.ReduceOption
import Mathlib.Data.List.TakeWhile
import NeoRuntime.CameraDaemon.Rtsp.Output
import NeoRuntime.Lib.Drain

/-!
# Requests to the RTSP server

`RtspServer::handle_client_data` (platform/camera-daemon/src/rtsp_server.cpp) appends what has
arrived to a buffer and takes messages off its front: interleaved frames, which it skips, and
requests, which end at the first empty line.  A body after that line is not taken off.
-/

namespace NeoRuntime.CameraDaemon.Rtsp

/-! ## Parsing a request -/

/-- The characters that `str_trim` removes. -/
def isBlank (b : UInt8) : Bool := b = 32 || b = 9 || b = 13 || b = 10

def trim (s : List UInt8) : List UInt8 :=
  ((s.dropWhile isBlank).reverse.dropWhile isBlank).reverse

/-- What repeated calls of `std::getline` return. -/
def lines : List UInt8 → List (List UInt8)
  | [] => []
  | b :: bs =>
    if b = 10 then [] :: lines bs
    else
      match lines bs with
      | [] => [[b]]
      | line :: rest => (b :: line) :: rest

def isDigit (b : UInt8) : Bool := 48 ≤ b && b ≤ 57

/-- The number that a string of decimal digits denotes. -/
def numeral (digits : List UInt8) : ℕ := digits.foldl (fun n d => 10 * n + (d.toNat - 48)) 0

/-- `std::atoi`, by way of `strtol`, which stops at `LONG_MIN` and `LONG_MAX`, and a cast to `int`. -/
def atoi (s : List UInt8) : ℤ :=
  let s := s.dropWhile fun b => b = 32 || (9 ≤ b && b ≤ 13)
  let read := fun s : List UInt8 => numeral (s.takeWhile isDigit)
  match s with
  | 45 :: rest => (-(min (read rest) (2 ^ 63) : ℤ)).bmod (2 ^ 32)
  | 43 :: rest => (min (read rest) (2 ^ 63 - 1) : ℤ).bmod (2 ^ 32)
  | s => (min (read s) (2 ^ 63 - 1) : ℤ).bmod (2 ^ 32)

structure Request where
  method : List UInt8
  uri : List UInt8
  headers : List (List UInt8 × List UInt8)
  cseq : ℤ
  deriving DecidableEq

/-- The header lines up to an empty one. -/
def parseHeaders : List (List UInt8) → List (List UInt8 × List UInt8)
  | [] => []
  | line :: rest =>
    let line := trim line
    if line = [] then []
    else if 58 ∈ line then
      (trim (line.takeWhile (· ≠ 58)), trim (line.dropWhile (· ≠ 58)).tail) :: parseHeaders rest
    else parseHeaders rest

/-- The number in the last header of that name, or 0. -/
def findCseq (headers : List (List UInt8 × List UInt8)) : ℤ :=
  ((headers.filter (·.1 = ascii "CSeq")).getLast?).elim 0 fun h => atoi h.2

def parseRequest (raw : List UInt8) : Option Request :=
  match lines raw with
  | [] => none
  | first :: rest =>
    let line := trim first
    let afterMethod := line.dropWhile (· ≠ 32)
    let afterUri := afterMethod.tail.dropWhile (· ≠ 32)
    if afterMethod = [] || afterUri = [] then none
    else
      let headers := parseHeaders rest
      some { method := line.takeWhile (· ≠ 32), uri := afterMethod.tail.takeWhile (· ≠ 32)
             headers := headers, cseq := findCseq headers }

/-! ## The buffer -/

/-- What ends the headers of a request. -/
def emptyLine : List UInt8 := [13, 10, 13, 10]

/-- The bytes up to the end of the first empty line, and those after it. -/
def splitBlock : List UInt8 → Option (List UInt8 × List UInt8)
  | [] => none
  | b :: rest =>
    if emptyLine <+: b :: rest then some (emptyLine, rest.drop 3)
    else (splitBlock rest).map fun r => (b :: r.1, r.2)

/-- One round of `handle_client_data`: the request to handle, if any. -/
def nextMessage (buf : List UInt8) : Option (Option Request × List UInt8) :=
  if buf.head? = some 36 then
    let size := ofBeBytes ((buf.drop 2).take 2)
    if buf.length < 4 || buf.length < 4 + size then none else some (none, buf.drop (4 + size))
  else (splitBlock buf).map fun r => (parseRequest r.1, r.2)

theorem splitBlock_spec {bs block rest : List UInt8} (found : splitBlock bs = some (block, rest)) :
    bs = block ++ rest ∧ 4 ≤ block.length ∧
      ∀ more, splitBlock (bs ++ more) = some (block, rest ++ more) := by
  induction bs generalizing block with
  | nil => cases found
  | cons b bs ih =>
    rw [splitBlock] at found
    by_cases ends : emptyLine <+: b :: bs
    · rw [if_pos ends] at found
      obtain ⟨tail, eq⟩ := ends
      obtain ⟨rfl, rfl⟩ : b = 13 ∧ bs = 10 :: 13 :: 10 :: tail := by
        simpa [emptyLine, eq_comm] using eq
      obtain ⟨rfl, rfl⟩ : emptyLine = block ∧ tail = rest := by simpa using found
      refine ⟨rfl, by decide, fun more => ?_⟩
      rw [List.cons_append, splitBlock, if_pos ⟨tail ++ more, rfl⟩]
      rfl
    · rw [if_neg ends] at found
      obtain ⟨⟨block', rest'⟩, inner, eq⟩ := Option.map_eq_some_iff.mp found
      obtain ⟨rfl, rfl⟩ : b :: block' = block ∧ rest' = rest := by simpa using eq
      obtain ⟨whole, long, stable⟩ := ih inner
      refine ⟨by rw [whole]; rfl, long.trans (Nat.le_succ _), fun more => ?_⟩
      have still : ¬ emptyLine <+: b :: (bs ++ more) := fun later =>
        ends (List.prefix_of_prefix_length_le later ⟨more, rfl⟩ (by
          have := congrArg List.length whole
          simp only [emptyLine, List.length_cons, List.length_nil, List.length_append] at this ⊢
          omega))
      rw [List.cons_append, splitBlock, if_neg still, stable more]
      rfl

/-- `handle_client_data`, as far as the buffer goes. -/
def parser : ItemParser UInt8 (Option Request) where
  next := nextMessage
  shrinks := by
    intro bs o rest found
    unfold nextMessage at found
    split_ifs at found with frame
    · dsimp only at found
      split_ifs at found with short
      obtain ⟨-, rfl⟩ : none = o ∧ bs.drop _ = rest := by simpa using found
      simp only [Bool.or_eq_true, decide_eq_true_eq] at short
      rw [List.length_drop]
      omega
    · obtain ⟨⟨block, rest'⟩, split, eq⟩ := Option.map_eq_some_iff.mp found
      obtain ⟨-, rfl⟩ : parseRequest block = o ∧ rest' = rest := by simpa using eq
      obtain ⟨rfl, long, -⟩ := splitBlock_spec split
      rw [List.length_append]
      omega
  stable := by
    intro bs o rest found more
    unfold nextMessage at found ⊢
    split_ifs at found with frame
    · dsimp only at found ⊢
      split_ifs at found with short
      obtain ⟨rfl, rfl⟩ : none = o ∧ bs.drop _ = rest := by simpa using found
      simp only [Bool.or_eq_true, decide_eq_true_eq, not_or, not_lt] at short
      have size : ((bs ++ more).drop 2).take 2 = (bs.drop 2).take 2 := by
        rw [List.drop_append_of_le_length (by omega), List.take_append_of_le_length (by
          rw [List.length_drop]; omega)]
      rw [List.head?_append, frame, Option.some_or, if_pos rfl, size, if_neg (by simp; omega),
        List.drop_append_of_le_length short.2]
    · obtain ⟨⟨block, rest'⟩, split, eq⟩ := Option.map_eq_some_iff.mp found
      obtain ⟨rfl, rfl⟩ : parseRequest block = o ∧ rest' = rest := by simpa using eq
      obtain ⟨rfl, long, stable⟩ := splitBlock_spec split
      have head : (block ++ rest' ++ more).head? = (block ++ rest').head? := by
        cases block with
        | nil => simp at long
        | cons b block => rfl
      rw [head, if_neg frame, stable more]
      rfl

/-- The requests that are handled when the bytes come in these pieces, and what is left. -/
def received (pieces : List (List UInt8)) : List Request × List UInt8 :=
  let s := pieces.foldl parser.receive ([], [])
  (s.1.reduceOption, s.2)

theorem received_eq (pieces : List (List UInt8)) : received pieces =
      ((parser.drain pieces.flatten).1.reduceOption, (parser.drain pieces.flatten).2) := by
  rw [received, ← ItemParser.foldl_receive, ItemParser.drain_of_none ItemParser.next_nil]

/-! ## Messages of a client -/

def Token (t : List UInt8) : Prop := t ≠ [] ∧ ∀ b ∈ t, isBlank b = false

instance (t : List UInt8) : Decidable (Token t) := inferInstanceAs (Decidable (_ ∧ _))

/-- A header field: a name without colon, and a value on one line. -/
def Field (h : List UInt8 × List UInt8) : Prop := Token h.1 ∧ 58 ∉ h.1 ∧ 13 ∉ h.2 ∧ 10 ∉ h.2

instance (h : List UInt8 × List UInt8) : Decidable (Field h) := inferInstanceAs (Decidable (_ ∧ _))

/-- A request as a client writes it. -/
structure RequestText where
  method : List UInt8
  uri : List UInt8
  version : List UInt8
  before : List (List UInt8 × List UInt8)
  /-- The name of the header with the sequence number, in some spelling. -/
  cseqName : List UInt8
  /-- What stands between the colon and the number. -/
  pad : List UInt8
  cseq : List UInt8
  after : List (List UInt8 × List UInt8)
  body : List UInt8
  tokens : Token method ∧ Token uri ∧ Token version
  /-- Otherwise it would be an interleaved frame. -/
  noFrame : method.head? ≠ some 36
  fields : ∀ h ∈ before ++ after, Field h ∧ h.1 ≠ ascii "CSeq"
  name : Token cseqName ∧ 58 ∉ cseqName
  padding : ∀ b ∈ pad, b = 32 ∨ b = 9
  digits : cseq ≠ [] ∧ ∀ b ∈ cseq, isDigit b = true
  /-- The body has the length that its header says, and none if there is no such header. -/
  bodyLength : (∀ h ∈ before ++ after, h.1 = ascii "Content-Length" →
      numeral (trim h.2) = body.length) ∧
    ((∀ h ∈ before ++ after, h.1 ≠ ascii "Content-Length") → body = [])

namespace RequestText

variable (r : RequestText)

def headers : List (List UInt8 × List UInt8) := r.before ++ (r.cseqName, r.pad ++ r.cseq) :: r.after

def firstLine : List UInt8 := r.method ++ 32 :: (r.uri ++ 32 :: r.version)

def headerLine (h : List UInt8 × List UInt8) : List UInt8 := h.1 ++ 58 :: h.2

def block : List UInt8 :=
  (r.firstLine :: r.headers.map headerLine).flatMap (· ++ crlf) ++ crlf

def bytes : List UInt8 := r.block ++ r.body

end RequestText

inductive ClientMessage
  | interleaved (channel : UInt8) (data : List UInt8) (short : data.length ≤ 0xFFFF)
  | request (r : RequestText)

namespace ClientMessage

def bytes : ClientMessage → List UInt8
  | interleaved channel data _ => Rtsp.interleaved channel data
  | request r => r.bytes

def request? : ClientMessage → Option (List UInt8 × List UInt8 × ℤ)
  | interleaved _ _ _ => none
  | request r => some (r.method, r.uri, (numeral r.cseq : ℤ))

/-- A request without a body, whose sequence number is an `int` after the name `CSeq`. -/
def Plain : ClientMessage → Prop
  | interleaved _ _ _ => True
  | request r => r.body = [] ∧ r.cseqName = ascii "CSeq" ∧ numeral r.cseq < 2 ^ 31

end ClientMessage

/-! ## Lines -/

theorem splitBlock_append {l : List UInt8} (inside : 13 ∉ l) (x : List UInt8) :
    splitBlock (l ++ x) = (splitBlock x).map fun r => (l ++ r.1, r.2) := by
  induction l with
  | nil => simp
  | cons b l ih =>
    have other : ¬ emptyLine <+: b :: (l ++ x) := by
      rintro ⟨t, eq⟩
      exact inside (by simp [(List.cons.inj eq).1])
    rw [List.cons_append, splitBlock, if_neg other, ih fun mem => inside (List.mem_cons_of_mem _ mem),
      Option.map_map]
    rfl

theorem splitBlock_crlf {b : UInt8} (other : b ≠ 13) (x : List UInt8) :
    splitBlock (crlf ++ b :: x) = (splitBlock (b :: x)).map fun r => (crlf ++ r.1, r.2) := by
  have first : ¬ emptyLine <+: 13 :: 10 :: b :: x := by
    rintro ⟨t, eq⟩
    simp only [emptyLine, List.cons_append, List.cons.injEq, true_and] at eq
    exact other eq.1.symm
  have second : ¬ emptyLine <+: 10 :: b :: x := by
    rintro ⟨t, eq⟩
    simp [emptyLine] at eq
  change splitBlock (13 :: 10 :: b :: x) = _
  rw [splitBlock, if_neg first, splitBlock, if_neg second, Option.map_map]
  rfl

def Line (l : List UInt8) : Prop := l ≠ [] ∧ 13 ∉ l ∧ 10 ∉ l

theorem splitBlock_lines {l : List UInt8} {ls : List (List UInt8)} (all : ∀ x ∈ l :: ls, Line x)
    (rest : List UInt8) :
    splitBlock ((l :: ls).flatMap (· ++ crlf) ++ crlf ++ rest) =
      some ((l :: ls).flatMap (· ++ crlf) ++ crlf, rest) := by
  induction ls generalizing l with
  | nil =>
    have last : splitBlock (crlf ++ (crlf ++ rest)) = some (crlf ++ crlf, rest) := by
      change splitBlock (13 :: 10 :: 13 :: 10 :: rest) = _
      rw [splitBlock, if_pos ⟨rest, rfl⟩]
      rfl
    simp only [List.flatMap_cons, List.flatMap_nil, List.append_nil, List.append_assoc]
    rw [splitBlock_append (all l List.mem_cons_self).2.1, last]
    simp
  | cons l' ls ih =>
    obtain ⟨first, others⟩ := List.forall_mem_cons.mp all
    have inner := ih others
    obtain ⟨b, x, eq⟩ : ∃ b x, l' = b :: x := List.exists_cons_of_ne_nil (others l' List.mem_cons_self).1
    have b13 : b ≠ 13 := fun h => (others l' List.mem_cons_self).2.1 (by simp [eq, h])
    rw [List.flatMap_cons, List.append_assoc, List.append_assoc, List.append_assoc,
      splitBlock_append first.2.1]
    rw [List.append_assoc] at inner
    have start : (l' :: ls).flatMap (· ++ crlf) ++ (crlf ++ rest) =
        b :: (x ++ crlf ++ ls.flatMap (· ++ crlf) ++ (crlf ++ rest)) := by simp [eq]
    rw [start, splitBlock_crlf b13, ← start, inner]
    simp

theorem lines_append {l : List UInt8} (inside : 10 ∉ l) (x : List UInt8) :
    lines (l ++ 10 :: x) = l :: lines x := by
  induction l with
  | nil => simp [lines]
  | cons b l ih =>
    have other : b ≠ 10 := fun h => inside (by simp [h])
    rw [List.cons_append, lines, if_neg other, ih fun mem => inside (List.mem_cons_of_mem _ mem)]

theorem lines_block {ls : List (List UInt8)} (all : ∀ x ∈ ls, Line x) :
    lines (ls.flatMap (· ++ crlf) ++ crlf) = ls.map (· ++ [13]) ++ [[13]] := by
  induction ls with
  | nil => rfl
  | cons l ls ih =>
    obtain ⟨first, others⟩ := List.forall_mem_cons.mp all
    have shape : (l :: ls).flatMap (· ++ crlf) ++ crlf =
        (l ++ [13]) ++ 10 :: (ls.flatMap (· ++ crlf) ++ crlf) := by simp [crlf]
    rw [shape, lines_append (by simpa using first.2.2), ih others]
    rfl

/-! ## Blanks -/

/-- The end of a line without its blanks. -/
def rtrim (s : List UInt8) : List UInt8 := (s.reverse.dropWhile isBlank).reverse

theorem dropWhile_cons_of_solid {b : UInt8} (solid : isBlank b = false) (x : List UInt8) :
    (b :: x).dropWhile isBlank = b :: x := List.dropWhile_cons_of_neg (by simp [solid])

theorem rtrim_append_solid {b : UInt8} (solid : isBlank b = false) (x y : List UInt8) :
    rtrim (x ++ b :: y) = x ++ b :: rtrim y := by
  unfold rtrim
  rw [List.reverse_append, List.reverse_cons, List.append_assoc, List.dropWhile_append]
  split_ifs with blank
  · rw [List.isEmpty_iff.mp blank, List.singleton_append, dropWhile_cons_of_solid solid]
    simp
  · simp

theorem rtrim_cr (x : List UInt8) : rtrim (x ++ [13]) = rtrim x := by
  rw [rtrim, List.reverse_append]
  rfl

theorem trim_of_solid {b : UInt8} (solid : isBlank b = false) (x : List UInt8) :
    trim (b :: x) = rtrim (b :: x) := by
  rw [trim, dropWhile_cons_of_solid solid, rtrim]

theorem rtrim_token {t : List UInt8} (token : Token t) (x : List UInt8) : rtrim (x ++ t) = x ++ t := by
  obtain ⟨s, b, rfl⟩ : ∃ s b, t = s ++ [b] := ⟨_, _, (List.dropLast_append_getLast token.1).symm⟩
  rw [← List.append_assoc, rtrim_append_solid (token.2 b (by simp))]
  simp [rtrim]

theorem trim_token {t : List UInt8} (token : Token t) : trim t = t := by
  obtain ⟨b, x, rfl⟩ := List.exists_cons_of_ne_nil token.1
  rw [trim_of_solid (token.2 b List.mem_cons_self)]
  exact rtrim_token token []

theorem span_append {t : List UInt8} {c : UInt8} (inside : c ∉ t) (x : List UInt8) :
    (t ++ c :: x).takeWhile (· ≠ c) = t ∧ (t ++ c :: x).dropWhile (· ≠ c) = c :: x := by
  have all : ∀ b ∈ t, decide (b ≠ c) = true := fun b mem => by
    simpa using fun eq : b = c => inside (eq ▸ mem)
  constructor
  · rw [List.takeWhile_append_of_pos all]
    simp
  · rw [List.dropWhile_append_of_pos all]
    simp

/-! ## Requests -/

theorem parseHeaders_lines {hs : List (List UInt8 × List UInt8)} (all : ∀ h ∈ hs, Field h) :
    parseHeaders (hs.map (fun h => RequestText.headerLine h ++ [13]) ++ [[13]]) =
      hs.map fun h => (h.1, trim (rtrim h.2)) := by
  induction hs with
  | nil => decide
  | cons h hs ih =>
    obtain ⟨⟨token, colon, -⟩, others⟩ := List.forall_mem_cons.mp all
    obtain ⟨b, x, eq⟩ := List.exists_cons_of_ne_nil token.1
    have solid : isBlank b = false := token.2 b (by simp [eq])
    have line : trim (RequestText.headerLine h ++ [13]) = h.1 ++ 58 :: rtrim h.2 := by
      rw [RequestText.headerLine, List.append_assoc, List.cons_append, eq, List.cons_append,
        trim_of_solid solid, ← List.cons_append, rtrim_append_solid (by decide), rtrim_cr]
    obtain ⟨name, value⟩ := span_append colon (rtrim h.2)
    rw [List.map_cons, List.cons_append, parseHeaders, line, if_neg (by simp), if_pos (by simp), name, value, List.tail_cons, trim_token token,
      ih others, List.map_cons]

theorem digit_apart {b : UInt8} (digit : isDigit b = true) : isBlank b = false ∧
    ¬ (b = 32 || (9 ≤ b && b ≤ 13)) = true ∧ b ≠ 45 ∧ b ≠ 43 := by
  simp only [isDigit, isBlank, Bool.and_eq_true, Bool.or_eq_true, Bool.or_eq_false_iff,
    decide_eq_true_eq, decide_eq_false_iff_not, UInt8.le_iff_toNat_le, ne_eq, ← UInt8.toNat_inj,
    UInt8.reduceToNat] at digit ⊢
  omega

theorem atoi_digits {digits : List UInt8} (some : digits ≠ []) (all : ∀ b ∈ digits, isDigit b = true)
    (small : numeral digits < 2 ^ 31) : atoi digits = numeral digits := by
  obtain ⟨d, ds, rfl⟩ := List.exists_cons_of_ne_nil some
  have digit := all d List.mem_cons_self
  obtain ⟨-, start⟩ := digit_apart digit
  have whole : (d :: ds).takeWhile isDigit = d :: ds := List.takeWhile_eq_self_iff.mpr all
  unfold atoi
  dsimp only
  rw [List.dropWhile_cons, if_neg start.1]
  split
  · rename_i rest eq
    exact absurd (List.cons.inj eq).1 start.2.1
  · rename_i rest eq
    exact absurd (List.cons.inj eq).1 start.2.2
  · rw [whole, min_eq_left (by omega), Int.bmod_eq_of_le (by omega) (by omega)]

namespace RequestText

variable (r : RequestText)

theorem field_cseq : Field (r.cseqName, r.pad ++ r.cseq) := by
  refine ⟨r.name.1, r.name.2, fun mem => ?_, fun mem => ?_⟩
  all_goals
    obtain inPad | inDigits := List.mem_append.mp mem
    · exact absurd (r.padding _ inPad) (by decide)
    · exact absurd (r.digits.2 _ inDigits) (by decide)

theorem field_headers {h : List UInt8 × List UInt8} (mem : h ∈ r.headers) : Field h := by
  obtain old | rfl | new : h ∈ r.before ∨ h = (r.cseqName, r.pad ++ r.cseq) ∨ h ∈ r.after := by
    simpa [headers] using mem
  · exact (r.fields h (List.mem_append_left _ old)).1
  · exact r.field_cseq
  · exact (r.fields h (List.mem_append_right _ new)).1

theorem line_all : ∀ x ∈ r.firstLine :: r.headers.map headerLine, Line x := by
  have apart {t : List UInt8} (token : Token t) : 13 ∉ t ∧ 10 ∉ t :=
    ⟨fun mem => absurd (token.2 _ mem) (by decide), fun mem => absurd (token.2 _ mem) (by decide)⟩
  obtain ⟨method, uri, version⟩ := r.tokens
  refine List.forall_mem_cons.mpr ⟨⟨by simp [firstLine], ?_, ?_⟩, fun x mem => ?_⟩
  · simpa [firstLine] using ⟨(apart method).1, (apart uri).1, (apart version).1⟩
  · simpa [firstLine] using ⟨(apart method).2, (apart uri).2, (apart version).2⟩
  · obtain ⟨h, inside, rfl⟩ := List.mem_map.mp mem
    obtain ⟨name, -, cr, lf⟩ := r.field_headers inside
    refine ⟨by simp [headerLine], ?_, ?_⟩
    · simpa [headerLine] using ⟨(apart name).1, cr⟩
    · simpa [headerLine] using ⟨(apart name).2, lf⟩

theorem trim_firstLine : trim (r.firstLine ++ [13]) = r.firstLine := by
  obtain ⟨b, x, eq⟩ := List.exists_cons_of_ne_nil r.tokens.1.1
  have solid : isBlank b = false := r.tokens.1.2 b (by simp [eq])
  have shape : r.firstLine = (r.method ++ 32 :: (r.uri ++ [32])) ++ r.version := by simp [firstLine]
  have head : ∃ y, r.firstLine = b :: y := ⟨x ++ 32 :: (r.uri ++ 32 :: r.version), by simp [firstLine, eq]⟩
  obtain ⟨y, cons⟩ := head
  rw [cons, List.cons_append, trim_of_solid solid, ← List.cons_append, rtrim_cr, ← cons, shape,
    rtrim_token r.tokens.2.2]

theorem findCseq_headers (spelled : r.cseqName = ascii "CSeq") (small : numeral r.cseq < 2 ^ 31) :
    findCseq (r.headers.map fun h => (h.1, trim (rtrim h.2))) = numeral r.cseq := by
  have token : Token r.cseq := ⟨r.digits.1, fun b mem => (digit_apart (r.digits.2 b mem)).1⟩
  have none {hs : List (List UInt8 × List UInt8)} (sub : ∀ h ∈ hs, h ∈ r.before ++ r.after) :
      (hs.map fun h => (h.1, trim (rtrim h.2))).filter (·.1 = ascii "CSeq") = [] := by
    simp only [List.filter_eq_nil_iff, List.mem_map]
    rintro _ ⟨h, mem, rfl⟩
    simpa using (r.fields h (sub h mem)).2
  have value : trim (rtrim (r.pad ++ r.cseq)) = r.cseq := by
    have blank : ∀ b ∈ r.pad, isBlank b = true := fun b mem => by
      obtain rfl | rfl := r.padding b mem <;> rfl
    rw [rtrim_token token, trim, List.dropWhile_append_of_pos blank]
    exact trim_token token
  have single : (r.headers.map fun h => (h.1, trim (rtrim h.2))).filter (·.1 = ascii "CSeq") =
      [(r.cseqName, r.cseq)] := by
    rw [headers, List.map_append, List.filter_append, List.map_cons, List.filter_cons_of_pos (by
      simpa using spelled), none fun h mem => List.mem_append_left _ mem,
      none fun h mem => List.mem_append_right _ mem, value]
    rfl
  rw [findCseq, single]
  exact atoi_digits r.digits.1 r.digits.2 small

theorem parseRequest_block (spelled : r.cseqName = ascii "CSeq") (small : numeral r.cseq < 2 ^ 31) :
    ∃ q, parseRequest r.block = some q ∧ q.method = r.method ∧ q.uri = r.uri ∧
      q.cseq = numeral r.cseq := by
  have apart {t : List UInt8} (token : Token t) : 32 ∉ t := fun mem =>
    absurd (token.2 _ mem) (by decide)
  obtain ⟨first, rest⟩ := span_append (apart r.tokens.1) (r.uri ++ 32 :: r.version)
  obtain ⟨second, more⟩ := span_append (apart r.tokens.2.1) r.version
  have headers : parseHeaders (((r.headers.map headerLine).map (· ++ [13])) ++ [[13]]) =
      r.headers.map fun h => (h.1, trim (rtrim h.2)) := by
    rw [List.map_map]
    exact parseHeaders_lines fun h mem => r.field_headers mem
  refine ⟨⟨r.method, r.uri, r.headers.map fun h => (h.1, trim (rtrim h.2)), numeral r.cseq⟩, ?_,
    rfl, rfl, rfl⟩
  rw [parseRequest, block, lines_block r.line_all, List.map_cons, List.cons_append]
  dsimp only
  rw [r.trim_firstLine, firstLine, rest, List.tail_cons, more, if_neg (by simp), headers, first,
    second, r.findCseq_headers spelled small]

end RequestText

/-! ## Streams of messages -/

def Request.key (q : Request) : List UInt8 × List UInt8 × ℤ := (q.method, q.uri, q.cseq)

theorem nextMessage_bytes {m : ClientMessage} (plain : m.Plain) (rest : List UInt8) :
    ∃ q, nextMessage (m.bytes ++ rest) = some (q, rest) ∧ q.map Request.key = m.request? := by
  cases m with
  | interleaved channel data short =>
    refine ⟨none, ?_, rfl⟩
    have shape : interleaved channel data ++ rest =
        [36, channel] ++ (beBytes 2 data.length ++ (data ++ rest)) := by simp [interleaved]
    have size : ofBeBytes ((([36, channel] ++ (beBytes 2 data.length ++ (data ++ rest))).drop 2).take 2) =
        data.length := by
      change ofBeBytes ((beBytes 2 data.length ++ (data ++ rest)).take 2) = data.length
      rw [List.take_left' (by simp), ofBeBytes_beBytes (by omega)]
    rw [ClientMessage.bytes, shape, nextMessage, if_pos (by simp)]
    dsimp only
    rw [size, if_neg (by simp; omega), ← List.append_assoc, ← List.append_assoc,
      List.drop_left' (by simp; omega)]
  | request r =>
    obtain ⟨body, spelled, small⟩ := plain
    obtain ⟨q, parsed, method, uri, cseq⟩ := r.parseRequest_block spelled small
    refine ⟨some q, ?_, by simp [Request.key, ClientMessage.request?, method, uri, cseq]⟩
    obtain ⟨b, x, eq⟩ := List.exists_cons_of_ne_nil r.tokens.1.1
    have head : (r.block ++ rest).head? ≠ some 36 := by
      have := r.noFrame
      simpa [RequestText.block, RequestText.firstLine, eq] using this
    rw [ClientMessage.bytes, RequestText.bytes, body, List.append_nil, nextMessage, if_neg head,
      RequestText.block, splitBlock_lines r.line_all, ← RequestText.block, Option.map_some, parsed]

theorem drain_messages {messages : List ClientMessage} (plain : ∀ m ∈ messages, m.Plain) :
    (parser.drain (messages.flatMap ClientMessage.bytes)).1.reduceOption.map Request.key =
        messages.filterMap ClientMessage.request? ∧
      (parser.drain (messages.flatMap ClientMessage.bytes)).2 = [] := by
  induction messages with
  | nil => rw [List.flatMap_nil, ItemParser.drain_of_none ItemParser.next_nil]; exact ⟨rfl, rfl⟩
  | cons m messages ih =>
    obtain ⟨first, others⟩ := List.forall_mem_cons.mp plain
    obtain ⟨handled, left⟩ := ih others
    obtain ⟨q, next, key⟩ := nextMessage_bytes first (messages.flatMap ClientMessage.bytes)
    rw [List.flatMap_cons, ItemParser.drain_of_some (p := parser) next]
    refine ⟨?_, left⟩
    rw [List.filterMap_cons, ← key]
    cases q with
    | none => simpa using handled
    | some q => simpa using handled

/-- Each request is handled once, in order, however the bytes arrive. -/
theorem requests_handled {messages : List ClientMessage} (plain : ∀ m ∈ messages, m.Plain)
    {pieces : List (List UInt8)}
    (split : pieces.flatten = messages.flatMap ClientMessage.bytes) :
    (received pieces).1.map Request.key = messages.filterMap ClientMessage.request? ∧
      (received pieces).2 = [] := by
  rw [received_eq, split]
  exact drain_messages plain

def sampleRequest : RequestText where
  method := ascii "OPTIONS"
  uri := ascii "*"
  version := ascii "RTSP/1.0"
  before := []
  cseqName := ascii "CSeq"
  pad := [32]
  cseq := ascii "2"
  after := []
  body := []
  tokens := by decide +kernel
  noFrame := by decide +kernel
  fields := by decide +kernel
  name := by decide +kernel
  padding := by decide +kernel
  digits := by decide +kernel
  bodyLength := by decide +kernel

theorem requests_handled_sample :
    (received [[36, 1, 0, 1, 7] ++ sampleRequest.bytes.take 9, sampleRequest.bytes.drop 9]).1.map
        Request.key = [(ascii "OPTIONS", ascii "*", 2)] ∧
      (received [[36, 1, 0, 1, 7] ++ sampleRequest.bytes.take 9, sampleRequest.bytes.drop 9]).2 = [] :=
  @requests_handled [.interleaved 1 [7] (by decide), .request sampleRequest]
    (by simp only [List.forall_mem_cons]; exact
      ⟨trivial, ⟨rfl, rfl, by decide +kernel⟩, by simp⟩) _
    (by decide +kernel)

def requestWithBody : RequestText :=
  { sampleRequest with
    method := ascii "ANNOUNCE"
    cseq := ascii "1"
    after := [(ascii "Content-Length", ascii " 2")]
    body := ascii "hi"
    tokens := by decide +kernel
    noFrame := by decide +kernel
    fields := by decide +kernel
    digits := by decide +kernel
    bodyLength := by decide +kernel }

/-- The body of the first request is read as the beginning of the second. -/
theorem body_taken_for_request :
    (received [requestWithBody.bytes ++ sampleRequest.bytes]).1.map Request.key =
      [(ascii "ANNOUNCE", ascii "*", 1), (ascii "hiOPTIONS", ascii "*", 2)] := by
  decide +kernel

end NeoRuntime.CameraDaemon.Rtsp
