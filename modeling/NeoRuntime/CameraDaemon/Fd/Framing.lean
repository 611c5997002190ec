import Mathlib.Algebra.Group.Nat.Defs
import NeoRuntime.Lib.Bytes

/-!
# Framing of the messages of a client

`FdPublisher::client_recv_loop` (platform/camera-daemon/src/fd_publisher.cpp) reads a header of eight
bytes, then the body in the branch of its type.  A branch that does not read the body leaves it to be
read as the next header.  The theorem says for which messages this does not happen (`framing_iff`).
-/

namespace NeoRuntime.CameraDaemon.Fd

inductive Handler
  | subscribe
  | release
  | dspAlloc
  | dspBufRelease
  | dspImport
  | dspLookup
  | dspLookupRelease
  deriving DecidableEq

/-- `sizeof(FdPubMsgHeader)`. -/
def headerSize : ℕ := 8

/-- `FD_PUB_MSG_UNSUBSCRIBE`. -/
def unsubscribeType : ℕ := 2

/-- The handler of a message type and the size of its struct without the header. -/
def bodyOf : ℕ → Option (Handler × ℕ)
  | 1 => some (.subscribe, 76 - headerSize)
  | 4 => some (.release, 16 - headerSize)
  | 7 => some (.dspAlloc, 24 - headerSize)
  | 9 => some (.dspBufRelease, 16 - headerSize)
  | 10 => some (.dspImport, 48 - headerSize)
  | 12 => some (.dspLookup, 16 - headerSize)
  | 14 => some (.dspLookupRelease, 16 - headerSize)
  | _ => none

structure Answers where
  /-- The header arrives in one piece. -/
  header : Bool
  /-- The descriptors that came with it. -/
  fds : List ℕ
  body : ℕ

inductive Handled
  | call (handler : Handler) (msg : List UInt8) (fds : List ℕ)
  | badSize (handler : Handler)
  | short (handler : Handler)
  | unsubscribe
  | unknown (type : ℕ)
  deriving DecidableEq

structure Iteration where
  handled : Handled
  /-- The descriptors that the loop closes. -/
  closed : List ℕ
  rest : List UInt8
  deriving DecidableEq

/-- The result of `hdr.size - sizeof(hdr)`, a `size_t`. -/
def payloadSize (size : ℕ) : ℕ := (size + (2 ^ 64 - headerSize)) % 2 ^ 64

/-- The switch on the type, for a header `hdr` and the bytes after it. -/
def dispatch (answers : Answers) (hdr : List UInt8) (type payload : ℕ) (bytes : List UInt8) : Iteration :=
  let got := min payload answers.body
  match bodyOf type with
  | some (handler, expected) =>
    if payload ≠ expected then ⟨.badSize handler, answers.fds, bytes⟩
    else if (bytes.take got).length ≠ payload then ⟨.short handler, answers.fds, bytes.drop got⟩
    -- only this handler takes the descriptors
    else if handler = .dspImport then
      ⟨.call handler (hdr ++ bytes.take got) answers.fds, [], bytes.drop got⟩
    else ⟨.call handler (hdr ++ bytes.take got) [], answers.fds, bytes.drop got⟩
  | none =>
    if type = unsubscribeType then ⟨.unsubscribe, answers.fds, bytes⟩
    else if 0 < payload ∧ payload < 4096 then ⟨.unknown type, answers.fds, bytes.drop got⟩
    else ⟨.unknown type, answers.fds, bytes⟩

def iteration (answers : Answers) (bytes : List UInt8) : Option Iteration :=
  if bytes.length < headerSize ∨ answers.header = false then none
  else
    let hdr := bytes.take headerSize
    some (dispatch answers hdr (ofLeBytes (hdr.take 4)) (payloadSize (ofLeBytes (hdr.drop 4)))
      (bytes.drop headerSize))

/-- `client_recv_loop` on what the client sent. -/
def clientRecvLoop : List Answers → List UInt8 → List Iteration
  | [], _ => []
  | answers :: rest, bytes =>
    match iteration answers bytes with
    | none => []
    | some it => it :: clientRecvLoop rest it.rest

/-! ## Messages -/

structure Message where
  type : UInt32
  body : List UInt8
  fits : headerSize + body.length < 2 ^ 32

namespace Message

variable (m : Message)

def header : List UInt8 :=
  leBytes 4 m.type.toNat ++ leBytes 4 (headerSize + m.body.length)

def bytes : List UInt8 := m.header ++ m.body

def handled (fds : List ℕ) : Handled :=
  match bodyOf m.type.toNat with
  | some (handler, expected) =>
    if m.body.length ≠ expected then .badSize handler
    else .call handler m.bytes (if handler = .dspImport then fds else [])
  | none => if m.type.toNat = unsubscribeType then .unsubscribe else .unknown m.type.toNat

/-- The descriptors of a message that no handler gets. -/
def closed (fds : List ℕ) : List ℕ :=
  match m.handled fds with
  | .call .dspImport _ _ => []
  | _ => fds

def Read : Prop :=
  match bodyOf m.type.toNat with
  | some (_, expected) => m.body.length = expected
  | none => m.type.toNat ≠ unsubscribeType ∧ m.body.length < 4096

/-- There is no body, or it is read, and the read is not cut off. -/
def Consumed (answers : Answers) : Prop :=
  m.body = [] ∨ m.Read ∧ m.body.length ≤ answers.body

end Message

def framed : List Message → List Answers → List Iteration
  | m :: ms, answers :: rest =>
    ⟨m.handled answers.fds, m.closed answers.fds, ms.flatMap Message.bytes⟩ :: framed ms rest
  | _, _ => []

section Message

variable {m : Message} {answers : Answers}

@[simp] theorem length_header (m : Message) : m.header.length = headerSize := by
  simp [Message.header, headerSize]

/-- The loop reads the fields of the header back. -/
theorem iteration_message (whole : answers.header = true) (rest : List UInt8) :
    iteration answers (m.bytes ++ rest) =
      some (dispatch answers m.header m.type.toNat m.body.length (m.body ++ rest)) := by
  have fits := m.fits
  have enough : ¬ ((m.bytes ++ rest).length < headerSize ∨ answers.header = false) := by
    simp [Message.bytes, whole]
  have head : (m.bytes ++ rest).take headerSize = m.header := by
    rw [Message.bytes, List.append_assoc, ← length_header m, List.take_left]
  have tail : (m.bytes ++ rest).drop headerSize = m.body ++ rest := by
    rw [Message.bytes, List.append_assoc, ← length_header m, List.drop_left]
  have type : ofLeBytes (m.header.take 4) = m.type.toNat := by
    rw [Message.header, List.take_left' (length_leBytes 4 _)]
    exact ofLeBytes_leBytes m.type.toNat_lt
  have size : ofLeBytes (m.header.drop 4) = headerSize + m.body.length := by
    rw [Message.header, List.drop_left' (length_leBytes 4 _)]
    exact ofLeBytes_leBytes fits
  have payload : payloadSize (headerSize + m.body.length) = m.body.length := by
    unfold payloadSize headerSize at *
    omega
  rw [iteration, if_neg enough, head, tail]
  dsimp only
  rw [type, size, payload]

theorem bodyOf_pos {type expected : ℕ} {handler : Handler}
    (found : bodyOf type = some (handler, expected)) : 0 < expected := by
  unfold bodyOf headerSize at found
  split at found <;> simp only [Option.some.injEq, Prod.mk.injEq, reduceCtorEq] at found <;> omega

/-- A message that is consumed is handled with its own fields. -/
theorem dispatch_consumed (consumed : m.Consumed answers) (rest : List UInt8) :
    dispatch answers m.header m.type.toNat m.body.length (m.body ++ rest) =
      ⟨m.handled answers.fds, m.closed answers.fds, rest⟩ := by
  unfold dispatch Message.closed
  cases branch : bodyOf m.type.toNat with
  | none =>
    have handled : m.handled answers.fds =
        if m.type.toNat = unsubscribeType then .unsubscribe else .unknown m.type.toNat := by
      simp only [Message.handled, branch]
    rw [handled]
    dsimp only
    obtain empty | ⟨read, whole⟩ := consumed
    · rw [empty]
      split_ifs <;> rfl
    · simp only [Message.Read, branch] at read
      rw [if_neg read.1, if_neg read.1]
      by_cases some_ : 0 < m.body.length
      · rw [if_pos ⟨some_, read.2⟩, Nat.min_eq_left whole, List.drop_left]
      · have empty : m.body = [] := List.length_eq_zero_iff.1 (by omega)
        rw [empty]
        rfl
  | some found =>
    obtain ⟨handler, expected⟩ := found
    have handled : m.handled answers.fds =
        if m.body.length ≠ expected then .badSize handler
        else .call handler m.bytes (if handler = .dspImport then answers.fds else []) := by
      simp only [Message.handled, branch]
    rw [handled]
    dsimp only
    obtain empty | ⟨read, whole⟩ := consumed
    · have size : m.body.length ≠ expected := by
        rw [empty]
        exact Nat.ne_of_lt (bodyOf_pos branch)
      rw [if_pos size, if_pos size, empty]
      rfl
    · simp only [Message.Read, branch] at read
      rw [Nat.min_eq_left whole, List.take_left, List.drop_left, if_neg (not_not.2 read),
        if_neg (not_not.2 rfl), if_neg (not_not.2 read)]
      cases handler <;> rfl

/-- A message that is not consumed leaves more than what follows it. -/
theorem lt_length_rest (cut : ¬ m.Consumed answers) (rest : List UInt8) : rest.length <
      (dispatch answers m.header m.type.toNat m.body.length (m.body ++ rest)).rest.length := by
  have body : 0 < m.body.length := List.length_pos_iff.2 fun empty => cut (.inl empty)
  have unread : ¬ m.Read → rest.length < (m.body ++ rest).length := by
    intro _
    rw [List.length_append]
    omega
  have short : m.Read →
      rest.length < ((m.body ++ rest).drop (min m.body.length answers.body)).length := by
    intro read
    have early : ¬ m.body.length ≤ answers.body := fun whole => cut (.inr ⟨read, whole⟩)
    rw [List.length_drop, List.length_append]
    omega
  unfold dispatch
  unfold Message.Read at unread short
  cases branch : bodyOf m.type.toNat with
  | none =>
    simp only [branch] at unread short ⊢
    by_cases unsubscribe : m.type.toNat = unsubscribeType
    · rw [if_pos unsubscribe]
      exact unread fun read => read.1 unsubscribe
    · rw [if_neg unsubscribe]
      split_ifs with small
      · exact short ⟨unsubscribe, small.2⟩
      · exact unread fun read => small ⟨body, read.2⟩
  | some found =>
    simp only [branch] at unread short ⊢
    by_cases size : m.body.length = found.2
    · rw [if_neg (by simp [size])]
      split_ifs <;> exact short size
    · rw [if_pos size]
      exact unread size

end Message

/-- The loop consumes the messages one by one exactly if each has no body or one that its branch
reads. -/
theorem framing_iff (ms : List Message) (answers : List Answers) :
    clientRecvLoop answers (ms.flatMap Message.bytes) <+: framed ms answers ↔
      ∀ p ∈ (ms.zip answers).takeWhile (·.2.header), p.1.Consumed p.2 := by
  induction answers generalizing ms with
  | nil => simp [clientRecvLoop]
  | cons a answers ih =>
    cases ms with
    | nil => simp [clientRecvLoop, iteration, headerSize]
    | cons m ms =>
      rw [List.flatMap_cons, clientRecvLoop, framed, List.zip_cons_cons, List.takeWhile_cons]
      by_cases whole : a.header = true
      · rw [iteration_message whole, if_pos whole, List.forall_mem_cons]
        dsimp only
        by_cases consumed : m.Consumed a
        · rw [dispatch_consumed consumed, List.cons_prefix_cons, ih]
          simp [consumed]
        · have more := lt_length_rest consumed (ms.flatMap Message.bytes)
          constructor
          · intro framed
            rw [List.cons_prefix_cons] at framed
            rw [framed.1] at more
            exact absurd more (Nat.lt_irrefl _)
          · intro all
            exact absurd all.1 consumed
      · have closed : iteration a (m.bytes ++ ms.flatMap Message.bytes) = none := by
          rw [iteration, if_pos (.inr (Bool.eq_false_of_not_eq_true whole))]
        rw [closed, if_neg whole]
        simp

/-- The body of a RELEASE is too long, and is itself a message that releases frame 7. -/
def releaseInBody : Message where
  type := 4
  body := leBytes 4 4 ++ leBytes 4 16 ++ leBytes 8 7
  fits := by decide

theorem body_read_as_message :
    (clientRecvLoop (List.replicate 2 ⟨true, [], 16⟩) releaseInBody.bytes).map (·.handled) =
      [.badSize .release, .call .release releaseInBody.body []] ∧
    ¬ clientRecvLoop (List.replicate 2 ⟨true, [], 16⟩) ([releaseInBody].flatMap Message.bytes) <+:
      framed [releaseInBody] (List.replicate 2 ⟨true, [], 16⟩) := by
  decide +kernel

end NeoRuntime.CameraDaemon.Fd
