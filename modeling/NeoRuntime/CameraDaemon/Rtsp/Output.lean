import Mathlib.Data.List.Basic
import NeoRuntime.Lib.Bytes

/-!
# Output of the RTSP server

`RtspServer` (platform/camera-daemon/src/rtsp_server.cpp) writes responses, RTP packets and RTCP
packets to the one TCP connection of a client: the responses as text, the packets in interleaved
frames.  Each of them is handed to the non-blocking socket in one call, whose result is looked at
only if it is an error.
-/

namespace NeoRuntime.CameraDaemon.Rtsp

def ascii (s : String) : List UInt8 := s.toList.map fun c => UInt8.ofNat c.toNat

def crlf : List UInt8 := [13, 10]

structure Response where
  code : ℕ
  reason : List UInt8
  cseq : ℤ
  headers : List (List UInt8 × List UInt8) := []
  body : List UInt8 := []
  /-- The callers pass no line break, and leave the length of the body to `send_response`. -/
  texts : 10 ∉ reason ∧ ∀ h ∈ headers,
    (58 ∉ h.1 ∧ 10 ∉ h.1 ∧ 10 ∉ h.2) ∧ h.1 ≠ ascii "Content-Length" := by decide +kernel

/-- The text that `send_response` writes. -/
def Response.bytes (r : Response) : List UInt8 :=
  ascii "RTSP/1.0 " ++ ascii (toString r.code) ++ ascii " " ++ r.reason ++ crlf ++
    ascii "CSeq: " ++ ascii (toString r.cseq) ++ crlf ++
    r.headers.flatMap (fun h => h.1 ++ ascii ": " ++ h.2 ++ crlf) ++
    (if r.body = [] then [] else ascii "Content-Length: " ++ ascii (toString r.body.length) ++ crlf) ++
    crlf ++ r.body

def interleaved (channel : UInt8) (data : List UInt8) : List UInt8 :=
  36 :: channel :: beBytes 2 data.length ++ data

inductive SendResult
  /-- It takes the message up to this many bytes. -/
  | accepted (n : ℕ)
  | wouldBlock
  | error

structure Connection where
  alive : Bool := true
  received : List UInt8 := []

variable (c : Connection)

namespace Connection

def push (message : List UInt8) (n : ℕ) : Connection :=
  { c with received := c.received ++ message.take n }

def sendResponse (r : Response) : SendResult → Connection
  | .accepted n => c.push r.bytes n
  | .wouldBlock => { c with alive := false }
  | .error => { c with alive := false }

def sendTcpInterleaved (channel : UInt8) (data : List UInt8) (result : SendResult) : Connection :=
  if data.length > 0xFFFF then c
  else
    match result with
    | .accepted n => c.push (interleaved channel data) n
    | .wouldBlock => c
    | .error => { c with alive := false }

end Connection

inductive Message
  | response (r : Response)
  | packet (channel : UInt8) (data : List UInt8)

def Message.bytes : Message → List UInt8
  | .response r => r.bytes
  | .packet channel data => interleaved channel data

def write : Message × SendResult → Connection
  | (.response r, result) => c.sendResponse r result
  | (.packet channel data, result) => c.sendTcpInterleaved channel data result

/-! ## What a client can read -/

/-- A status line, header fields, an empty line, and the body that `Content-Length` announces. -/
def IsResponse (bytes : List UInt8) : Prop :=
  ∃ (status : List UInt8) (fields : List (List UInt8 × List UInt8)) (body : List UInt8),
    bytes = ascii "RTSP/1.0 " ++ status ++ crlf ++
      fields.flatMap (fun h => h.1 ++ ascii ": " ++ h.2 ++ crlf) ++ crlf ++ body ∧
    10 ∉ status ∧ (∀ h ∈ fields, 58 ∉ h.1 ∧ 10 ∉ h.1 ∧ 10 ∉ h.2) ∧
    (fields.filter (·.1 = ascii "Content-Length")).map Prod.snd =
      if body = [] then [] else [ascii (toString body.length)]

def Complete (bytes : List UInt8) : Prop :=
  IsResponse bytes ∨ ∃ channel data, data.length ≤ 0xFFFF ∧ bytes = interleaved channel data

/-- Complete ones of these messages, and a part of one more only on a closed connection. -/
def WellFramed (messages : List (List UInt8)) : Prop :=
  ∃ (items : List (List UInt8)) (part : List UInt8),
    items.Sublist messages ∧ (∀ item ∈ items, Complete item) ∧ c.received = items.flatten ++ part ∧
      (part = [] ∨ c.alive = false ∧ ∃ item ∈ messages, Complete item ∧ part <+: item)

theorem notMem_ascii_natCast (n : ℕ) : 10 ∉ ascii (toString n) := by
  intro mem
  obtain ⟨d, digit, eq⟩ := List.mem_map.mp mem
  rw [Nat.toString_eq_repr, Nat.toList_repr] at digit
  have range := Nat.isDigit_of_mem_toDigits (by omega) (by omega) digit
  have code : d.toNat % 256 = 10 := congrArg UInt8.toNat eq
  simp only [Char.isDigit, Bool.and_eq_true, decide_eq_true_eq, ge_iff_le,
    UInt32.le_iff_toNat_le] at range
  have low : 48 ≤ d.toNat := range.1
  have high : d.toNat ≤ 57 := range.2
  omega

theorem notMem_ascii_intCast (i : ℤ) : 10 ∉ ascii (toString i) := by
  cases i with
  | ofNat n => exact notMem_ascii_natCast n
  | negSucc n =>
    change 10 ∉ ascii ("-" ++ toString (n + 1))
    rw [ascii, String.toList_append, List.map_append, List.mem_append, not_or]
    exact ⟨by decide +kernel, notMem_ascii_natCast (n + 1)⟩

theorem Response.isResponse (r : Response) : IsResponse r.bytes := by
  let size : List (List UInt8 × List UInt8) :=
    if r.body = [] then [] else [(ascii "Content-Length", ascii (toString r.body.length))]
  refine ⟨ascii (toString r.code) ++ ascii " " ++ r.reason,
    (ascii "CSeq", ascii (toString r.cseq)) :: r.headers ++ size, r.body, ?_, ?_, ?_, ?_⟩
  · by_cases empty : r.body = [] <;> simp [Response.bytes, size, empty, ascii]
  · simp only [List.mem_append, not_or]
    exact ⟨⟨notMem_ascii_natCast _, by decide +kernel⟩, r.texts.1⟩
  · intro h mem
    rcases List.mem_append.mp mem with front | last
    · rcases List.mem_cons.mp front with rfl | given
      · have name : 58 ∉ ascii "CSeq" ∧ 10 ∉ ascii "CSeq" := by decide +kernel
        exact ⟨name.1, name.2, notMem_ascii_intCast _⟩
      · exact (r.texts.2 h given).1
    · have eq : h = (ascii "Content-Length", ascii (toString r.body.length)) := by
        by_cases empty : r.body = [] <;> simp_all [size]
      have name : 58 ∉ ascii "Content-Length" ∧ 10 ∉ ascii "Content-Length" := by decide +kernel
      rw [eq]
      exact ⟨name.1, name.2, notMem_ascii_natCast _⟩
  · have others : r.headers.filter (·.1 = ascii "Content-Length") = [] := by
      rw [List.filter_eq_nil_iff]
      intro h mem
      simpa using (r.texts.2 h mem).2
    have cseq : ascii "CSeq" ≠ ascii "Content-Length" := by decide +kernel
    by_cases empty : r.body = [] <;> simp [others, cseq, size, empty]

/-! ## Runs -/

/-- The bytes that the socket takes. -/
def taken : Message × SendResult → List UInt8
  | (.response r, .accepted n) => r.bytes.take n
  | (.packet channel data, .accepted n) =>
    if data.length > 0xFFFF then [] else (interleaved channel data).take n
  | _ => []

/-- The send fails, in a way that gives the client up. -/
def Closes : Message × SendResult → Prop
  | (.response _, .wouldBlock) => True
  | (.response _, .error) => True
  | (.packet _ data, .error) => data.length ≤ 0xFFFF
  | _ => False

/-- Each message is taken whole or not at all; or one is taken in part, nothing is taken after it,
and a later send fails. -/
def Tidy : List (Message × SendResult) → Prop
  | [] => True
  | w :: writes =>
    (taken w = [] ∨ taken w = w.1.bytes) ∧ Tidy writes ∨
      (∀ x ∈ writes, taken x = []) ∧ ∃ x ∈ writes, Closes x

theorem received_write (w : Message × SendResult) :
    (write c w).received = c.received ++ taken w := by
  rcases w with ⟨⟨r⟩ | ⟨channel, data⟩, n | _ | _⟩ <;>
    simp only [write, taken, Connection.sendResponse, Connection.sendTcpInterleaved,
      Connection.push, List.append_nil]
  all_goals split_ifs <;> simp

theorem alive_write (w : Message × SendResult) :
    (write c w).alive = true ↔ c.alive = true ∧ ¬ Closes w := by
  rcases w with ⟨⟨r⟩ | ⟨channel, data⟩, n | _ | _⟩ <;>
    simp only [write, Closes, Connection.sendResponse, Connection.sendTcpInterleaved,
      Connection.push, apply_ite Connection.alive]
  all_goals grind

theorem received_foldl (writes : List (Message × SendResult)) :
    (writes.foldl write c).received = c.received ++ writes.flatMap taken := by
  induction writes generalizing c with
  | nil => simp
  | cons w writes ih => rw [List.foldl_cons, ih, received_write, List.flatMap_cons, List.append_assoc]

theorem alive_foldl (writes : List (Message × SendResult)) :
    (writes.foldl write c).alive = true ↔ c.alive = true ∧ ∀ w ∈ writes, ¬ Closes w := by
  induction writes generalizing c with
  | nil => simp
  | cons w writes ih => rw [List.foldl_cons, ih, alive_write, List.forall_mem_cons, and_assoc]

theorem taken_cases (w : Message × SendResult) :
    taken w = [] ∨ taken w <+: w.1.bytes ∧ Complete w.1.bytes := by
  rcases w with ⟨⟨r⟩ | ⟨channel, data⟩, n | _ | _⟩
  case response.accepted => exact .inr ⟨List.take_prefix n r.bytes, .inl r.isResponse⟩
  case packet.accepted =>
    by_cases long : data.length > 0xFFFF
    · exact .inl (if_pos long)
    · rw [taken, if_neg long]
      exact .inr ⟨List.take_prefix n _, .inr ⟨channel, data, by omega, rfl⟩⟩
  all_goals exact .inl rfl

/-- What a tidy run of sends leaves of its messages. -/
theorem Tidy.split {writes : List (Message × SendResult)} (tidy : Tidy writes) :
    ∃ (items : List (List UInt8)) (part : List UInt8),
      items.Sublist (writes.map (·.1.bytes)) ∧ (∀ item ∈ items, Complete item) ∧
      writes.flatMap taken = items.flatten ++ part ∧
      (part = [] ∨ (∃ w ∈ writes, Closes w) ∧
        ∃ item ∈ writes.map (·.1.bytes), Complete item ∧ part <+: item) := by
  induction writes with
  | nil => exact ⟨[], [], .slnil, by simp, rfl, .inl rfl⟩
  | cons w writes ih =>
    rw [List.map_cons, List.flatMap_cons]
    rcases tidy with ⟨whole, later⟩ | ⟨nothing, closed⟩
    · obtain ⟨items, part, among, all, eq, ending⟩ := ih later
      have ending' : part = [] ∨ (∃ x ∈ w :: writes, Closes x) ∧
          ∃ item ∈ w.1.bytes :: writes.map (·.1.bytes), Complete item ∧ part <+: item :=
        ending.imp_right fun ⟨⟨x, mem, closes⟩, item, found, of⟩ =>
          ⟨⟨x, List.mem_cons_of_mem _ mem, closes⟩, item, List.mem_cons_of_mem _ found, of⟩
      by_cases none : taken w = []
      · exact ⟨items, part, among.cons _, all, by rw [none, eq]; rfl, ending'⟩
      · have complete := ((taken_cases w).resolve_left none).2
        refine ⟨w.1.bytes :: items, part, among.cons_cons _, ?_, ?_, ending'⟩
        · exact List.forall_mem_cons.mpr ⟨complete, all⟩
        · rw [whole.resolve_left none, eq, List.flatten_cons, List.append_assoc]
    · have rest : writes.flatMap taken = [] := List.flatMap_eq_nil_iff.mpr nothing
      refine ⟨[], taken w, List.nil_sublist _, by simp, by rw [rest]; simp, ?_⟩
      refine (taken_cases w).imp_right fun ⟨of, complete⟩ => ⟨?_, _, List.mem_cons_self, complete, of⟩
      obtain ⟨x, mem, closes⟩ := closed
      exact ⟨x, List.mem_cons_of_mem _ mem, closes⟩

/-- A client of a socket that takes messages whole sees whole messages, and a part of one only at
the end of a connection that is given up. -/
theorem wellFramed_run {writes : List (Message × SendResult)} (tidy : Tidy writes) :
    WellFramed (writes.foldl write {}) (writes.map (·.1.bytes)) := by
  obtain ⟨items, part, among, all, eq, ending⟩ := tidy.split
  refine ⟨items, part, among, all, ?_, ending.imp_right fun ⟨⟨w, mem, closes⟩, of⟩ => ⟨?_, of⟩⟩
  · rw [received_foldl, eq]
    rfl
  · rw [← Bool.not_eq_true, alive_foldl]
    exact fun open' => open'.2 w mem closes

def okResponse : Response where
  code := 200
  reason := ascii "OK"
  cseq := 3

def sdpResponse : Response where
  code := 200
  reason := ascii "OK"
  cseq := 2
  headers := [(ascii "Content-Type", ascii "application/sdp")]
  body := ascii "v=0"

/-- An answer with a body and packets around a full socket, of which the last one is cut off before
the socket fails. -/
theorem wellFramed_run_cut :
    WellFramed ([(Message.response sdpResponse, .accepted 99), (.packet 0 [1, 2], .accepted 6),
        (.packet 0 [3], .wouldBlock), (.response okResponse, .accepted 28),
        (.packet 0 [4, 5], .accepted 5), (.packet 1 [6], .wouldBlock),
        (.packet 1 [7], .error)].foldl write {})
      ([Message.response sdpResponse, .packet 0 [1, 2], .packet 0 [3], .response okResponse,
        .packet 0 [4, 5], .packet 1 [6], .packet 1 [7]].map Message.bytes) :=
  wellFramed_run (.inl ⟨.inr (by decide +kernel), .inl ⟨.inr (by decide +kernel),
    .inl ⟨.inl rfl, .inl ⟨.inr (by decide +kernel), .inr ⟨by simp [taken],
      _, List.mem_cons_of_mem _ List.mem_cons_self, by simp [Closes]⟩⟩⟩⟩⟩)

theorem Complete.head {bytes : List UInt8} (complete : Complete bytes) :
    ∃ b rest, bytes = b :: rest ∧ (b = 36 ∨ b = 82) := by
  rcases complete with ⟨status, fields, body, rfl, -⟩ | ⟨channel, data, -, rfl⟩
  · exact ⟨82, _, rfl, .inr rfl⟩
  · exact ⟨36, _, rfl, .inl rfl⟩

/-- Five of the seven bytes of a frame are sent, and then a response. -/
theorem part_of_frame :
    ([(Message.packet 0 [1, 2, 3], .accepted 5), (.response okResponse, .accepted 99)].foldl
        write {}).alive = true ∧
      ∀ messages, ¬ WellFramed ([(Message.packet 0 [1, 2, 3], .accepted 5),
        (.response okResponse, .accepted 99)].foldl write {}) messages := by
  refine ⟨rfl, ?_⟩
  -- the client takes the first two bytes of the response for the rest of the frame
  have bytes : ([(Message.packet 0 [1, 2, 3], .accepted 5),
      (.response okResponse, .accepted 99)].foldl write {}).received =
      [36, 0, 0, 3] ++ [1, 82, 84] ++ 83 :: (okResponse.bytes.drop 3) := by decide +kernel
  rintro messages ⟨items, part, -, all, whole, ending⟩
  obtain rfl : part = [] := ending.resolve_right fun closed => Bool.noConfusion closed.1
  rw [bytes, List.append_nil] at whole
  cases items with
  | nil => simp at whole
  | cons item items =>
    obtain ⟨first, rest⟩ := List.forall_mem_cons.mp all
    rcases first with ⟨status, fields, body, rfl, -⟩ | ⟨channel, data, short, rfl⟩
    · have := congrArg List.head? whole
      rw [List.flatten_cons, List.head?_append] at this
      exact absurd this (by simp [ascii])
    · rw [List.flatten_cons, interleaved, List.append_assoc, List.append_assoc] at whole
      change [36, 0] ++ ([0, 3] ++ ([1, 82, 84] ++ 83 :: okResponse.bytes.drop 3)) =
        [36, channel] ++ (beBytes 2 data.length ++ (data ++ items.flatten)) at whole
      obtain ⟨-, whole⟩ := List.append_inj whole rfl
      obtain ⟨size, whole⟩ := List.append_inj whole (by simp)
      have three : data.length = 3 := by
        rw [← ofBeBytes_beBytes (k := 2) (v := data.length) (by omega), ← size]
        decide
      obtain ⟨-, tail⟩ := List.append_inj whole three.symm
      cases items with
      | nil => cases tail
      | cons item items =>
        obtain ⟨b, more, rfl, start⟩ := (rest item List.mem_cons_self).head
        obtain rfl : 83 = b := (List.cons.inj tail).1
        revert start
        decide

/-- A response without its last two bytes, and a whole one. -/
example : ¬ WellFramed ([(Message.response okResponse, .accepted 26),
    (.response okResponse, .accepted 28)].foldl write {}) [okResponse.bytes, okResponse.bytes] := by
  rintro ⟨items, part, among, -, whole, ending⟩
  obtain rfl : part = [] := ending.resolve_right fun closed => Bool.noConfusion closed.1
  obtain ⟨k, -, rfl⟩ := List.sublist_replicate_iff.mp
    (show items.Sublist (List.replicate 2 okResponse.bytes) from among)
  have size : okResponse.bytes.length = 28 := by decide +kernel
  have sizes := congrArg List.length whole
  rw [received_foldl] at sizes
  simp [taken, size] at sizes
  omega

end NeoRuntime.CameraDaemon.Rtsp
