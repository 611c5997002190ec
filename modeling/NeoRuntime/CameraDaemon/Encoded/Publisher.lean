import Mathlib.Data.List.Count
import Mathlib.Logic.Function.Basic
import NeoRuntime.Lib.Bytes
import NeoRuntime.Lib.Run

/-!
# The encoded publisher

`EncodedPublisher` (platform/camera-daemon/src/encoded_publisher.cpp) takes the packets of all
encoders into one bounded queue.  One thread frames them and sends each frame to the clients of its
stream without waiting.  A step is a critical section of `queue_mu_` or of `clients_mu`.  What has
left is kept for the statements.
-/

namespace NeoRuntime.CameraDaemon.Encoded

inductive Codec
  | h264
  | h265
  | audio
  deriving DecidableEq

def Codec.isVideo (codec : Codec) : Bool := codec = .h264 || codec = .h265

structure StreamConfig where
  codec : Codec
  width : ℕ := 0
  height : ℕ := 0

abbrev Streams := String → Option StreamConfig

structure Packet where
  stream : String
  seq : ℕ
  timestamp : ℕ
  data : List UInt8
  deriving DecidableEq

/-! ## Frames -/

/-- An IDR slice, or an IRAP picture. -/
def startsSequence (codec : Codec) (nal : UInt8) : Bool :=
  if codec = .h265 then
    let type := (nal >>> 1) &&& 0x3F
    16 ≤ type && type ≤ 23
  else nal &&& 0x1F = 5

/-- `detect_h264_keyframe`. -/
def detectKeyframe (codec : Codec) : List UInt8 → Bool
  | 0 :: 0 :: 1 :: nal :: rest => startsSequence codec nal || detectKeyframe codec rest
  | 0 :: 0 :: 0 :: 1 :: nal :: rest => startsSequence codec nal || detectKeyframe codec rest
  | _ :: rest => detectKeyframe codec rest
  | [] => false

variable (config : StreamConfig)

def isKeyframe (k : Packet) : Bool :=
  config.codec.isVideo && detectKeyframe config.codec k.data

def headerSize : ℕ := 38

/-- The header of a framed message after its size; the sequence number is its last field. -/
def headerFields (k : Packet) : List UInt8 :=
  (if config.codec = .h265 then 1 else 0) :: ((if isKeyframe config k then 1 else 0) ||| 2) ::
    (leBytes 8 k.timestamp ++ leBytes 4 config.width ++ leBytes 4 config.height ++
      leBytes 8 k.timestamp ++ leBytes 8 k.seq)

def framed (k : Packet) : List UInt8 :=
  leBytes 4 (headerSize + k.data.length) ++ headerFields config k ++ k.data

/-! ## Clients -/

structure Client where
  alive : Bool := true
  needsKeyframe : Bool := false
  received : List UInt8 := []
  deriving DecidableEq

/-- The result of one `send`, with that of the `poll` after `EAGAIN`. -/
inductive Send
  /-- Up to this many bytes, and one more. -/
  | accepted (n : ℕ)
  | interrupted
  | again (writable : Bool)
  | error

inductive SendOutcome
  | sent
  | skipAgain
  | skipWaitKeyframe
  | fail
  deriving DecidableEq

/-- The loop of `send_frame_nb` over the unsent rest: how it ends, and what reaches the client. -/
def sendRest (started : Bool) : List UInt8 → List Send → SendOutcome × List UInt8
  | [], _ => (.sent, [])
  | rest, .accepted n :: more =>
    let (outcome, bytes) := sendRest true (rest.drop (n + 1)) more
    (outcome, rest.take (n + 1) ++ bytes)
  | rest, .interrupted :: more => sendRest started rest more
  | rest, .again writable :: more =>
    if !started then (.skipAgain, [])
    else if writable then sendRest started rest more
    else (.fail, [])
  | _, .error :: _ => (.fail, [])
  | _, [] => (.fail, [])

/-- `send_frame_nb`. -/
def sendFrame (c : Client) (frame : List UInt8) (keyframe : Bool) (sends : List Send) :
    SendOutcome × List UInt8 :=
  if c.needsKeyframe && !keyframe then (.skipWaitKeyframe, []) else sendRest false frame sends

structure Turn where
  /-- `check_client_control` finds the peer there. -/
  present : Bool := true
  sends : List Send := []

/-- The iteration of `broadcast` for one client. -/
def Client.serve (video : Bool) (frame : List UInt8) (keyframe : Bool) (c : Client) (t : Turn) :
    Client :=
  if !c.alive then c
  else
    let c := if video then c else { c with needsKeyframe := false }
    if !t.present then { c with alive := false }
    else
      match sendFrame c frame keyframe t.sends with
      | (.sent, bytes) => { c with needsKeyframe := false, received := c.received ++ bytes }
      | (.fail, bytes) => { c with alive := false, received := c.received ++ bytes }
      | (_, bytes) => { c with needsKeyframe := true, received := c.received ++ bytes }

/-- The loop of `broadcast`. -/
def serveAll (serve : Client → Turn → Client) : List Client → List Turn → List Client
  | [], _ => []
  | c :: cs, turns => serve c (turns.headD {}) :: serveAll serve cs turns.tail

/-! ## The publisher -/

def maxQueueSize : ℕ := 120

def maxClientsPerStream : ℕ := 16

structure Publisher where
  nextSeq : String → ℕ := fun _ => 0
  packetsPublished : String → ℕ := fun _ => 0
  queueOverflowDrops : String → ℕ := fun _ => 0
  lastPacketSeq : String → ℕ := fun _ => 0
  clients : String → List Client := fun _ => []
  closed : String → List Client := fun _ => []
  queue : List Packet := []
  current : Option Packet := none
  dispatched : List Packet := []

variable (streams : Streams) (name : String)

namespace Publisher

variable (p : Publisher)

def evicted (data : List UInt8) : Option Packet :=
  if (streams name).isSome && data ≠ [] && maxQueueSize ≤ p.queue.length then p.queue.head?
  else none

def onPacket (timestamp : ℕ) (data : List UInt8) : Publisher :=
  if (streams name).isSome && data ≠ [] then
    let seq := p.nextSeq name + 1
    let queue := if maxQueueSize ≤ p.queue.length then p.queue.tail else p.queue
    let drops := if maxQueueSize ≤ p.queue.length then 1 else 0
    { p with
      nextSeq := Function.update p.nextSeq name seq
      queue := queue ++ [{ stream := name, seq := seq, timestamp := timestamp, data := data }]
      queueOverflowDrops :=
        Function.update p.queueOverflowDrops name (p.queueOverflowDrops name + drops)
      lastPacketSeq := Function.update p.lastPacketSeq name seq
      packetsPublished := Function.update p.packetsPublished name (p.packetsPublished name + 1) }
  else p

/-- The critical section of `dispatch_loop`. -/
def take : Option Publisher :=
  match p.current, p.queue with
  | none, k :: rest =>
    some { p with queue := rest, current := some k, dispatched := p.dispatched ++ [k] }
  | _, _ => none

/-- `reap_dead_clients_locked`, with the clients of the stream as they are after a loop. -/
def reap (clients : List Client) : Publisher :=
  { p with
    clients := Function.update p.clients name (clients.filter (·.alive))
    closed := Function.update p.closed name (p.closed name ++ clients.filter (!·.alive)) }

variable (turns : List Turn)

/-- The rest of an iteration of `dispatch_loop`. -/
def broadcast : Option Publisher :=
  match p.current with
  | none => none
  | some k =>
    match streams k.stream with
    | none => some { p with current := none }
    | some config =>
      let serve := Client.serve config.codec.isVideo (framed config k) (isKeyframe config k)
      some { p.reap k.stream (serveAll serve (p.clients k.stream) turns) with current := none }

def probe : Publisher :=
  p.reap name (serveAll (fun c t => { c with alive := c.alive && t.present }) (p.clients name) turns)

def accept : Publisher :=
  let p := p.probe name turns
  if maxClientsPerStream ≤ (p.clients name).length then p
  else { p with clients := Function.update p.clients name (p.clients name ++ [{}]) }

end Publisher

inductive Event
  | onPacket (name : String) (timestamp : ℕ) (data : List UInt8)
  | take
  | broadcast (turns : List Turn)
  | probe (name : String) (turns : List Turn)
  | accept (name : String) (turns : List Turn)

def step (p : Publisher) : Event → Option Publisher
  | .onPacket name timestamp data => some (p.onPacket streams name timestamp data)
  | .take => p.take
  | .broadcast turns => p.broadcast streams turns
  | .probe name turns => some (p.probe name turns)
  | .accept name turns => some (p.accept name turns)

namespace Publisher

variable {streams : Streams} {p p' : Publisher}

theorem take_cases (taken : p.take = some p') : ∃ k rest, p.current = none ∧ p.queue = k :: rest ∧
      p' = { p with queue := rest, current := some k, dispatched := p.dispatched ++ [k] } := by
  unfold take at taken
  split at taken
  · exact ⟨_, _, ‹_›, ‹_›, (Option.some.inj taken).symm⟩
  · cases taken

theorem broadcast_cases {turns : List Turn} (sent : p.broadcast streams turns = some p') :
    ∃ k, p.current = some k ∧
      (streams k.stream = none ∧ p' = { p with current := none } ∨
        ∃ config, streams k.stream = some config ∧
          p' = { p.reap k.stream (serveAll (Client.serve config.codec.isVideo (framed config k)
            (isKeyframe config k)) (p.clients k.stream) turns) with current := none }) := by
  unfold broadcast at sent
  split at sent
  · cases sent
  · rename_i k here
    refine ⟨k, here, ?_⟩
    split at sent
    · exact .inl ⟨‹_›, (Option.some.inj sent).symm⟩
    · exact .inr ⟨_, ‹_›, (Option.some.inj sent).symm⟩

end Publisher

/-! ## Accounting -/

def countOf (packets : List Packet) : ℕ := packets.countP (·.stream = name)

/-- The counters of a stream, in terms of its packets. -/
structure Accounted (p : Publisher) : Prop where
  published : ∀ name, p.packetsPublished name =
    countOf name p.dispatched + countOf name p.queue + p.queueOverflowDrops name
  numbered : ∀ name, p.lastPacketSeq name = p.packetsPublished name
  next : ∀ name, p.nextSeq name = p.packetsPublished name

/-- A packet that is dropped for a new one belongs to the same stream. -/
def DropsOwn (p : Publisher) : Event → Prop
  | .onPacket name _ data => ∀ k ∈ p.evicted streams name data, k.stream = name
  | _ => True

instance (streams : Streams) (p : Publisher) (e : Event) : Decidable (DropsOwn streams p e) := by
  cases e <;> unfold DropsOwn <;> infer_instance

namespace Accounted

variable {streams : Streams} {p p' : Publisher}

theorem countOf_left {name : String} {timestamp : ℕ} {data : List UInt8}
    (own : DropsOwn streams p (.onPacket name timestamp data))
    (accepted : ((streams name).isSome && data ≠ []) = true) (other : String) :
    countOf other (if maxQueueSize ≤ p.queue.length then p.queue.tail else p.queue) +
        (if other = name then (if maxQueueSize ≤ p.queue.length then 1 else 0) else 0) =
      countOf other p.queue := by
  by_cases full : maxQueueSize ≤ p.queue.length
  swap
  · simp [full]
  obtain ⟨k, rest, queued⟩ := List.exists_cons_of_length_pos
    (lt_of_lt_of_le (by decide : 0 < maxQueueSize) full)
  have same : k.stream = name := own k (by
    rw [Publisher.evicted, accepted, Bool.true_and, decide_eq_true full, if_pos rfl, queued]
    rfl)
  rw [if_pos full, if_pos full, queued, List.tail_cons, countOf, countOf, List.countP_cons, same]
  by_cases this : other = name
  · simp [this]
  · simpa [this] using Ne.symm this

theorem onPacket (accounted : Accounted p) {name : String} {timestamp : ℕ} {data : List UInt8}
    (own : DropsOwn streams p (.onPacket name timestamp data)) :
    Accounted (p.onPacket streams name timestamp data) := by
  unfold Publisher.onPacket
  by_cases accepted : ((streams name).isSome && data ≠ []) = true
  swap
  · rw [if_neg accepted]
    exact accounted
  rw [if_pos accepted]
  refine ⟨fun other => ?_, fun other => ?_, fun other => ?_⟩
  · have before := accounted.published other
    have left := countOf_left own accepted other
    dsimp only
    rw [countOf, countOf, List.countP_append, ← countOf, ← countOf, List.countP_singleton]
    by_cases this : other = name
    · subst this
      rw [if_pos rfl] at left
      simp only [Function.update_self, decide_true, if_true]
      omega
    · have ne : ¬ name = other := fun eq => this eq.symm
      rw [if_neg this] at left
      simp only [Function.update_of_ne this, ne, decide_false, Bool.false_eq_true, if_false]
      omega
  all_goals
    by_cases this : other = name
    · subst this
      simp [accounted.next]
    · simp [Function.update_of_ne this, accounted.numbered, accounted.next]

theorem step (accounted : Accounted p) {e : Event} (own : DropsOwn streams p e)
    (next : step streams p e = some p') : Accounted p' := by
  cases e with
  | onPacket name timestamp data =>
    obtain rfl := Option.some.inj next
    exact accounted.onPacket own
  | take =>
    obtain ⟨k, rest, -, queued, rfl⟩ := Publisher.take_cases next
    refine ⟨fun name => ?_, accounted.numbered, accounted.next⟩
    have before := accounted.published name
    simp only [queued, countOf, List.countP_cons, List.countP_append, List.countP_nil] at before ⊢
    omega
  | broadcast turns =>
    obtain ⟨k, -, ⟨-, rfl⟩ | ⟨config, -, rfl⟩⟩ := Publisher.broadcast_cases next
    all_goals exact ⟨accounted.published, accounted.numbered, accounted.next⟩
  | probe name turns =>
    obtain rfl := Option.some.inj next
    exact ⟨accounted.published, accounted.numbered, accounted.next⟩
  | accept name turns =>
    obtain rfl := Option.some.inj next
    unfold Publisher.accept
    dsimp only
    split_ifs
    all_goals exact ⟨accounted.published, accounted.numbered, accounted.next⟩

end Accounted

/-- What was published of a stream was dispatched, is queued or was dropped. -/
theorem packets_accounted {streams : Streams} {events : List Event} {p : Publisher}
    (along : Along (step streams) (DropsOwn streams) {} events)
    (run : events.foldlM (step streams) {} = some p) (name : String) :
    p.packetsPublished name =
        countOf name p.dispatched + countOf name p.queue + p.queueOverflowDrops name ∧
      p.lastPacketSeq name = p.packetsPublished name := by
  have accounted : Accounted p := foldlM_inv_along Accounted
    (fun _ _ _ inv own next => inv.step own next) ⟨by simp [countOf], by simp, by simp⟩ along run
  exact ⟨accounted.published name, accounted.numbered name⟩

def twoStreams : Streams
  | "main" => some { codec := .h264 }
  | "sub" => some { codec := .h264 }
  | _ => none

def overflow : List Event :=
  [.onPacket "main" 0 [1], .take] ++ List.replicate 121 (.onPacket "main" 0 [1])

theorem overflow_runs : (overflow.foldlM (step twoStreams) {}).isSome := by decide +kernel

theorem packets_accounted_overflow : ∃ p,
    overflow.foldlM (step twoStreams) {} = some p ∧ p.queueOverflowDrops "main" = 1 ∧
      (p.packetsPublished "main" = countOf "main" p.dispatched + countOf "main" p.queue +
          p.queueOverflowDrops "main" ∧
        p.lastPacketSeq "main" = p.packetsPublished "main") :=
  ⟨_, (Option.some_get overflow_runs).symm, by decide +kernel,
    packets_accounted (by decide +kernel) (Option.some_get overflow_runs).symm "main"⟩

/-- A packet that is dropped for one of another stream is counted there. -/
theorem drop_counted_elsewhere : ∃ p,
    (List.replicate 120 (Event.onPacket "main" 0 [1]) ++ [Event.onPacket "sub" 0 [1]]).foldlM
        (step twoStreams) {} = some p ∧
      p.packetsPublished "main" = 120 ∧ countOf "main" p.dispatched = 0 ∧
      countOf "main" p.queue = 119 ∧ p.queueOverflowDrops "main" = 0 ∧
      p.queueOverflowDrops "sub" = 1 :=
  ⟨_, (Option.some_get (by decide +kernel)).symm, by decide +kernel, by decide +kernel,
    by decide +kernel, by decide +kernel, by decide +kernel⟩

end NeoRuntime.CameraDaemon.Encoded
