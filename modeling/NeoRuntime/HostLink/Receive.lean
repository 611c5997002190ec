import NeoRuntime.HostLink.Refinement
import NeoRuntime.HostLink.Resync

/-!
# What the host link receives

The three properties of the receiver: it gets every frame that `send_wire` encodes, in any split
into chunks (`hostLinkRun_sendWire`); it accepts only segments of the stream that are frames
(`hostLinkRun_accepts_frames`); and after any garbage it finds back to the frames of a good stream
within 526 bytes (`hostLinkRun_resync`).
-/

namespace NeoRuntime.HostLink

/-! ## Messages -/

structure Message where
  frameId : UInt16
  type : FrameType
  cmd : UInt16
  payload : List UInt8
  le_max : payload.length ≤ hostLinkCfgMaxPayload

variable (ms : List Message)

namespace Message

variable (m : Message)

def header : HostLinkHeader :=
  (sendWire (newHeader m.frameId m.type m.cmd m.payload) m.payload).1

def wire : List UInt8 :=
  (sendWire (newHeader m.frameId m.type m.cmd m.payload) m.payload).2

def frame : HostLinkFrame := ⟨m.header, m.payload, hostLinkCrc16 m.payload⟩

theorem wire_frame : m.frame.wire = m.wire := rfl

theorem len_header : m.header.len.toNat = m.payload.length := by
  change (UInt16.ofNat m.payload.length).toNat = m.payload.length
  have := m.le_max
  rw [hostLinkCfgMaxPayload] at this
  rw [UInt16.toNat_ofNat']
  omega

theorem wire_sync : [0x48, 0x4C] <+: m.wire := by
  have magic : le16 m.header.magic = [0x48, 0x4C] := by
    change le16 hostLinkMagic = _
    decide
  rw [← wire_frame, HostLinkFrame.wire, frame, HostLinkHeader.toBytes, HostLinkHeader.body, magic]
  simp

theorem checked_frame : Framer.Checked m.frame where
  length_payload := m.len_header.symm
  le_max := m.len_header.le.trans m.le_max
  sync := m.wire_sync
  crc := rfl

theorem length_wire : m.wire.length = m.payload.length + 16 := m.frame.length_wire

theorem flatMap_wire : (ms.map frame).flatMap HostLinkFrame.wire = ms.flatMap wire := by
  rw [List.flatMap_map]
  rfl

end Message

def Parser.Idle (p : Parser) : Prop := p.parseState = .sync0 ∧ p.pendPayload = none

theorem collects_nil_iff (p : Parser) : Collects p [] ↔ p.Idle := by
  constructor
  · intro collects
    generalize held : [] = l at collects
    cases collects with
    | sync0 state pending => exact ⟨state, pending⟩
    | sync1 => cases held
    | hdr _ two lt =>
      have := congrArg List.length held
      simp only [List.length_nil, List.length_take, Vector.length_toList] at this
      omega
    | payload =>
      have := congrArg List.length held
      simp only [List.length_nil, List.length_append, HostLinkHeader.length_toBytes,
        hostLinkHeaderWireLen] at this
      omega
  · rintro ⟨state, pending⟩
    exact .sync0 state pending

/-! ## Round trip -/

theorem Framer.run_messages {inputs : List (UInt8 × Bool)}
    (stream : inputs.map Prod.fst = ms.flatMap Message.wire)
    (memory : ∀ i ∈ inputs, i.2 = true) : Framer.run [] inputs = ([], ms.map Message.frame) := by
  induction ms generalizing inputs with
  | nil =>
    obtain rfl := List.map_eq_nil_iff.1 stream
    rfl
  | cons m ms ih =>
    rw [List.flatMap_cons] at stream
    obtain ⟨first, rest, rfl, wire, stream'⟩ := List.map_eq_append_iff.1 stream
    have here := Framer.run_frame m.checked_frame (.inl rfl) wire fun i mem =>
      memory i (List.mem_append_left _ mem)
    have there := ih stream' fun i mem => memory i (List.mem_append_right _ mem)
    rw [Framer.run] at here there ⊢
    rw [runLog_append, here, there]
    rfl

def sampleMessage : Message := ⟨7, .event, 0x40, [], by decide⟩

variable (bytes : List UInt8)

def sampleChunk : Input := .feed (bytes.map fun b => (b, ⟨true, 0⟩))

theorem streamOf_sampleChunk : streamOf [sampleChunk bytes] = bytes := by
  simp [streamOf, sampleChunk, Function.comp_def]

theorem sampleChunk_hasMemory : (sampleChunk bytes).HasMemory := by
  simp [sampleChunk, Input.HasMemory]

/-- The bytes are a frame in every respect, and the frame is the one they hold. -/
structure Genuine (seg : List UInt8) (f : HostLinkFrame) : Prop where
  length : seg.length = 14 + f.header.len.toNat + 2
  sync : [0x48, 0x4C] <+: seg
  header : f.header = HostLinkHeader.ofBytes (seg.take 14)
  version : f.header.version = 1
  type : f.header.type.toNat ≤ 3
  len : f.header.len.toNat ≤ 512
  hdrCrc : hostLinkCrc16 (seg.take 12) = f.header.hdrCrc
  payload : f.payload = (seg.drop 14).take f.header.len.toNat
  payloadCrc : hostLinkCrc16 f.payload = readLe16 (seg.drop (14 + f.header.len.toNat))

theorem FrameType.toNat_le_of_ofByte? {b : UInt8} (known : (FrameType.ofByte? b).isSome) :
    b.toNat ≤ 3 := by
  rw [FrameType.ofByte?] at known
  split_ifs at known with h₀ h₁ h₂ h₃
  · simp [h₀]
  · simp [h₁]
  · simp [h₂]
  · simp [h₃]
  · cases known

theorem genuine_wire {f : HostLinkFrame} (checked : Framer.Checked f) (accepted : Accepted f)
    (known : (FrameType.ofByte? f.header.type).isSome) : Genuine f.wire f := by
  have same := frameOf_wire checked.toSized
  have len := lenOf_wire f
  refine ⟨?_, checked.sync, (headerOf_wire f).symm, accepted.version,
    FrameType.toNat_le_of_ofByte? known, checked.le_max, ?_, ?_, ?_⟩
  · rw [f.length_wire, checked.length_payload]
    omega
  · have crc := accepted.hdrCrc
    rw [hdrCrcOk] at crc
    have body : f.wire.take 12 = f.header.toBytes.take hostLinkHdrCrcLen := by
      rw [HostLinkFrame.wire, List.append_assoc, List.take_append_of_le_length (by
        rw [HostLinkHeader.length_toBytes, hostLinkHeaderWireLen]
        omega)]
      rfl
    rw [body]
    by_contra ne
    rw [if_neg ne] at crc
    cases crc
  · have := congrArg HostLinkFrame.payload same
    rw [← this, frameOf, len]
    rfl
  · have := congrArg HostLinkFrame.payloadCrc same
    rw [checked.crc, ← this, frameOf, len]
    rfl

/-- Bytes of the parser's buffers are written only inside them. -/
def Parser.InBounds (p : Parser) : Prop :=
  (p.parseState = .hdr → p.parseGot < p.hdrRaw.toList.length) ∧
    (p.parseState = .payload → ∃ buf, p.pendPayload = some buf ∧ p.parseGot < buf.length)

theorem Collects.inBounds {p : Parser} {held : List UInt8} (collects : Collects p held) :
    p.InBounds := by
  cases collects with
  | sync0 state | sync1 state => exact ⟨by simp [state], by simp [state]⟩
  | hdr state two lt => exact ⟨fun _ => by simpa using lt, by simp [state]⟩
  | payload state pending lt room => exact ⟨by simp [state], fun _ => ⟨_, pending, by omega⟩⟩

/-- Accepted frames are frames of the stream, disjoint and in order; refused ones have no effect;
and the buffers are never overrun. -/
theorem hostLinkRun_accepts_frames (inputs : List Input) : (∃ segs, Picks segs (streamOf inputs) ∧
      List.Forall₂ Genuine segs
        (((hostLinkRun hostLinkInit inputs).2.filter fun d => d.err = .ok).map Dealt.frame)) ∧
      (∀ d ∈ (hostLinkRun hostLinkInit inputs).2,
        Effect d.found d.frame (d.err, d.left, d.calls)) ∧
      (hostLinkRun hostLinkInit inputs).1.InBounds := by
  obtain ⟨collects, frames, logged⟩ := hostLinkRun_refines collects_init inputs
  have start : Framer.Accounts [] [] [] := ⟨.nothing, ⟨[], rfl, .none _⟩, by simp⟩
  have acc := Framer.run_accounts start (taken hostLinkInit.ready inputs)
  rw [← frames] at acc
  generalize (hostLinkRun hostLinkInit inputs).2 = log at acc logged ⊢
  refine ⟨?_, fun d mem => ?_, collects.inBounds⟩
  · have sub : ((log.filter fun d => d.err = .ok).map Dealt.frame).Sublist
        ([] ++ log.map Dealt.frame) := List.filter_sublist.map _
    obtain ⟨past, split, picks⟩ := acc.picks
    obtain ⟨rest, whole⟩ := taken_prefix hostLinkInit.ready inputs
    refine ⟨((log.filter fun d => d.err = .ok).map Dealt.frame).map HostLinkFrame.wire, ?_, ?_⟩
    · rw [← whole, ← List.nil_append (List.map Prod.fst _), split, List.append_assoc]
      exact (picks.sublist (sub.map _)).append_gap _
    · rw [List.forall₂_map_left_iff, List.forall₂_same]
      intro f mem
      obtain ⟨d, mem', rfl⟩ := List.mem_map.1 mem
      obtain ⟨inLog, ok⟩ := List.mem_filter.1 mem'
      obtain ⟨tickMs, call⟩ := logged d inLog
      have passed := dealOneFrame_ok (congrArg Prod.fst call |>.trans (by simpa using ok))
      exact genuine_wire (acc.checked _ (sub.subset mem)) passed.1 passed.2
  · obtain ⟨tickMs, call⟩ := logged d mem
    exact call ▸ dealOneFrame_effect tickMs d.found d.frame

/-! ## Resynchronisation -/

/-- The sync bytes stand next to each other only where a frame of the stream starts. -/
def SyncOnlyAtStarts : Prop :=
  ∀ i, (ms.flatMap Message.wire)[i]? = some 0x48 → (ms.flatMap Message.wire)[i + 1]? = some 0x4C →
    ∃ pre post, ms = pre ++ post ∧ post ≠ [] ∧ i = (pre.flatMap Message.wire).length

theorem SyncOnlyAtStarts.clean {ms : List Message} (only : SyncOnlyAtStarts ms) :
    ∀ m ∈ ms, ¬ Framer.syncPair <:+: m.wire.tail := by
  rintro m mem ⟨front, back, found⟩
  obtain ⟨before, after, rfl⟩ := List.append_of_mem mem
  obtain ⟨rest, sync⟩ := m.wire_sync
  have body : m.wire = 0x48 :: (front ++ Framer.syncPair ++ back) := by
    rw [found, ← sync]
    rfl
  have size : m.wire.length = front.length + 3 + back.length := by
    simp [body, Framer.syncPair]
    omega
  have shape : (before ++ m :: after).flatMap Message.wire =
      (before.flatMap Message.wire ++ 0x48 :: front) ++
        0x48 :: 0x4C :: (back ++ after.flatMap Message.wire) := by
    simp [body, Framer.syncPair]
  obtain ⟨pre, post, split, -, at_start⟩ :=
    only (before.flatMap Message.wire ++ 0x48 :: front).length (by simp [shape]) (by
      rw [shape, List.getElem?_append_right (Nat.le_add_right _ 1), Nat.add_sub_cancel_left]
      rfl)
  rw [List.length_append, List.length_cons] at at_start
  -- the pair lies strictly between the start of this frame and the start of the next
  rcases List.append_eq_append_iff.1 split with ⟨inner, rfl, later⟩ | ⟨inner, rfl, -⟩
  · cases inner with
    | nil => simp at at_start
    | cons g inner =>
      obtain ⟨rfl, -⟩ := List.cons_eq_cons.1 later
      simp only [List.flatMap_append, List.flatMap_cons, List.length_append, size] at at_start
      omega
  · simp only [List.flatMap_append, List.length_append] at at_start
    omega

theorem infix_of_getElem? {α : Type} {l : List α} {i : ℕ} {a b : α} (first : l[i]? = some a)
    (second : l[i + 1]? = some b) : [a, b] <:+: l := by
  obtain ⟨lt, rfl⟩ := List.getElem?_eq_some_iff.1 first
  obtain ⟨lt', rfl⟩ := List.getElem?_eq_some_iff.1 second
  refine ⟨l.take i, l.drop (i + 2), ?_⟩
  rw [List.append_assoc, List.cons_append, List.singleton_append, ← List.drop_eq_getElem_cons lt',
    ← List.drop_eq_getElem_cons lt, List.take_append_drop]

theorem syncOnlyAtStarts_iff :
    SyncOnlyAtStarts ms ↔ ∀ m ∈ ms, ¬ Framer.syncPair <:+: m.wire.tail := by
  refine ⟨SyncOnlyAtStarts.clean, fun clean => ?_⟩
  induction ms with
  | nil => exact fun i first => by simp at first
  | cons m ms ih =>
    intro i first second
    have size := m.length_wire
    rw [List.flatMap_cons] at first second
    rcases Nat.lt_trichotomy (i + 1) m.wire.length with inside | border | beyond
    · rw [List.getElem?_append_left (by omega)] at first
      rw [List.getElem?_append_left inside] at second
      cases i with
      | zero => exact ⟨[], m :: ms, rfl, by simp, rfl⟩
      | succ i =>
        refine absurd (infix_of_getElem? (i := i) ?_ ?_) (clean m (by simp))
        · rwa [List.getElem?_tail]
        · rwa [List.getElem?_tail]
    · -- the next frame does not begin with the second sync byte
      rw [List.getElem?_append_right border.ge, border, Nat.sub_self] at second
      cases ms with
      | nil => simp at second
      | cons g ms =>
        obtain ⟨rest, sync⟩ := g.wire_sync
        simp [← sync] at second
    · rw [List.getElem?_append_right (by omega)] at first second
      rw [Nat.sub_add_comm (by omega)] at second
      obtain ⟨pre, post, rfl, more, start⟩ := ih (fun g mem => clean g (by simp [mem])) _ first second
      refine ⟨m :: pre, post, rfl, more, ?_⟩
      rw [List.flatMap_cons, List.length_append]
      omega

/-- After any garbage, every frame of a good stream from offset 527 on is dealt with. -/
theorem hostLinkRun_resync (garbage good last : List Input) (pre post : List Message) (m : Message)
    (only : SyncOnlyAtStarts (pre ++ m :: post))
    (stream : streamOf good = pre.flatMap Message.wire) (stream' : streamOf last = m.wire)
    (far : 527 ≤ (pre.flatMap Message.wire).length)
    (keeps : ∀ i ∈ garbage ++ good ++ last, i.KeepsReady) (memory : ∀ i ∈ last, i.HasMemory) :
    (hostLinkRun (hostLinkRun hostLinkInit (garbage ++ good)).1 last).2.map Dealt.frame =
        [m.frame] ∧
      (hostLinkRun (hostLinkRun hostLinkInit (garbage ++ good)).1 last).1.parseState = .sync0 := by
  have keepsGarbage : ∀ i ∈ garbage, i.KeepsReady := fun i mem => keeps i (by simp [mem])
  have keepsGood : ∀ i ∈ good, i.KeepsReady := fun i mem => keeps i (by simp [mem])
  have keepsLast : ∀ i ∈ last, i.KeepsReady := fun i mem => keeps i (by simp [mem])
  -- the framer's runs over the three parts of the stream
  obtain ⟨collects₁, -, -⟩ := hostLinkRun_refines collects_init garbage
  have ready₁ := hostLinkRun_ready collects_init rfl keepsGarbage
  obtain ⟨collects₂, -, -⟩ := hostLinkRun_refines collects₁ good
  have ready₂ := hostLinkRun_ready collects₁ ready₁ keepsGood
  obtain ⟨collects₃, frames, -⟩ := hostLinkRun_refines collects₂ last
  have split : (hostLinkRun hostLinkInit (garbage ++ good)).1 =
      (hostLinkRun (hostLinkRun hostLinkInit garbage).1 good).1 := by
    rw [hostLinkRun, runLog_append]
  have clean := only.clean
  have found : Framer.run (Framer.run (Framer.run [] (taken true garbage)).1 (taken true good)).1
      (taken true last) = ([], [m.frame]) := by
    refine Framer.run_resync (pre.map Message.frame) ?_ ?_ ?_ m.checked_frame
      (Framer.run_held .nothing _) ?_ ?_ (taken_memory keepsLast memory)
    · simp only [List.mem_map]
      rintro _ ⟨g, -, rfl⟩
      exact g.checked_frame
    · simp only [List.mem_map]
      rintro _ ⟨g, mem, rfl⟩
      exact clean g (List.mem_append_left _ mem)
    · rw [Message.flatMap_wire]
      omega
    · rw [taken_stream keepsGood, stream, Message.flatMap_wire]
    · rw [taken_stream keepsLast, stream', Message.wire_frame]
  rw [ready₁, ready₂, show hostLinkInit.ready = true from rfl, found] at collects₃ frames
  rw [split]
  exact ⟨frames, ((collects_nil_iff _).1 collects₃).1⟩

theorem sampleMessage_clean : ¬ Framer.syncPair <:+: sampleMessage.wire.tail := by decide +kernel

theorem syncOnlyAtStarts_sample (n : ℕ) :
    SyncOnlyAtStarts (List.replicate n sampleMessage ++ [sampleMessage]) := by
  rw [syncOnlyAtStarts_iff]
  intro m mem
  obtain rfl : m = sampleMessage := by
    rcases List.mem_append.1 mem with copy | last
    · exact List.eq_of_mem_replicate copy
    · exact List.mem_singleton.1 last
  exact sampleMessage_clean

/-- Two sync bytes of garbage, 33 frames, and the frame that is found. -/
theorem hostLinkRun_resync_sample :
    (hostLinkRun (hostLinkRun hostLinkInit ([sampleChunk [0x48, 0x4C]] ++
        [sampleChunk ((List.replicate 33 sampleMessage).flatMap Message.wire)])).1
        [sampleChunk sampleMessage.wire]).2.map Dealt.frame = [sampleMessage.frame] ∧
      (hostLinkRun (hostLinkRun hostLinkInit ([sampleChunk [0x48, 0x4C]] ++
        [sampleChunk ((List.replicate 33 sampleMessage).flatMap Message.wire)])).1
        [sampleChunk sampleMessage.wire]).1.parseState = .sync0 :=
  hostLinkRun_resync _ _ _ (List.replicate 33 sampleMessage) [] sampleMessage
    (syncOnlyAtStarts_sample 33) (streamOf_sampleChunk _) (streamOf_sampleChunk _)
    (by simp [sampleMessage, Message.length_wire])
    (by simp [sampleChunk, Input.KeepsReady]) (by simp [sampleChunk_hasMemory])

def starvedChunk : Input := .feed (bytes.map fun b => (b, ⟨false, 0⟩))

/-- Without memory for its payload buffer a frame far behind the garbage is not dealt with. -/
theorem hostLinkRun_resync_without_memory :
    SyncOnlyAtStarts (List.replicate 33 sampleMessage ++ [sampleMessage]) ∧
      527 ≤ ((List.replicate 33 sampleMessage).flatMap Message.wire).length ∧
      streamOf [starvedChunk sampleMessage.wire] = sampleMessage.wire ∧
      (hostLinkRun (hostLinkRun hostLinkInit
        [sampleChunk ((List.replicate 33 sampleMessage).flatMap Message.wire)]).1
        [starvedChunk sampleMessage.wire]).2 = [] := by
  refine ⟨syncOnlyAtStarts_sample 33, by simp [sampleMessage, Message.length_wire],
    by simp [streamOf, starvedChunk, Function.comp_def], ?_⟩
  generalize whole : [sampleChunk ((List.replicate 33 sampleMessage).flatMap Message.wire)] = good
  have keeps : ∀ i ∈ good, i.KeepsReady := by simp [← whole, sampleChunk, Input.KeepsReady]
  have memory : ∀ i ∈ good, i.HasMemory := by simp [← whole, sampleChunk_hasMemory]
  have stream : streamOf good = (List.replicate 33 sampleMessage).flatMap Message.wire := by
    rw [← whole, streamOf_sampleChunk]
  -- the parser is idle after the good frames, so that the framer starts afresh
  obtain ⟨collects, -, -⟩ := hostLinkRun_refines collects_init good
  rw [show hostLinkInit.ready = true from rfl, Framer.run_messages _
    ((taken_stream keeps).trans stream) (taken_memory keeps memory)] at collects
  obtain ⟨-, frames, -⟩ := hostLinkRun_refines collects [starvedChunk sampleMessage.wire]
  rw [hostLinkRun_ready collects_init rfl keeps] at frames
  have nothing : (Framer.run [] (taken true [starvedChunk sampleMessage.wire])).2 = [] := by
    decide +kernel
  exact List.map_eq_nil_iff.1 (frames.trans nothing)

end NeoRuntime.HostLink
