import NeoRuntime.CameraDaemon.Rtsp.Packets
import NeoRuntime.Lib.Run

/-!
# Audio packets of the RTSP server

For a stream of 16-bit samples `RtspServer::on_packet` (platform/camera-daemon/src/rtsp_server.cpp)
puts the bytes of every sample into network order and sends a buffer in RTP packets of at most
`RTP_MTU` bytes.  The sample counter of a client is the timestamp of all of them and is advanced once
for the buffer.
-/

namespace NeoRuntime.CameraDaemon.Rtsp

/-- What `on_packet` reads and changes of a client for an audio stream. -/
structure AudioClient where
  streamName : String
  hasAudio : Bool := false
  playing : Bool := false
  alive : Bool := true
  rtpSeq : UInt16 := 0
  audioRtpSeq : UInt16 := 0
  rtpAudioSampleCount : UInt32 := 0

/-- `reply_setup` for a track of a stream. -/
def AudioClient.replySetup (c : AudioClient) (name : String) (trackId : ℕ) : AudioClient :=
  let c := { c with streamName := name, playing := false }
  if trackId = 0 then { c with rtpSeq := 0 }
  else if trackId = 1 then { c with hasAudio := true, audioRtpSeq := 0, rtpAudioSampleCount := 0 }
  else c

/-- Every sample from little to big endian; a single last byte stays 0. -/
def swapBytes : List UInt8 → List UInt8
  | low :: high :: rest => high :: low :: swapBytes rest
  | [_] => [0]
  | [] => []

def chunks (size : ℕ) : ℕ → List UInt8 → List (List UInt8)
  | 0, _ => []
  | n + 1, rest => if rest = [] then [] else rest.take size :: chunks size n (rest.drop size)

/-- `on_packet` for one client of an audio stream. -/
def onAudioPacket (name : String) (channels : ℕ) (c : AudioClient) (data : List UInt8) :
    AudioClient × List RtpPacket :=
  if data = [] ∨ c.playing = false ∨ c.alive = false ∨ (c.streamName ≠ name ∧ c.hasAudio = false) then
    (c, [])
  else
    let parts := chunks rtpMtu data.length (swapBytes data)
    let count := UInt16.ofNat parts.length
    let c' := { c with rtpAudioSampleCount :=
      c.rtpAudioSampleCount + UInt32.ofNat (data.length / (channels * 2)) }
    -- A client of the audio stream itself uses the sequence numbers of the first track.
    if c.streamName = name then
      ({ c' with rtpSeq := c.rtpSeq + count },
        sendRtpRaw c.rtpAudioSampleCount c.rtpSeq (mark true parts))
    else
      ({ c' with audioRtpSeq := c.audioRtpSeq + count },
        sendRtpRaw c.rtpAudioSampleCount c.audioRtpSeq (mark true parts))

/-! ## What the packets should be -/

/-- Every timestamp counts the sample frames of the packets before it, from a number on. -/
def Stamped (channels : ℕ) : UInt32 → List RtpPacket → Prop
  | _, [] => True
  | count, p :: later =>
    p.timestamp = count ∧
      Stamped channels (count + UInt32.ofNat (p.payload.length / (channels * 2))) later

/-- The packets carry the samples of the buffers, and count them from 0 on. -/
structure CarriesSamples (channels : ℕ) (buffers : List (List UInt8)) (sent : List RtpPacket) :
    Prop where
  whole : ∀ p ∈ sent, channels * 2 ∣ p.payload.length
  payloads_eq : (sent.map (·.payload)).flatten = buffers.flatMap swapBytes
  stamped : Stamped channels 0 sent

structure AudioClient.Listens (c : AudioClient) (name : String) : Prop where
  playing : c.playing = true
  alive : c.alive = true
  subscribed : c.streamName = name ∨ c.hasAudio = true

theorem AudioClient.listens_replySetup {c : AudioClient} (alive : c.alive = true) (name video : String) :
    ({ c.replySetup video 1 with playing := true } : AudioClient).Listens name ∧
      (c.replySetup video 1).rtpAudioSampleCount = 0 :=
  ⟨⟨rfl, alive, .inr rfl⟩, rfl⟩

/-! ## One buffer -/

theorem length_swapBytes : ∀ data : List UInt8, (swapBytes data).length = data.length
  | _ :: _ :: rest => by simp only [swapBytes, List.length_cons, length_swapBytes rest]
  | [_] => rfl
  | [] => rfl

theorem flatten_chunks {size : ℕ} (pos : 0 < size) {n : ℕ} {data : List UInt8}
    (enough : data.length ≤ n) : (chunks size n data).flatten = data := by
  induction n generalizing data with
  | zero => rw [List.length_eq_zero_iff.mp (Nat.le_zero.mp enough)]; rfl
  | succ n ih =>
    rw [chunks]
    split
    next empty => rw [empty]; rfl
    next some =>
      have inside := List.length_pos_iff.mpr some
      rw [List.flatten_cons, ih (by rw [List.length_drop]; omega), List.take_append_drop]

theorem chunks_dvd {k size : ℕ} (size_dvd : k ∣ size) {n : ℕ} {data : List UInt8}
    (whole : k ∣ data.length) : ∀ part ∈ chunks size n data, k ∣ part.length := by
  induction n generalizing data with
  | zero => simp [chunks]
  | succ n ih =>
    rw [chunks]
    split
    · simp
    · rw [List.forall_mem_cons]
      refine ⟨?_, ih ?_⟩
      · rw [List.length_take]
        obtain eq | eq := min_choice size data.length <;> rw [eq] <;> assumption
      · rw [List.length_drop]
        exact Nat.dvd_sub whole size_dvd

/-- The packets of one buffer have the same timestamp, so that only the first one can be right. -/
theorem stamped_buffer_iff {channels : ℕ} (layout : channels = 1 ∨ channels = 2) (count : UInt32)
    (seq : UInt16) (data : List UInt8) (later : List RtpPacket) :
    Stamped channels count
      (sendRtpRaw count seq (mark true (chunks rtpMtu data.length (swapBytes data))) ++ later) ↔
        data.length ≤ rtpMtu ∧
          Stamped channels (count + UInt32.ofNat (data.length / (channels * 2))) later := by
  have same := length_swapBytes data
  generalize swapBytes data = swapped at same ⊢
  rcases Nat.eq_zero_or_pos data.length with empty | some
  · have zero : count + UInt32.ofNat 0 = count := UInt32.add_zero count
    rw [empty, Nat.zero_div, zero]
    exact (and_iff_right (Nat.zero_le _)).symm
  obtain ⟨n, eq⟩ := Nat.exists_eq_add_one.mpr some
  have first : swapped ≠ [] := List.ne_nil_of_length_pos (same ▸ some)
  rw [eq, chunks, if_neg first, ← eq]
  by_cases short : data.length ≤ rtpMtu
  · have whole : swapped.take rtpMtu = swapped := List.take_of_length_le (same ▸ short)
    have rest : swapped.drop rtpMtu = [] := List.drop_eq_nil_iff.mpr (same ▸ short)
    have none : chunks rtpMtu n [] = [] := by cases n <;> rfl
    rw [whole, rest, none, and_iff_right short, ← same]
    exact and_iff_right rfl
  · refine iff_of_false (fun stamped => ?_) fun both => short both.1
    have long : rtpMtu < swapped.length := same ▸ Nat.not_le.mp short
    obtain ⟨m, rfl⟩ : ∃ m, n = m + 1 :=
      ⟨n - 1, by have : rtpMtu = 1400 := rfl; omega⟩
    have second : swapped.drop rtpMtu ≠ [] := by
      rw [ne_eq, List.drop_eq_nil_iff]
      exact Nat.not_le.mpr long
    rw [chunks, if_neg second] at stamped
    have late : count = count + UInt32.ofNat ((swapped.take rtpMtu).length / (channels * 2)) :=
      stamped.2.1
    rw [List.length_take, min_eq_left long.le] at late
    obtain rfl | rfl := layout <;> exact absurd (UInt32.add_eq_left.mp late.symm) (by decide)

/-! ## A stream -/

section

variable {channels : ℕ} {name : String} {c : AudioClient}

theorem onAudioPacket_listens (listens : c.Listens name) (channels : ℕ) (data : List UInt8) :
    ∃ c' seq, onAudioPacket name channels c data =
        (c', sendRtpRaw c.rtpAudioSampleCount seq
          (mark true (chunks rtpMtu data.length (swapBytes data)))) ∧
      c'.Listens name ∧ c'.rtpAudioSampleCount =
        c.rtpAudioSampleCount + UInt32.ofNat (data.length / (channels * 2)) := by
  unfold onAudioPacket
  split
  next skipped =>
    have empty : data = [] := by
      refine skipped.resolve_right fun deaf => ?_
      obtain idle | dead | other := deaf
      · exact absurd (listens.playing.symm.trans idle) (by decide)
      · exact absurd (listens.alive.symm.trans dead) (by decide)
      · obtain named | audio := listens.subscribed
        · exact other.1 named
        · exact absurd (audio.symm.trans other.2) (by decide)
    subst empty
    refine ⟨c, 0, rfl, listens, ?_⟩
    rw [List.length_nil, Nat.zero_div]
    exact (UInt32.add_zero _).symm
  · dsimp only
    split
    · exact ⟨_, _, rfl, ⟨listens.playing, listens.alive, listens.subscribed⟩, rfl⟩
    · exact ⟨_, _, rfl, ⟨listens.playing, listens.alive, listens.subscribed⟩, rfl⟩

theorem sent_carries (layout : channels = 1 ∨ channels = 2) (listens : c.Listens name)
    {buffers : List (List UInt8)} (whole : ∀ b ∈ buffers, channels * 2 ∣ b.length) :
    let sent := (runLog (onAudioPacket name channels) c buffers).2
    (∀ p ∈ sent, channels * 2 ∣ p.payload.length) ∧
      (sent.map (·.payload)).flatten = buffers.flatMap swapBytes ∧
      (Stamped channels c.rtpAudioSampleCount sent ↔ ∀ b ∈ buffers, b.length ≤ rtpMtu) := by
  induction buffers generalizing c with
  | nil =>
    exact ⟨by simp, rfl, iff_of_true trivial (by simp)⟩
  | cons data buffers ih =>
    obtain ⟨here, others⟩ := List.forall_mem_cons.mp whole
    obtain ⟨c', seq, eq, listens', count⟩ := onAudioPacket_listens listens channels data
    obtain ⟨dvd, flat, stamped⟩ := ih listens' others
    have mtu : channels * 2 ∣ rtpMtu := by obtain rfl | rfl := layout <;> decide
    have payload := sendRtpRaw_payload c.rtpAudioSampleCount seq
      (mark true (chunks rtpMtu data.length (swapBytes data)))
    rw [mark_snd] at payload
    dsimp only
    rw [runLog_cons, eq]
    refine ⟨?_, ?_, ?_⟩
    · rw [List.forall_mem_append]
      refine ⟨fun p mem => ?_, dvd⟩
      exact chunks_dvd mtu (by rwa [length_swapBytes]) _ (payload ▸ List.mem_map_of_mem mem)
    · rw [List.map_append, List.flatten_append, payload, flat,
        flatten_chunks (by decide) (length_swapBytes data).le]
      rfl
    · rw [stamped_buffer_iff layout, ← count, stamped, List.forall_mem_cons]

end

/-- The packets carry all sample frames; each is stamped with the number of those before it exactly
if no buffer needs more than one packet. -/
theorem timestamps_count_iff {channels : ℕ} (layout : channels = 1 ∨ channels = 2) {name : String}
    {c : AudioClient} (listens : c.Listens name) (start : c.rtpAudioSampleCount = 0)
    {buffers : List (List UInt8)} (whole : ∀ b ∈ buffers, channels * 2 ∣ b.length) :
    CarriesSamples channels buffers (runLog (onAudioPacket name channels) c buffers).2 ↔
      ∀ b ∈ buffers, b.length ≤ rtpMtu := by
  obtain ⟨dvd, flat, stamped⟩ := sent_carries layout listens whole
  rw [start] at stamped
  exact ⟨fun carries => stamped.mp carries.stamped, fun small => ⟨dvd, flat, stamped.mpr small⟩⟩

def sampleListener : AudioClient :=
  { ({ streamName := "" } : AudioClient).replySetup "main" 1 with playing := true }

theorem timestamps_count_sample : CarriesSamples 1 [[1, 2, 3, 4], [5, 6]]
      (runLog (onAudioPacket "audio" 1) sampleListener [[1, 2, 3, 4], [5, 6]]).2 :=
  (timestamps_count_iff (.inl rfl) (AudioClient.listens_replySetup rfl _ _).1 rfl (by decide)).mpr (by decide)

/-- A buffer of 701 samples is sent in two packets with the same timestamp. -/
theorem long_buffer_stamped_twice :
    ((runLog (onAudioPacket "audio" 1) sampleListener [List.replicate 1402 0]).2.map
      fun p => (p.timestamp, p.payload.length)) = [(0, 1400), (0, 2)] := by
  decide +kernel

end NeoRuntime.CameraDaemon.Rtsp
