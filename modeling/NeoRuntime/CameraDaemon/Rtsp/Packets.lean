import Mathlib.Algebra.Group.Nat.Defs
import Mathlib.Data.List.GetD
import NeoRuntime.Lib.AnnexB

/-!
# RTP packets of the RTSP server

`RtspServer::on_packet` (platform/camera-daemon/src/rtsp_server.cpp) splits an access unit at its
start codes and sends every NAL unit in one RTP packet if it fits, and otherwise in fragments.
H.264 and H.265 differ in the headers (`Format`).  A receiver puts the units together again
(`reassemble`).
-/

namespace NeoRuntime.CameraDaemon.Rtsp

open AnnexB

/-! ## Splitting -/

/-- The offsets behind the start codes; the first argument counts bytes to be passed over. -/
def offsets : ℕ → ℕ → List UInt8 → List ℕ
  | _, _, [] => []
  | k + 1, i, _ :: bs => offsets k (i + 1) bs
  | 0, i, b :: bs =>
    match codeLength (b :: bs) with
    | 0 => offsets 0 (i + 1) bs
    | n + 1 => (i + n + 1) :: offsets n (i + 1) bs

def splitNals (data : List UInt8) : List (List UInt8) :=
  if data.length < 4 then [] else (cut data (offsets 0 0 data)).filter (· ≠ [])

theorem offsets_skip (k i : ℕ) (xs rest : List UInt8) (length : xs.length = k) :
    offsets k i (xs ++ rest) = offsets 0 (i + k) rest := by
  induction k generalizing i xs with
  | zero =>
    obtain rfl := List.length_eq_zero_iff.mp length
    rfl
  | succ k ih =>
    obtain ⟨x, xs, rfl⟩ := List.exists_cons_of_length_eq_add_one length
    rw [List.cons_append, offsets, ih (i + 1) xs (by simpa using length)]
    congr 1
    omega

theorem offsets_tight {unit rest : List UInt8} (tight : Tight unit rest) (i : ℕ) :
    offsets 0 i (unit ++ rest) = offsets 0 (i + unit.length) rest := by
  induction unit generalizing i with
  | nil => rfl
  | cons b bs ih =>
    obtain ⟨none, inside⟩ := tight
    rw [List.cons_append] at none ⊢
    rw [offsets, none]
    dsimp only
    rw [ih inside, List.length_cons]
    congr 1
    omega

theorem offsets_stream {units : List (Bool × List UInt8)} (tight : AllTight units) (i : ℕ) :
    offsets 0 i (stream units) = positions i units := by
  induction units generalizing i with
  | nil => rfl
  | cons u us ih =>
    obtain ⟨first, others⟩ := tight
    have found := codeLength_code u.1 (u.2 ++ stream us)
    obtain ⟨c, cs, eq⟩ : ∃ c cs, code u.1 = c :: cs := by cases u.1 <;> exact ⟨_, _, rfl⟩
    rw [eq, List.cons_append] at found
    rw [stream_cons, List.append_assoc, eq, List.cons_append, offsets, found, List.length_cons]
    dsimp only
    rw [offsets_skip _ _ _ _ rfl, offsets_tight first, ih others, positions, eq, List.length_cons]
    congr 1
    congr 1
    omega

theorem splitNals_eq (before : List UInt8) {units : List (Bool × List UInt8)}
    (first : Tight before (stream units)) (tight : AllTight units) :
    splitNals (before ++ stream units) = (units.map Prod.snd).filter (· ≠ []) := by
  have all := cut_stream tight before
  have three (long : Bool) : 3 ≤ (code long).length := by cases long <;> decide
  rw [splitNals]
  split_ifs with few
  -- there is room for one code and nothing behind it
  · obtain _ | ⟨u, _ | ⟨v, vs⟩⟩ := units
    · rfl
    · have := three u.1
      simp only [stream_cons, List.length_append] at few
      have empty : u.2 = [] := List.length_eq_zero_iff.1 (by omega)
      simp [empty]
    · have := three u.1
      have := three v.1
      simp only [stream_cons, List.length_append] at few
      omega
  · rw [offsets_tight first, offsets_stream tight, Nat.zero_add, all]

theorem splitNals_stream {units : List (Bool × List UInt8)} (clean : ∀ u ∈ units, Clean u.2) :
    splitNals (stream units) = units.map Prod.snd := by
  have all := splitNals_eq [] trivial (allTight_of_clean clean)
  rw [List.nil_append] at all
  rw [all, List.filter_eq_self]
  rintro nal mem
  obtain ⟨u, inside, rfl⟩ := List.mem_map.mp mem
  simpa using (clean u inside).nonempty

/-! ## Packetisation -/

def rtpMtu : ℕ := 1400

/-- How a codec is carried in fragments. -/
structure Format where
  head : ℕ
  /-- What stands before the FU header. -/
  indicator : List UInt8 → List UInt8
  type : List UInt8 → UInt8
  isFragment : List UInt8 → Bool
  /-- The header of the NAL unit, from a payload of one of its fragments. -/
  rebuild : List UInt8 → List UInt8

/-- RFC 6184: FU-A. -/
def h264 : Format where
  head := 1
  indicator nal := [(nal.getD 0 0 &&& 0xE0) ||| 28]
  type nal := nal.getD 0 0 &&& 0x1F
  isFragment payload := payload.getD 0 0 &&& 0x1F = 28
  rebuild payload := [(payload.getD 0 0 &&& 0xE0) ||| (payload.getD 1 0 &&& 0x1F)]

/-- RFC 7798: FU. -/
def h265 : Format where
  head := 2
  -- 98 is the type 49 in its place
  indicator nal := [(nal.getD 0 0 &&& 0x81) ||| 98, nal.getD 1 0]
  type nal := (nal.getD 0 0 >>> (1 : UInt8)) &&& 0x3F
  isFragment payload := (payload.getD 0 0 >>> (1 : UInt8)) &&& 0x3F = 49
  rebuild payload :=
    [(payload.getD 0 0 &&& 0x81) ||| ((payload.getD 2 0 &&& 0x3F) <<< (1 : UInt8)), payload.getD 1 0]

def fuHeader (type : UInt8) (first last : Bool) : UInt8 :=
  type ||| (if first then 0x80 else 0) ||| (if last then 0x40 else 0)

/-- The loop over the fragments, with at most as many rounds as the second argument. -/
def fragments (indicator : List UInt8) (type : UInt8) (size : ℕ) :
    ℕ → Bool → List UInt8 → List (List UInt8)
  | 0, _, _ => []
  | n + 1, first, rest =>
    if rest = [] then []
    else
      (indicator ++ fuHeader type first (rest.length ≤ size) :: rest.take size) ::
        fragments indicator type size n false (rest.drop size)

def payloads (f : Format) (nal : List UInt8) : List (List UInt8) :=
  if nal.length < f.head then []
  else if nal.length ≤ rtpMtu then [nal]
  else fragments (f.indicator nal) (f.type nal) (rtpMtu - f.head - 1) nal.length true (nal.drop f.head)

def sendRtpH264 := payloads h264

def sendRtpH265 := payloads h265

structure RtpPacket where
  marker : Bool
  seq : UInt16
  timestamp : UInt32
  payload : List UInt8
  deriving DecidableEq

def mark (marker : Bool) : List (List UInt8) → List (Bool × List UInt8)
  | [] => []
  | p :: ps => (ps = [] && marker, p) :: mark marker ps

def markAll (f : Format) : List (List UInt8) → List (Bool × List UInt8)
  | [] => []
  | nal :: nals => mark (nals = []) (payloads f nal) ++ markAll f nals

/-- `send_rtp_raw` for one payload after the other. -/
def sendRtpRaw (timestamp : UInt32) : UInt16 → List (Bool × List UInt8) → List RtpPacket
  | _, [] => []
  | seq, (marker, payload) :: rest =>
    { marker := marker, seq := seq, timestamp := timestamp, payload := payload } ::
      sendRtpRaw timestamp (seq + 1) rest

structure RtpClient where
  rtpSeq : UInt16
  frameCount : UInt32

/-- What `on_packet` sends to a client of a stream with so many frames per second. -/
def onPacket (c : RtpClient) (f : Format) (fps : UInt32) (data : List UInt8) : List RtpPacket :=
  let increment := if fps > 0 then 90000 / fps else 3000
  sendRtpRaw (c.frameCount * increment) c.rtpSeq (markAll f (splitNals data))

/-! ## Reassembly -/

/-- The receiver: single NAL units, and fragments up to the one with the end bit. -/
def reassemble (f : Format) (part : List UInt8) : List (List UInt8) → List (List UInt8)
  | [] => []
  | p :: rest =>
    if f.isFragment p then
      let header := p.getD f.head 0
      let part := if header &&& 0x80 ≠ 0 then f.rebuild p ++ p.drop (f.head + 1)
        else part ++ p.drop (f.head + 1)
      if header &&& 0x40 ≠ 0 then part :: reassemble f [] rest else reassemble f part rest
    else p :: reassemble f part rest

/-- What the headers of a format have to keep. -/
structure Format.Sound (f : Format) : Prop where
  small : f.head + 1 < rtpMtu
  length : ∀ nal, (f.indicator nal).length = f.head
  marked : ∀ nal rest, f.isFragment (f.indicator nal ++ rest) = true
  bits : ∀ nal first last, (fuHeader (f.type nal) first last &&& 0x80 ≠ 0 ↔ first = true) ∧
    (fuHeader (f.type nal) first last &&& 0x40 ≠ 0 ↔ last = true)
  rebuilt : ∀ nal first last rest, f.head ≤ nal.length →
    f.rebuild (f.indicator nal ++ fuHeader (f.type nal) first last :: rest) = nal.take f.head

theorem h264_bits : ∀ (b : UInt8) (first last : Bool), ((b &&& 0xE0) ||| 28) &&& 0x1F = 28 ∧
    (fuHeader (b &&& 0x1F) first last &&& 0x80 ≠ 0 ↔ first = true) ∧
    (fuHeader (b &&& 0x1F) first last &&& 0x40 ≠ 0 ↔ last = true) ∧
    (((b &&& 0xE0) ||| 28) &&& 0xE0) ||| (fuHeader (b &&& 0x1F) first last &&& 0x1F) = b :=
  forall_uint8 (by decide +kernel)

theorem h265_bits : ∀ (b : UInt8) (first last : Bool),
    (((b &&& 0x81) ||| 98) >>> (1 : UInt8)) &&& 0x3F = 49 ∧
    (fuHeader ((b >>> (1 : UInt8)) &&& 0x3F) first last &&& 0x80 ≠ 0 ↔ first = true) ∧
    (fuHeader ((b >>> (1 : UInt8)) &&& 0x3F) first last &&& 0x40 ≠ 0 ↔ last = true) ∧
    (((b &&& 0x81) ||| 98) &&& 0x81) |||
      ((fuHeader ((b >>> (1 : UInt8)) &&& 0x3F) first last &&& 0x3F) <<< (1 : UInt8)) = b :=
  forall_uint8 (by decide +kernel)

theorem h264_sound : h264.Sound where
  small := by decide
  length nal := rfl
  marked nal rest := decide_eq_true (h264_bits (nal.getD 0 0) true true).1
  bits nal first last := ⟨(h264_bits _ first last).2.1, (h264_bits _ first last).2.2.1⟩
  rebuilt nal first last rest enough := by
    obtain ⟨b, nal, rfl⟩ := List.exists_cons_of_length_pos enough
    exact congrArg (fun x => [x]) (h264_bits b first last).2.2.2

theorem h265_sound : h265.Sound where
  small := by decide
  length nal := rfl
  marked nal rest := decide_eq_true (h265_bits (nal.getD 0 0) true true).1
  bits nal first last := ⟨(h265_bits _ first last).2.1, (h265_bits _ first last).2.2.1⟩
  rebuilt nal first last rest enough := by
    obtain ⟨b, c, nal, rfl⟩ : ∃ b c rest, nal = b :: c :: rest := by
      obtain ⟨b, nal, rfl⟩ := List.exists_cons_of_length_pos (Nat.lt_of_lt_of_le (by decide) enough)
      obtain ⟨c, nal, rfl⟩ := List.exists_cons_of_length_pos (Nat.succ_le_succ_iff.mp enough)
      exact ⟨b, c, nal, rfl⟩
    exact congrArg (fun x => [x, c]) (h265_bits b first last).2.2.2

section Payloads

variable {f : Format} (sound : f.Sound)
include sound

theorem reassemble_fragment (nal part body : List UInt8) (enough : f.head ≤ nal.length)
    (first last : Bool) (rest : List (List UInt8)) :
    reassemble f part ((f.indicator nal ++ fuHeader (f.type nal) first last :: body) :: rest) =
      let part := (if first then nal.take f.head else part) ++ body
      if last then part :: reassemble f [] rest else reassemble f part rest := by
  have header : (f.indicator nal ++ fuHeader (f.type nal) first last :: body).getD f.head 0 =
      fuHeader (f.type nal) first last := by
    rw [List.getD_append_right _ _ _ _ (by rw [sound.length]), sound.length, Nat.sub_self]
    rfl
  have content : (f.indicator nal ++ fuHeader (f.type nal) first last :: body).drop (f.head + 1) =
      body := by
    rw [List.append_cons, List.drop_left' (by simp [sound.length])]
  rw [reassemble, if_pos (sound.marked nal _), header, content, sound.rebuilt _ _ _ _ enough]
  simp only [(sound.bits nal first last).1, (sound.bits nal first last).2]
  cases first <;> cases last <;> rfl

theorem reassemble_fragments {nal : List UInt8} (enough : f.head ≤ nal.length) {size n : ℕ}
    (positive : 0 < size) {body : List UInt8} (some : body ≠ []) (fuel : body.length ≤ n)
    (first : Bool) (part : List UInt8) (rest : List (List UInt8)) :
    reassemble f part (fragments (f.indicator nal) (f.type nal) size n first body ++ rest) =
      ((if first then nal.take f.head else part) ++ body) :: reassemble f [] rest := by
  induction n generalizing body first part with
  | zero => exact absurd (List.length_eq_zero_iff.mp (Nat.le_zero.mp fuel)) some
  | succ n ih =>
    rw [fragments, if_neg some, List.cons_append, reassemble_fragment sound _ _ _ enough]
    by_cases last : body.length ≤ size
    · have done : fragments (f.indicator nal) (f.type nal) size n false (body.drop size) = [] := by
        rw [List.drop_of_length_le last]
        cases n <;> rfl
      simp [last, done, List.take_of_length_le last]
    · have more : body.drop size ≠ [] := by simpa using last
      have shorter : (body.drop size).length ≤ n := by
        rw [List.length_drop]
        omega
      simp only [last, decide_false, Bool.false_eq_true, if_false]
      rw [ih more shorter, if_neg (by simp), List.append_assoc, List.take_append_drop]

theorem reassemble_payloads {nals : List (List UInt8)} (enough : ∀ nal ∈ nals, f.head ≤ nal.length)
    (plain : ∀ nal ∈ nals, nal.length ≤ rtpMtu → f.isFragment nal = false) :
    reassemble f [] (nals.flatMap (payloads f)) = nals := by
  induction nals with
  | nil => rfl
  | cons nal nals ih =>
    obtain ⟨long, others⟩ := List.forall_mem_cons.mp enough
    obtain ⟨plain, plains⟩ := List.forall_mem_cons.mp plain
    have small := sound.small
    rw [List.flatMap_cons, payloads, if_neg (by omega)]
    by_cases single : nal.length ≤ rtpMtu
    · rw [if_pos single, List.singleton_append, reassemble, if_neg (by simp [plain single]),
        ih others plains]
    · have body : nal.drop f.head ≠ [] := by
        simp only [ne_eq, List.drop_eq_nil_iff]
        omega
      rw [if_neg single, reassemble_fragments sound (by omega) (by omega) body (by simp), if_pos rfl,
        List.take_append_drop, ih others plains]

theorem fragments_length {nal : List UInt8} {size n : ℕ} {first : Bool} {body p : List UInt8}
    (mem : p ∈ fragments (f.indicator nal) (f.type nal) size n first body) :
    p.length ≤ f.head + 1 + size := by
  induction n generalizing first body with
  | zero => cases mem
  | succ n ih =>
    rw [fragments] at mem
    split_ifs at mem with none
    · cases mem
    · obtain rfl | later := List.mem_cons.mp mem
      · simp only [List.length_append, sound.length, List.length_cons, List.length_take]
        omega
      · exact ih later

theorem payloads_length {nal p : List UInt8} (mem : p ∈ payloads f nal) : p.length ≤ rtpMtu := by
  have small := sound.small
  rw [payloads] at mem
  split_ifs at mem with short single
  · cases mem
  · obtain rfl := List.mem_singleton.mp mem
    exact single
  · have := fragments_length sound mem
    omega

end Payloads

theorem payloads_ne_nil {f : Format} {nal : List UInt8} (enough : f.head ≤ nal.length)
    (small : f.head < rtpMtu) : payloads f nal ≠ [] := by
  rw [payloads, if_neg (by omega)]
  split_ifs with single
  · simp
  · obtain ⟨n, eq⟩ : ∃ n, nal.length = n + 1 := ⟨nal.length - 1, by omega⟩
    have body : nal.drop f.head ≠ [] := by
      simp only [ne_eq, List.drop_eq_nil_iff]
      omega
    rw [eq, fragments, if_neg body]
    simp

/-! ## Packets -/

variable (timestamp : UInt32)

theorem sendRtpRaw_payload (seq : UInt16) (ps : List (Bool × List UInt8)) :
    (sendRtpRaw timestamp seq ps).map (·.payload) = ps.map Prod.snd := by
  induction ps generalizing seq with
  | nil => rfl
  | cons p ps ih => simp [sendRtpRaw, ih]

theorem sendRtpRaw_marker (seq : UInt16) (ps : List (Bool × List UInt8)) :
    (sendRtpRaw timestamp seq ps).map (·.marker) = ps.map Prod.fst := by
  induction ps generalizing seq with
  | nil => rfl
  | cons p ps ih => simp [sendRtpRaw, ih]

theorem sendRtpRaw_timestamp {timestamp : UInt32} {seq : UInt16} {ps : List (Bool × List UInt8)}
    {p : RtpPacket} (mem : p ∈ sendRtpRaw timestamp seq ps) : p.timestamp = timestamp := by
  induction ps generalizing seq with
  | nil => cases mem
  | cons q ps ih =>
    obtain rfl | later := List.mem_cons.mp mem
    · rfl
    · exact ih later

theorem sendRtpRaw_seq (seq : UInt16) (ps : List (Bool × List UInt8)) :
    (sendRtpRaw timestamp seq ps).map (·.seq) =
      (List.range ps.length).map fun i => seq + UInt16.ofNat i := by
  induction ps generalizing seq with
  | nil => rfl
  | cons p ps ih =>
    rw [sendRtpRaw, List.map_cons, ih, List.length_cons, List.range_succ_eq_map, List.map_cons,
      List.map_map]
    refine congrArg₂ List.cons (by simp) (List.map_congr_left fun i _ => ?_)
    rw [Function.comp_apply, Nat.succ_eq_one_add, UInt16.ofNat_add, ← UInt16.add_assoc]
    rfl

theorem mark_snd (marker : Bool) (ps : List (List UInt8)) : (mark marker ps).map Prod.snd = ps := by
  induction ps with
  | nil => rfl
  | cons p ps ih => simp [mark, ih]

theorem markAll_snd (f : Format) (nals : List (List UInt8)) :
    (markAll f nals).map Prod.snd = nals.flatMap (payloads f) := by
  induction nals with
  | nil => rfl
  | cons nal nals ih => rw [markAll, List.map_append, mark_snd, ih, List.flatMap_cons]

def Ends (marks : List Bool) : Prop := marks = List.replicate (marks.length - 1) false ++ [true]

theorem mark_false (ps : List (List UInt8)) :
    (mark false ps).map Prod.fst = List.replicate ps.length false := by
  induction ps with
  | nil => rfl
  | cons p ps ih => simp [mark, ih, List.replicate_succ]

theorem mark_true {ps : List (List UInt8)} (some : ps ≠ []) :
    (mark true ps).map Prod.fst = List.replicate (ps.length - 1) false ++ [true] := by
  induction ps with
  | nil => exact absurd rfl some
  | cons p ps ih =>
    cases ps with
    | nil => rfl
    | cons q ps =>
      rw [mark, List.map_cons, ih (by simp)]
      rfl

theorem markAll_ends {f : Format} {nals : List (List UInt8)} (some : nals ≠ [])
    (sent : ∀ nal ∈ nals, payloads f nal ≠ []) : Ends ((markAll f nals).map Prod.fst) := by
  induction nals with
  | nil => exact absurd rfl some
  | cons nal nals ih =>
    obtain ⟨first, others⟩ := List.forall_mem_cons.mp sent
    cases nals with
    | nil =>
      rw [markAll, markAll, List.append_nil, decide_eq_true rfl, Ends, List.length_map, mark_true first]
      simp [← List.length_map (f := Prod.snd), mark_snd]
    | cons nal' nals =>
      have rest := ih (by simp) others
      rw [markAll, decide_eq_false (by simp), List.map_append, mark_false]
      unfold Ends at rest ⊢
      rw [List.length_append, List.length_replicate]
      have long : 0 < ((markAll f (nal' :: nals)).map Prod.fst).length := by
        rw [rest]
        simp
      rw [Nat.add_sub_assoc long, List.replicate_add, List.append_assoc, ← rest]

/-- At least a header, and if the unit fits into one packet, not of the type of fragments. -/
def Carried (f : Format) (nal : List UInt8) : Prop :=
  Clean nal ∧ f.head ≤ nal.length ∧ (nal.length ≤ rtpMtu → f.isFragment nal = false)

instance (f : Format) (nal : List UInt8) : Decidable (Carried f nal) :=
  inferInstanceAs (Decidable (_ ∧ _ ∧ (_ → _)))

theorem packets_reassembled {f : Format} (codec : f = h264 ∨ f = h265) (c : RtpClient) (fps : UInt32)
    {units : List (Bool × List UInt8)} (some : units ≠ [])
    (carried : ∀ u ∈ units, Carried f u.2) :
    let packets := onPacket c f fps (stream units)
    packets.map (·.seq) = (List.range packets.length).map (fun i => c.rtpSeq + UInt16.ofNat i) ∧
      (∀ p ∈ packets, ∀ q ∈ packets, p.timestamp = q.timestamp) ∧
      (∀ p ∈ packets, p.payload.length ≤ 1400) ∧
      packets.map (·.marker) = List.replicate (packets.length - 1) false ++ [true] ∧
      reassemble f [] (packets.map (·.payload)) = units.map Prod.snd := by
  have sound : f.Sound := by
    obtain rfl | rfl := codec
    · exact h264_sound
    · exact h265_sound
  have nals : splitNals (stream units) = units.map Prod.snd :=
    splitNals_stream fun u mem => (carried u mem).1
  have carriedNals : ∀ nal ∈ units.map Prod.snd, Carried f nal := by
    intro nal mem
    obtain ⟨u, inside, rfl⟩ := List.mem_map.mp mem
    exact carried u inside
  intro packets
  have shape : packets = sendRtpRaw (c.frameCount * if fps > 0 then 90000 / fps else 3000) c.rtpSeq
      (markAll f (units.map Prod.snd)) := by
    rw [← nals]
    rfl
  have length : packets.length = (markAll f (units.map Prod.snd)).length := by
    rw [shape, ← List.length_map (f := RtpPacket.payload), sendRtpRaw_payload, List.length_map]
  refine ⟨?_, fun p hp q hq => ?_, fun p mem => ?_, ?_, ?_⟩
  · rw [length, shape]
    exact sendRtpRaw_seq _ _ _
  · rw [shape] at hp hq
    rw [sendRtpRaw_timestamp hp, sendRtpRaw_timestamp hq]
  · have inside : p.payload ∈ packets.map (·.payload) := List.mem_map_of_mem mem
    rw [shape, sendRtpRaw_payload, markAll_snd] at inside
    obtain ⟨nal, -, sent⟩ := List.mem_flatMap.mp inside
    exact payloads_length sound sent
  · have ends := markAll_ends (f := f) (show units.map Prod.snd ≠ [] by simpa using some)
      fun nal mem => payloads_ne_nil (carriedNals nal mem).2.1 (by have := sound.small; omega)
    rw [length, shape, sendRtpRaw_marker]
    rwa [Ends, List.length_map] at ends
  · rw [shape, sendRtpRaw_payload, markAll_snd]
    exact reassemble_payloads sound (fun nal mem => (carriedNals nal mem).2.1)
      fun nal mem => (carriedNals nal mem).2.2

def sampleUnits : List (Bool × List UInt8) :=
  [(true, [0x67, 0x42]), (false, 0x65 :: List.replicate 1500 9), (false, [0x65, 0, 0, 3])]

/-- Four packets, two of them with the fragments of one unit. -/
theorem packets_reassembled_sample :
    (onPacket ⟨65535, 7⟩ h264 25 (stream sampleUnits)).map (·.seq) = [65535, 0, 1, 2] ∧
    reassemble h264 [] ((onPacket ⟨65535, 7⟩ h264 25 (stream sampleUnits)).map (·.payload)) =
      sampleUnits.map Prod.snd :=
  ⟨by decide +kernel,
    (packets_reassembled (.inl rfl) ⟨65535, 7⟩ 25 (by decide) (by decide +kernel)).2.2.2.2⟩

/-- A short unit of type 28 looks like a fragment. -/
theorem fragment_type_lost : Clean [0x1C, 5] ∧
    reassemble h264 [] ((onPacket ⟨0, 0⟩ h264 25 (stream [(true, [0x1C, 5])])).map (·.payload)) =
      [] := by
  decide +kernel

end NeoRuntime.CameraDaemon.Rtsp
