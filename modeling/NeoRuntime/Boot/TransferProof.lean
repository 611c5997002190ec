import NeoRuntime.Boot.Transfer
import NeoRuntime.Ota.PowerLoss
import NeoRuntime.Boot.YmodemProof

/-!
# What a transfer passes on

A frame that arrives in any chunks is handled once (`receive_frame`); the receiver takes every block
of the file once and in order, whatever is repeated, and passes the package in it on to the OTA module
(`passed_of_transfer`).
-/

namespace NeoRuntime.Boot

open NeoRuntime.Ota YmodemState

/-! ## Frames -/

section Frame

variable (b : Block) (seq : UInt8)

def Block.start (b : Block) : UInt8 := if b.data.length = 128 then ymSoh else ymStx

theorem Block.frame_eq : b.frame seq = b.start :: seq :: (255 - seq) :: (b.data ++
    [(ymodemCrc16 b.data >>> 8).toUInt8, (ymodemCrc16 b.data).toUInt8]) := rfl

theorem Block.dataLen_start : dataLen b.start = b.data.length := by
  obtain short | long := b.sized
  · simp [Block.start, short, dataLen]
  · simp [Block.start, long, dataLen, ymSoh, ymStx]

@[simp] theorem Block.length_frame : (b.frame seq).length = frameLen b.start := by
  simp [Block.frame_eq, frameLen, b.dataLen_start]

theorem Block.start_cases : b.start = ymSoh ∨ b.start = ymStx := by
  obtain short | long := b.sized
  · simp [Block.start, short]
  · simp [Block.start, long]

@[simp] theorem Block.startOf_frame : startOf (b.frame seq) = b.start := rfl

@[simp] theorem Block.seqOf_frame : seqOf (b.frame seq) = seq := rfl

theorem Block.seq_complement : seqOf (b.frame seq) + nseqOf (b.frame seq) = 255 := by
  change seq + (255 - seq) = 255
  grind

@[simp] theorem Block.payOf_frame : payOf (b.frame seq) = b.data := by
  simp [payOf, Block.frame_eq, startOf, b.dataLen_start]

theorem join_halves (v : UInt16) : (v >>> 8).toUInt8.toUInt16 <<< 8 ||| v.toUInt8.toUInt16 = v := by
  have bound : v.toNat < 65536 := v.toNat_lt
  have high : v.toNat / 256 % 256 = v.toNat / 256 := Nat.mod_eq_of_lt (by omega)
  have fits : (v.toNat / 256) <<< 8 % 65536 = (v.toNat / 256) <<< 8 := by
    rw [Nat.shiftLeft_eq]
    exact Nat.mod_eq_of_lt (by omega)
  rw [← UInt16.toNat_inj]
  simp only [UInt16.toNat_or, UInt16.toNat_shiftLeft, UInt8.toNat_toUInt16, UInt16.toNat_toUInt8,
    UInt16.toNat_shiftRight, UInt16.reduceToNat, Nat.reduceMod, Nat.shiftRight_eq_div_pow,
    Nat.reducePow, high, fits]
  rw [← Nat.shiftLeft_add_eq_or_of_lt (by omega), Nat.shiftLeft_eq]
  omega

theorem Block.crcRxOf_frame : crcRxOf (b.frame seq) = ymodemCrc16 b.data := by
  have high : (b.frame seq).getD (b.data.length + 3) 0 = (ymodemCrc16 b.data >>> 8).toUInt8 := by
    simp [b.frame_eq, List.getD_eq_getElem?_getD]
  have low : (b.frame seq).getD (b.data.length + 1 + 3) 0 = (ymodemCrc16 b.data).toUInt8 := by
    simp [b.frame_eq, List.getD_eq_getElem?_getD]
  rw [crcRxOf, b.startOf_frame, b.dataLen_start, Nat.add_comm 3, high, Nat.add_right_comm, low]
  exact join_halves _

end Frame

/-! ## The receiver between two packets -/

section Receiver

variable {ω : Type} {api : OtaApi ω} {u : Uart} {s : YmodemState ω}

/-- Nothing is held, and no end of the file has been announced. -/
structure Idle (u : Uart) (s : YmodemState ω) : Prop where
  held : s.held u = []
  canCount : s.canCount = 0
  eotCount : s.eotCount = 0
  listens : s.active = none ∨ s.active = some u

def resting (s : YmodemState ω) (polling : Bool) : Machine ω := ⟨s, [], polling, false⟩

theorem setHeld_setHeld (s : YmodemState ω) (u : Uart) (a b : List UInt8) :
    (s.setHeld u a).setHeld u b = s.setHeld u b := by
  simp only [YmodemState.setHeld]
  congr 1
  funext v
  split <;> rfl

theorem lockIfFree_of_active (active : s.active = some u) : s.lockIfFree u = s :=
  if_neg (by simp [active])

theorem receive_resting {polling : Bool} {data : Chunk} (listens : s.active = none ∨ s.active = some u)
    (room : (s.held u).length + data.val.length ≤ streamMax) :
    (resting s polling).receive api u data =
      Machine.settle api ((s.held u).length + data.val.length + 3)
        ⟨s.setHeld u (s.held u ++ data.val), [.consume u, .returned u], true, false⟩ := by
  have start : (if (resting s polling).polling then resting s polling
      else ((resting s polling).step api .quiet).1) = resting s true := by
    cases polling <;> rfl
  have listen : s.shouldListen u = true := by simp [YmodemState.shouldListen, listens]
  have taken : ((resting s true).step api (.chunk u data)).1 =
      ⟨s.setHeld u (s.held u ++ data.val), [.consume u, .returned u], true, false⟩ := by
    simp [Machine.step, resting, Machine.poll, listen, appendStream_of_le api room]
  simp only [Machine.receive, start, taken, held_setHeld_self, List.length_append]

/-- `s_can_count = 0`. -/
def clearCan (s : YmodemState ω) : YmodemState ω := { s with canCount := 0 }

theorem tryConsumeFrame_start {first : UInt8} {part : List UInt8} (held : s.held u = first :: part)
    (start : first = ymSoh ∨ first = ymStx) (listens : s.active = none ∨ s.active = some u) :
    tryConsumeFrame api u s = consumeData api u (clearCan s) := by
  have frame : isFrameByte first = true := by
    obtain rfl | rfl := start <;> rfl
  have here : ¬ (s.active ≠ none ∧ s.active ≠ some u) := by tauto
  have can : first ≠ ymCan := by
    obtain rfl | rfl := start <;> decide
  have eot : first ≠ ymEot := by
    obtain rfl | rfl := start <;> decide
  have noise : ((s.held u).takeWhile fun b => !isFrameByte b).length = 0 := by simp [held, frame]
  rw [tryConsumeFrame]
  dsimp only
  rw [if_pos noise, consumeFrame, held]
  dsimp only
  rw [if_neg here, if_neg can, if_neg eot, if_neg (by tauto)]
  rfl

theorem tryConsumeFrame_nil (held : s.held u = []) : tryConsumeFrame api u s = (s, [], .done) := by
  simp [tryConsumeFrame, consumeFrame, held]

@[simp] theorem settle_resting (fuel : ℕ) (s : YmodemState ω) (polling : Bool) :
    (resting s polling).settle api fuel = resting s polling := by
  cases fuel <;> rfl

theorem settle_of_done (fuel : ℕ) {s' : YmodemState ω} {events : List Event}
    (done : tryConsumeFrame api u s = (s', events, .done))
    (inRange : events.all Event.inRange = true) :
    Machine.settle api (fuel + 2) ⟨s, [.consume u, .returned u], true, false⟩ = resting s' true := by
  have first : (Machine.step api ⟨s, [.consume u, .returned u], true, false⟩ .quiet).1 =
      ⟨s', [.returned u], true, false⟩ := by
    simp [Machine.step, Machine.perform, done, inRange]
  have second : (Machine.step api ⟨s', [.returned u], true, false⟩ .quiet).1 = resting s' true := rfl
  rw [Machine.settle, if_neg (by simp), first, Machine.settle, if_neg (by simp), second,
    settle_resting]

theorem settle_of_again (fuel : ℕ) {s' : YmodemState ω} {moved : Event}
    (takes : tryConsumeFrame api u s = (s', [moved], .again)) (inRange : moved.inRange = true) :
    Machine.settle api (fuel + 1) ⟨s, [.consume u, .returned u], true, false⟩ =
      Machine.settle api fuel ⟨s', [.consume u, .returned u], true, false⟩ := by
  have first : (Machine.step api ⟨s, [.consume u, .returned u], true, false⟩ .quiet).1 =
      ⟨s', [.consume u, .returned u], true, false⟩ := by
    simp [Machine.step, Machine.perform, takes, inRange]
  rw [Machine.settle, if_neg (by simp), first]

theorem receive_empty {data : Chunk} {polling : Bool} (listens : s.active = none ∨ s.active = some u)
    (held : s.held u = []) (empty : data.val = []) :
    (resting s polling).receive api u data = resting s true := by
  have same : s.setHeld u (s.held u ++ data.val) = s := by rw [empty, List.append_nil, setHeld_held]
  rw [receive_resting listens (by simp [held, empty]), same]
  exact settle_of_done _ (tryConsumeFrame_nil held) rfl

@[simp] theorem joined_nil : joined [] = [] := rfl

theorem joined_cons (chunk : Chunk) (chunks : List Chunk) :
    joined (chunk :: chunks) = chunk.val ++ joined chunks := rfl

/-! ## A frame in chunks -/

/-- The receiver with part of a frame. -/
def waiting (u : Uart) (s : YmodemState ω) (part : List UInt8) : YmodemState ω :=
  if part = [] then s else (clearCan s).setHeld u part

section Chunks

variable {first : UInt8} {rest part bytes : List UInt8} {chunks : List Chunk} {m : Machine ω}
  (idle : s.held u = []) (listens : s.active = none ∨ s.active = some u)
  (start : first = ymSoh ∨ first = ymStx)

theorem active_waiting (part : List UInt8) : (waiting u s part).active = s.active := by
  rw [waiting]
  split <;> rfl

include listens start in
theorem tryConsumeFrame_arrives (part rest : List UInt8) :
    tryConsumeFrame api u ((waiting u s part).setHeld u (first :: rest)) =
      consumeData api u ((clearCan s).setHeld u (first :: rest)) := by
  have cleared : clearCan ((waiting u s part).setHeld u (first :: rest)) =
      (clearCan s).setHeld u (first :: rest) := by
    rw [waiting]
    split
    · rfl
    · exact setHeld_setHeld (clearCan s) u part _
  rw [tryConsumeFrame_start (held_setHeld_self _ _ _) start (by rwa [setHeld, active_waiting]), cleared]

include idle listens start

theorem tryConsumeFrame_waits (within : bytes <+: first :: rest) (short : bytes.length < frameLen first)
    (grown : part <+: bytes) :
    tryConsumeFrame api u ((waiting u s part).setHeld u bytes) = (waiting u s bytes, [], .done) := by
  cases bytes with
  | nil =>
    obtain rfl : part = [] := List.prefix_nil.mp grown
    have same : (waiting u s []).setHeld u [] = s := by
      rw [waiting, if_pos rfl, ← idle, setHeld_held]
    rw [same, waiting, if_pos rfl]
    exact tryConsumeFrame_nil idle
  | cons byte bytes =>
    obtain rfl : byte = first := (List.cons_prefix_cons.mp within).1
    have short : (byte :: bytes).length < frameLen (startOf (byte :: bytes)) := short
    rw [tryConsumeFrame_arrives listens start, consumeData, waiting, if_neg (List.cons_ne_nil _ _)]
    simp only [held_setHeld_self, if_pos short]

/-- A frame in any chunks is worked off when its last byte is there. -/
theorem receive_chunks (polling : Bool) (length : (first :: rest).length = frameLen first)
    (last : ∀ t, tryConsumeFrame api u t = consumeData api u ((clearCan s).setHeld u (first :: rest)) →
      ∀ fuel, Machine.settle api (fuel + 3) ⟨t, [.consume u, .returned u], true, false⟩ = m)
    (rests : ∀ data : Chunk, data.val = [] → m.receive api u data = m)
    (whole : part ++ joined chunks = first :: rest) (short : part.length < frameLen first) :
    chunks.foldl (Machine.receive api u) (resting (waiting u s part) polling) = m := by
  induction chunks generalizing part polling with
  | nil =>
    rw [joined_nil, List.append_nil] at whole
    rw [whole, length] at short
    exact absurd short (lt_irrefl _)
  | cons chunk chunks ih =>
    rw [joined_cons, ← List.append_assoc] at whole
    have held : (waiting u s part).held u = part := by
      rw [waiting]
      split
      · next empty => rw [idle, empty]
      · exact held_setHeld_self _ _ _
    have total := congrArg List.length whole
    rw [List.length_append, List.length_append, length] at total
    have room : frameLen first ≤ streamMax := (frameLen_le first).trans (by decide)
    rw [List.foldl_cons, receive_resting (by rwa [active_waiting]) (by rw [held]; omega), held]
    by_cases more : (part ++ chunk.val).length < frameLen first
    · rw [settle_of_done _ (tryConsumeFrame_waits idle listens start ⟨_, whole⟩ more
        (List.prefix_append _ _)) rfl]
      exact ih _ whole more
    · -- the last byte is there, and no chunk after this one has any
      rw [List.length_append] at more
      have empty : joined chunks = [] := List.eq_nil_of_length_eq_zero (by omega)
      rw [empty, List.append_nil] at whole
      rw [whole, last _ (tryConsumeFrame_arrives listens start part rest)]
      have stays : ∀ chunks : List Chunk, joined chunks = [] →
          chunks.foldl (Machine.receive api u) m = m := by
        intro chunks empty
        induction chunks with
        | nil => rfl
        | cons chunk chunks ih =>
          rw [joined_cons, List.append_eq_nil_iff] at empty
          rw [List.foldl_cons, rests chunk empty.1, ih empty.2]
      exact stays chunks empty

end Chunks

/-- What the round for a correct frame does before it removes the frame. -/
def blockHandled (api : OtaApi ω) (u : Uart) (s : YmodemState ω) (b : Block) (seq : UInt8) :
    YmodemState ω :=
  if isClosing s (b.frame seq) then (s.lockIfFree u).tx ymAck
  else handleDataBlock api (s.lockIfFree u) seq b.data

/-- The round for a correct frame. -/
def blockTaken (api : OtaApi ω) (u : Uart) (s : YmodemState ω) (b : Block) (seq : UInt8) :
    YmodemState ω × Event :=
  shift (blockHandled api u ((clearCan s).setHeld u (b.frame seq)) b seq) u (frameLen b.start)

theorem consumeData_block (b : Block) (seq : UInt8) :
    consumeData api u ((clearCan s).setHeld u (b.frame seq)) =
      ((blockTaken api u s b seq).1, [(blockTaken api u s b seq).2], .again) := by
  have crc : ¬ crcRxOf (b.frame seq) ≠ ymodemCrc16 b.data := by simp [b.crcRxOf_frame]
  rw [consumeData]
  simp only [held_setHeld_self, b.startOf_frame, b.payOf_frame]
  rw [if_neg (by simp), if_neg (not_not.mpr (b.seq_complement seq)), if_neg crc, b.seqOf_frame]
  simp only [blockTaken, blockHandled]
  split <;> rfl

section Frame

variable {b : Block} {seq : UInt8} {chunks : List Chunk} (idle : s.held u = [])
  (listens : s.active = none ∨ s.active = some u) (whole : joined chunks = b.frame seq)

include idle listens whole

/-- A correct frame in any chunks: what one round of the parser does with it is done once. -/
theorem receive_block {m : Machine ω}
    (last : ∀ t, tryConsumeFrame api u t =
        ((blockTaken api u s b seq).1, [(blockTaken api u s b seq).2], .again) →
      ∀ fuel, Machine.settle api (fuel + 3) ⟨t, [.consume u, .returned u], true, false⟩ = m)
    (rests : ∀ data : Chunk, data.val = [] → m.receive api u data = m) (polling : Bool) :
    chunks.foldl (Machine.receive api u) (resting s polling) = m := by
  obtain ⟨rest, frame⟩ : ∃ rest, b.frame seq = b.start :: rest := ⟨_, b.frame_eq seq⟩
  have length : (b.start :: rest).length = frameLen b.start := by rw [← frame, b.length_frame]
  refine receive_chunks idle listens b.start_cases polling length (fun t taken => last t ?_) rests
    (show [] ++ joined chunks = _ from whole.trans frame) (by simp [frameLen])
  rw [taken, ← frame, consumeData_block]

theorem receive_frame (inRange : (blockTaken api u s b seq).2.inRange = true)
    (empty : (blockTaken api u s b seq).1.held u = [])
    (stays : (blockTaken api u s b seq).1.active = none ∨
      (blockTaken api u s b seq).1.active = some u) (polling : Bool) :
    chunks.foldl (Machine.receive api u) (resting s polling) =
      resting (blockTaken api u s b seq).1 true := by
  refine receive_block idle listens whole (fun t taken fuel => ?_)
    (fun data none => receive_empty stays empty none) polling
  rw [settle_of_again _ taken inRange, settle_of_done _ (tryConsumeFrame_nil empty) rfl]

end Frame

def handled (api : OtaApi ω) (u : Uart) (s : YmodemState ω) (b : Block) (seq : UInt8) : YmodemState ω :=
  (handleDataBlock api ((s.setHeld u (b.frame seq)).lockIfFree u) seq b.data).setHeld u []

theorem Idle.blockTaken {b : Block} {seq : UInt8} (idle : Idle u s)
    (kept : (handleDataBlock api ((s.setHeld u (b.frame seq)).lockIfFree u) seq b.data).held u =
      b.frame seq) :
    blockTaken api u s b seq = (handled api u s b seq, .memmove 0 (b.frame seq).length) := by
  have cleared : clearCan s = s := by rw [clearCan, ← idle.canCount]
  have isOpen : isClosing (s.setHeld u (b.frame seq)) (b.frame seq) = false := by
    simp [isClosing, setHeld, idle.eotCount]
  have nothing : ((b.frame seq).length : ℤ) - frameLen b.start = 0 := by
    rw [b.length_frame, sub_self]
  rw [Boot.blockTaken, cleared, blockHandled, isOpen, if_neg (by simp), shift, kept, nothing,
    List.drop_eq_nil_of_le (b.length_frame seq).le]
  rfl

end Receiver

/-! ## The file -/

section Payload

variable {ω : Type} {api : OtaApi ω} {s : YmodemState ω} {p : List UInt8} {h h' : ω}

theorem appendBody_of_over (le : s.otaOffset ≤ s.expectedTotal)
    (past : p = [] ∨ s.expectedTotal - s.otaOffset = 0) : appendBody api s p = s := by
  simp only [appendBody]
  rw [if_pos le, if_pos past]

theorem appendBody_of_ok (le : s.otaOffset ≤ s.expectedTotal)
    (goes : ¬ (p = [] ∨ s.expectedTotal - s.otaOffset = 0)) {data : List UInt8}
    (rest : p.take (s.expectedTotal - s.otaOffset).toNat = data)
    (answer : api.download s.otaOffset data s.ota = (true, h)) :
    appendBody api s p = { s with ota := h, otaOffset := s.otaOffset + UInt32.ofNat data.length } := by
  simp only [appendBody, le, goes, rest, answer, if_true, if_false]

theorem appendFilePayload_header (notDone : s.hdrDone = false) (accum : s.hdrAccum = [])
    (long : packageHeaderSize ≤ p.length)
    (start : api.downloadStart (p.take packageHeaderSize) s.ota = (true, h))
    (load : api.download 0 (p.take packageHeaderSize) h = (true, h')) :
    appendFilePayload api s p = appendBody api { s with
      hdrAccum := p.take packageHeaderSize, hdrDone := true
      otaOffset := UInt32.ofNat packageHeaderSize
      expectedTotal := (OtaPackageHeader.ofBytes (p.take packageHeaderSize)).total
      otaSession := true, ota := h' } (p.drop packageHeaderSize) := by
  have length : (p.take packageHeaderSize).length = packageHeaderSize := by simp [long]
  simp only [appendFilePayload, notDone, accum, List.length_nil, Nat.sub_zero, List.nil_append, length,
    lt_irrefl, start, load, if_true, if_false, Bool.false_eq_true]

end Payload

section File

variable {L : Layout} (crc32 : List UInt8 → UInt32)

/-- The calls so far have passed these bytes of the package, and the module has taken them. -/
structure Passed (hdr : OtaPackageHeader) (h : Host L) (bytes : List UInt8) : Prop where
  downloading : Downloading crc32 h.device hdr bytes
  contiguous : Contiguous 0 h.downloads
  bytes : h.downloads.flatMap Prod.snd = bytes

variable {crc32} {d : Device L} {hdr : OtaPackageHeader} {h : Host L} {bytes : List UInt8}
  {s : YmodemState (Host L)}

theorem Contiguous.snoc {calls : List (UInt32 × List UInt8)} {n : ℕ} (contiguous : Contiguous n calls)
    (data : List UInt8) :
    Contiguous n (calls ++ [(UInt32.ofNat (n + (calls.flatMap Prod.snd).length), data)]) := by
  induction calls generalizing n with
  | nil => exact ⟨rfl, trivial⟩
  | cons call calls ih =>
    refine ⟨contiguous.1, ?_⟩
    rw [List.flatMap_cons, List.length_append, ← Nat.add_assoc]
    exact ih contiguous.2

theorem Passed.download {data : List UInt8} (passed : Passed crc32 hdr h bytes) (nonempty : data ≠ [])
    (fits : bytes.length + data.length ≤ hdr.total.toNat) :
    ∃ h', (moduleApi crc32).download (UInt32.ofNat bytes.length) data h = (true, h') ∧
      Passed crc32 hdr h' (bytes ++ data) := by
  obtain ⟨ok, downloading⟩ := passed.downloading.next nonempty fits
  refine ⟨_, Prod.ext (decide_eq_true ok) rfl, downloading, ?_, ?_⟩
  · have contiguous := passed.contiguous.snoc data
    rwa [passed.bytes, Nat.zero_add] at contiguous
  · simp [moduleApi, Host.call, passed.bytes]

/-- The rest of a payload: what still belongs to the package is passed on. -/
theorem appendBody_passed (offset : s.otaOffset = UInt32.ofNat bytes.length)
    (total : s.expectedTotal = hdr.total) (within : bytes.length ≤ hdr.total.toNat)
    (passed : Passed crc32 hdr s.ota bytes) (p : List UInt8) :
    let more := bytes ++ p.take (hdr.total.toNat - bytes.length)
    ∃ h', appendBody (moduleApi crc32) s p =
      { s with ota := h', otaOffset := UInt32.ofNat more.length } ∧ Passed crc32 hdr h' more := by
  have bound := hdr.total.toNat_lt
  have length : (UInt32.ofNat bytes.length).toNat = bytes.length := by
    rw [UInt32.toNat_ofNat', Nat.mod_eq_of_lt (by omega)]
  have le : s.otaOffset ≤ s.expectedTotal := by
    rwa [offset, total, UInt32.le_iff_toNat_le, length]
  have remain : (s.expectedTotal - s.otaOffset).toNat = hdr.total.toNat - bytes.length := by
    rw [UInt32.toNat_sub_of_le _ _ le, offset, total, length]
  intro more
  by_cases past : p = [] ∨ s.expectedTotal - s.otaOffset = 0
  · have same : p.take (hdr.total.toNat - bytes.length) = [] := by
      obtain rfl | zero := past
      · exact List.take_nil
      · rw [← remain, zero]
        rfl
    refine ⟨s.ota, ?_, ?_⟩
    · rw [appendBody_of_over le past]
      simp only [more, same, List.append_nil, ← offset]
    · simpa only [more, same, List.append_nil] using passed
  · have left : hdr.total.toNat - bytes.length ≠ 0 := by
      rw [← remain]
      exact fun zero => past (.inr (UInt32.toNat_inj.mp zero))
    have nonempty : p.take (hdr.total.toNat - bytes.length) ≠ [] := by
      rw [ne_eq, List.take_eq_nil_iff]
      tauto
    have fits : bytes.length + (p.take (hdr.total.toNat - bytes.length)).length ≤
        hdr.total.toNat := by
      have := List.length_take_le (hdr.total.toNat - bytes.length) p
      omega
    obtain ⟨h', answer, passed'⟩ := passed.download nonempty fits
    rw [← offset] at answer
    refine ⟨h', ?_, passed'⟩
    rw [appendBody_of_ok le past (by rw [remain]) answer, offset]
    simp only [more, List.length_append, UInt32.ofNat_add]

theorem take_append_take (n : ℕ) (a b : List UInt8) :
    a.take n ++ b.take (n - (a.take n).length) = (a ++ b).take n := by
  rw [List.take_append, List.length_take]
  congr 2
  omega

/-- Nothing of the file has arrived yet, or `file` and with it the header. -/
def Arrived (crc32 : List UInt8 → UInt32) (d : Device L) (hdr : OtaPackageHeader)
    (s : YmodemState (Host L)) (file : List UInt8) : Prop :=
  (file = [] ∧ s.hdrDone = false ∧ s.hdrAccum = [] ∧ s.ota = ⟨d, []⟩) ∨
    (s.hdrDone = true ∧ s.otaOffset = UInt32.ofNat (file.take hdr.total.toNat).length ∧
      s.expectedTotal = hdr.total ∧ Passed crc32 hdr s.ota (file.take hdr.total.toNat))

/-- The package: it is accepted, and is at least its own header. -/
structure Acceptable (crc32 : List UInt8 → UInt32) (d : Device L) (hdr : OtaPackageHeader) : Prop where
  ready : ∃ r, Ready crc32 d.world d.session r
  accepted : d.result crc32 (.downloadStart hdr) = .ok
  small : packageHeaderSize ≤ hdr.total.toNat

theorem appendFilePayload_arrived (acceptable : Acceptable crc32 d hdr) {file p : List UInt8}
    (arrived : Arrived crc32 d hdr s file) (long : packageHeaderSize ≤ p.length)
    (first : file = [] → OtaPackageHeader.ofBytes (p.take packageHeaderSize) = hdr) :
    ∃ accum offset total session h, let s' := { s with
        hdrAccum := accum, hdrDone := true, otaOffset := offset, expectedTotal := total,
        otaSession := session, ota := h }
      appendFilePayload (moduleApi crc32) s p = s' ∧ Arrived crc32 d hdr s' (file ++ p) := by
  obtain ⟨rfl, notDone, accum, ota⟩ | ⟨done, offset, total, passed⟩ := arrived
  · have small := acceptable.small
    have header := first rfl
    have length : (p.take packageHeaderSize).length = packageHeaderSize := by simp [long]
    obtain ⟨r, ready⟩ := acceptable.ready
    have nonzero : hdr.total ≠ 0 := fun zero => by simp [zero, packageHeaderSize] at small
    have started : Passed crc32 hdr ⟨d.after crc32 (.downloadStart hdr), []⟩ [] :=
      ⟨.start ready nonzero acceptable.accepted, trivial, rfl⟩
    have start : (moduleApi crc32).downloadStart (p.take packageHeaderSize) s.ota =
        (true, ⟨d.after crc32 (.downloadStart hdr), []⟩) := by
      rw [ota]
      simp only [moduleApi, Host.call, header, acceptable.accepted, decide_true]
    have nonempty : p.take packageHeaderSize ≠ [] :=
      List.ne_nil_of_length_pos (by rw [length]; decide)
    obtain ⟨h₁, load, passed₁⟩ := started.download nonempty (by simpa [length] using small)
    rw [List.nil_append] at passed₁
    have whole := take_append_take hdr.total.toNat (p.take packageHeaderSize) (p.drop packageHeaderSize)
    rw [List.take_append_drop, List.take_of_length_le (by rwa [length])] at whole
    obtain ⟨h₂, eq, passed₂⟩ := appendBody_passed (s := { s with
      hdrAccum := p.take packageHeaderSize, hdrDone := true
      otaOffset := UInt32.ofNat packageHeaderSize, expectedTotal := hdr.total
      otaSession := true, ota := h₁ }) (by rw [length]) rfl (by rwa [length]) passed₁
      (p.drop packageHeaderSize)
    rw [whole] at eq passed₂
    rw [appendFilePayload_header notDone accum long start load, header]
    exact ⟨p.take packageHeaderSize, UInt32.ofNat _, hdr.total, true, h₂, eq,
      .inr ⟨rfl, rfl, rfl, passed₂⟩⟩
  · rw [appendFilePayload, if_pos done]
    obtain ⟨h', eq, passed'⟩ :=
      appendBody_passed offset total (List.length_take_le _ _) passed p
    rw [take_append_take] at eq passed'
    exact ⟨s.hdrAccum, UInt32.ofNat _, s.expectedTotal, s.otaSession, h', by rw [eq, done],
      .inr ⟨rfl, rfl, total, passed'⟩⟩

end File

/-! ## Packets -/

section Packet

variable {ω : Type} {api : OtaApi ω} {s s' : YmodemState ω} {seq : UInt8} {payload : List UInt8}

theorem handleDataBlock_again (other : seq ≠ s.expectedSeq) (last : seq = s.lastAckedSeq) :
    handleDataBlock api s seq payload = s.tx ymAck := by
  rw [handleDataBlock, if_pos other, if_pos last]

theorem handleDataBlock_name (next : seq = s.expectedSeq) (phase : s.inFilenamePhase = true) :
    handleDataBlock api s seq payload =
      { { s with inFilenamePhase := false, expectedSeq := 1, lastAckedSeq := seq }.tx ymAck with
        nakStreak := 0 } := by
  rw [handleDataBlock, if_neg (not_not.mpr next), if_pos phase]

theorem handleDataBlock_data (next : seq = s.expectedSeq) (phase : s.inFilenamePhase = false)
    (append : appendFilePayload api s payload = s') (nak : s'.nakStreak < nakRetries) :
    handleDataBlock api s seq payload =
      { { s' with lastAckedSeq := seq, expectedSeq := seq + 1 }.tx ymAck with nakStreak := 0 } := by
  rw [handleDataBlock, if_neg (not_not.mpr next), if_neg (by simp [phase]), append]
  exact if_neg (Nat.not_le.mpr nak)

end Packet

section Progress

variable {L : Layout} {crc32 : List UInt8 → UInt32} {d : Device L} {hdr : OtaPackageHeader} {u : Uart}
  {blocks : List Block} {n : ℕ} {b : Block} {s : YmodemState (Host L)}

structure Numbered (u : Uart) (n : ℕ) (s : YmodemState (Host L)) : Prop where
  active : s.active = some u
  inFilenamePhase : s.inFilenamePhase = false
  expectedSeq : s.expectedSeq = UInt8.ofNat (n + 1)
  lastAckedSeq : s.lastAckedSeq = UInt8.ofNat n
  nakStreak : s.nakStreak = 0

/-- The receiver after the packet with the name, if any, and the first blocks. -/
def Progress (crc32 : List UInt8 → UInt32) (d : Device L) (hdr : OtaPackageHeader) (u : Uart)
    (blocks : List Block) : ℕ → YmodemState (Host L) → Prop
  | 0, s => Idle u s ∧ s.active = none ∧ Arrived crc32 d hdr s []
  | n + 1, s => Idle u s ∧ Numbered u n s ∧
      Arrived crc32 d hdr s ((blocks.take n).flatMap Block.data)

structure Acked (crc32 : List UInt8 → UInt32) (d : Device L) (hdr : OtaPackageHeader) (u : Uart)
    (blocks : List Block) (n : ℕ) (b : Block) (s : YmodemState (Host L)) : Prop where
  kept : (handleDataBlock (moduleApi crc32) ((s.setHeld u (b.frame (UInt8.ofNat n))).lockIfFree u)
    (UInt8.ofNat n) b.data).held u = b.frame (UInt8.ofNat n)
  sent : (handled (moduleApi crc32) u s b (UInt8.ofNat n)).sent = s.sent ++ [(u, ymAck)]
  progress : Progress crc32 d hdr u blocks (n + 1) (handled (moduleApi crc32) u s b (UInt8.ofNat n))

theorem Acked.of_eq {t : YmodemState (Host L)}
    (result : handleDataBlock (moduleApi crc32) ((s.setHeld u (b.frame (UInt8.ofNat n))).lockIfFree u)
      (UInt8.ofNat n) b.data = t) (kept : t.held u = b.frame (UInt8.ofNat n))
    (sent : t.sent = s.sent ++ [(u, ymAck)]) (canCount : t.canCount = 0) (eotCount : t.eotCount = 0)
    (numbered : Numbered u n t)
    (arrived : Arrived crc32 d hdr t ((blocks.take n).flatMap Block.data)) :
    Acked crc32 d hdr u blocks n b s := by
  have after : handled (moduleApi crc32) u s b (UInt8.ofNat n) = t.setHeld u [] := by
    rw [handled, result]
  refine ⟨by rw [result, kept], by rw [after]; exact sent, ?_⟩
  rw [after]
  exact ⟨⟨held_setHeld_self _ _ _, canCount, eotCount, .inr numbered.active⟩,
    ⟨numbered.active, numbered.inFilenamePhase, numbered.expectedSeq, numbered.lastAckedSeq,
      numbered.nakStreak⟩, arrived⟩

theorem Progress.name (progress : Progress crc32 d hdr u blocks 0 s) (b : Block) :
    Acked crc32 d hdr u blocks 0 b s := by
  obtain ⟨idle, free, arrived⟩ := progress
  have locked : (s.setHeld u (b.frame 0)).lockIfFree u = (s.setHeld u (b.frame 0)).lockPorts u :=
    if_pos free
  refine .of_eq ((congrArg (handleDataBlock _ · 0 b.data) locked).trans
    (handleDataBlock_name rfl rfl)) ?_ rfl idle.canCount rfl ⟨rfl, rfl, rfl, rfl, rfl⟩ arrived
  simp [YmodemState.tx, YmodemState.lockPorts, YmodemState.setHeld]

theorem Progress.again (progress : Progress crc32 d hdr u blocks (n + 1) s) (b : Block) :
    Acked crc32 d hdr u blocks n b s := by
  obtain ⟨idle, numbered, arrived⟩ := progress
  have locked : (s.setHeld u (b.frame (UInt8.ofNat n))).lockIfFree u =
      s.setHeld u (b.frame (UInt8.ofNat n)) := lockIfFree_of_active numbered.active
  have other : UInt8.ofNat n ≠ s.expectedSeq := by
    rw [numbered.expectedSeq, UInt8.ofNat_add]
    grind
  refine .of_eq ((congrArg (handleDataBlock _ · (UInt8.ofNat n) b.data) locked).trans
    (handleDataBlock_again other numbered.lastAckedSeq.symm)) ?_ ?_ idle.canCount idle.eotCount
    ⟨numbered.active, numbered.inFilenamePhase, numbered.expectedSeq, numbered.lastAckedSeq,
      numbered.nakStreak⟩ arrived
  · exact held_setHeld_self _ _ _
  · simp [YmodemState.tx, YmodemState.setHeld, numbered.active]

theorem Block.headerSize_le (b : Block) : packageHeaderSize ≤ b.data.length := by
  obtain sized | sized := b.sized <;> rw [sized] <;> decide

theorem flatMap_take_succ (here : blocks[n]? = some b) :
    (blocks.take (n + 1)).flatMap Block.data = (blocks.take n).flatMap Block.data ++ b.data := by
  simp [List.take_add_one, here]

theorem Progress.block (acceptable : Acceptable crc32 d hdr)
    (first : ∀ b ∈ blocks.head?, OtaPackageHeader.ofBytes (b.data.take packageHeaderSize) = hdr)
    (progress : Progress crc32 d hdr u blocks (n + 1) s) (here : blocks[n]? = some b) :
    Acked crc32 d hdr u blocks (n + 1) b s := by
  obtain ⟨idle, numbered, arrived⟩ := progress
  have locked : (s.setHeld u (b.frame (UInt8.ofNat (n + 1)))).lockIfFree u =
      s.setHeld u (b.frame (UInt8.ofNat (n + 1))) := lockIfFree_of_active numbered.active
  have header : (blocks.take n).flatMap Block.data = [] →
      OtaPackageHeader.ofBytes (b.data.take packageHeaderSize) = hdr := by
    intro empty
    cases blocks with
    | nil => simp at here
    | cons c blocks =>
      cases n with
      | zero => exact first b (by simpa using here)
      | succ n =>
        have nonempty := c.headerSize_le
        simp only [List.take_succ_cons, List.flatMap_cons, List.append_eq_nil_iff] at empty
        simp [empty.1, packageHeaderSize] at nonempty
  obtain ⟨accum, offset, total, session, h, append, arrived'⟩ :=
    appendFilePayload_arrived (s := s.setHeld u (b.frame (UInt8.ofNat (n + 1)))) acceptable arrived
      b.headerSize_le header
  refine .of_eq ((congrArg (handleDataBlock _ · (UInt8.ofNat (n + 1)) b.data) locked).trans
    (handleDataBlock_data numbered.expectedSeq.symm numbered.inFilenamePhase append
      (numbered.nakStreak.trans_lt (by decide)))) ?_ ?_ idle.canCount idle.eotCount
    ⟨numbered.active, numbered.inFilenamePhase, ?_, rfl, rfl⟩ ?_
  · exact held_setHeld_self _ _ _
  · simp [YmodemState.tx, YmodemState.setHeld, numbered.active]
  · exact (UInt8.ofNat_add (n + 1) 1).symm
  · rw [flatMap_take_succ here]
    exact arrived'

/-- The packet that the receiver waits for, or the one before it. -/
theorem Progress.acked {name : Block} {j : ℕ} (acceptable : Acceptable crc32 d hdr)
    (first : ∀ b ∈ blocks.head?, OtaPackageHeader.ofBytes (b.data.take packageHeaderSize) = hdr)
    (progress : Progress crc32 d hdr u blocks j s) (near : j = n ∨ j = n + 1)
    (here : (name :: blocks)[n]? = some b) : Acked crc32 d hdr u blocks n b s := by
  obtain rfl | rfl := near
  · cases j with
    | zero => exact progress.name b
    | succ j => exact progress.block acceptable first here
  · exact progress.again b

theorem Progress.idle {j : ℕ} (progress : Progress crc32 d hdr u blocks j s) : Idle u s := by
  cases j <;> exact progress.1

end Progress

/-! ## The whole transfer -/

section Transfer

variable {L : Layout} {crc32 : List UInt8 → UInt32} {d : Device L} {hdr : OtaPackageHeader} {u : Uart}
  {name : Block} {blocks : List Block} {acks : ℕ} {l : Link (Host L)}

/-- After `acks` answers the receiver has the packet before the sender's current one, or, when the
last answer was lost, this one as well. -/
structure Synced (crc32 : List UInt8 → UInt32) (d : Device L) (hdr : OtaPackageHeader) (u : Uart)
    (name : Block) (blocks : List Block) (acks : ℕ) (l : Link (Host L)) : Prop where
  number : l.number = min acks (blocks.length + 1)
  left : l.left = (name :: blocks).drop l.number
  receiver : ∃ s polling j, l.receiver = resting s polling ∧ Progress crc32 d hdr u blocks j s ∧
    (j = l.number ∨ j = l.number + 1 ∧ l.number ≤ blocks.length)

/-- One transmission: the packet is handled, and its ACK is all that is answered. -/
theorem Acked.transmit {s : YmodemState (Host L)} {polling : Bool} {b : Block} {rest : List Block}
    (acked : Acked crc32 d hdr u blocks l.number b s) (idle : Idle u s)
    (receiver : l.receiver = resting s polling) (here : l.left = b :: rest) (t : Transmission) :
    l.transmit (moduleApi crc32) u t =
      let m := resting (handled (moduleApi crc32) u s b (UInt8.ofNat l.number)) true
      if t.ackArrives then ⟨m, l.number + 1, rest⟩ else { l with receiver := m } := by
  have taken := idle.blockTaken acked.kept
  have received : _ = resting (blockTaken (moduleApi crc32) u s b (UInt8.ofNat l.number)).1 true :=
    receive_frame idle.held idle.listens (t.whole _) (by simp [taken, Event.inRange])
      (by rw [taken]; exact acked.progress.idle.held)
      (by rw [taken]; exact acked.progress.idle.listens) polling
  rw [taken, ← receiver] at received
  have answer : (resting (handled (moduleApi crc32) u s b (UInt8.ofNat l.number))
      true).state.sent.drop l.receiver.state.sent.length = [(u, ymAck)] := by
    rw [receiver]
    simp [resting, acked.sent]
  simp only [Link.transmit, here, received, answer, List.mem_singleton, and_true]

theorem Synced.transmit (acceptable : Acceptable crc32 d hdr)
    (first : ∀ b ∈ blocks.head?, OtaPackageHeader.ofBytes (b.data.take packageHeaderSize) = hdr)
    (synced : Synced crc32 d hdr u name blocks acks l) (t : Transmission) :
    Synced crc32 d hdr u name blocks (acks + if t.ackArrives then 1 else 0)
      (l.transmit (moduleApi crc32) u t) := by
  obtain ⟨s, polling, j, receiver, progress, near⟩ := synced.receiver
  have left := synced.left
  have number := synced.number
  cases here : l.left with
  | nil =>
    have same : l.transmit (moduleApi crc32) u t = l := by simp only [Link.transmit, here]
    rw [here, eq_comm, List.drop_eq_nil_iff, List.length_cons] at left
    rw [same]
    exact ⟨by omega, synced.left, synced.receiver⟩
  | cons b rest =>
    rw [here] at left
    have within : l.number < (name :: blocks).length := by
      by_contra out
      rw [List.drop_of_length_le (by omega)] at left
      exact List.cons_ne_nil _ _ left
    rw [List.drop_eq_getElem_cons within, List.cons.injEq] at left
    have packet : (name :: blocks)[l.number]? = some b := by
      rw [left.1, List.getElem?_eq_getElem within]
    have acked := progress.acked acceptable first (near.imp_right And.left) packet
    have sent := acked.transmit progress.idle receiver here t
    have last : l.number ≤ blocks.length := Nat.le_of_lt_succ within
    rw [sent]
    cases t.ackArrives with
    | true =>
      exact ⟨by simp only [if_true]; omega, left.2, _, _, _, rfl, acked.progress, .inl rfl⟩
    | false =>
      exact ⟨number, synced.left, _, _, _, rfl, acked.progress, .inr ⟨rfl, last⟩⟩

theorem Synced.run (acceptable : Acceptable crc32 d hdr)
    (first : ∀ b ∈ blocks.head?, OtaPackageHeader.ofBytes (b.data.take packageHeaderSize) = hdr)
    (synced : Synced crc32 d hdr u name blocks acks l) (transmissions : List Transmission) :
    Synced crc32 d hdr u name blocks (acks + transmissions.countP (·.ackArrives))
      (transmissions.foldl (Link.transmit (moduleApi crc32) u) l) := by
  induction transmissions generalizing acks l with
  | nil => exact synced
  | cons t transmissions ih =>
    have rest := ih (synced.transmit acceptable first t)
    rwa [List.foldl_cons, List.countP_cons, Nat.add_comm (transmissions.countP _), ← Nat.add_assoc]

theorem synced_init (hdr : OtaPackageHeader) (name : Block) (blocks : List Block) :
    Synced crc32 d hdr u name blocks 0 ⟨.init ⟨d, []⟩, 0, name :: blocks⟩ where
  number := by simp
  left := rfl
  receiver := ⟨_, _, 0, rfl, ⟨⟨rfl, rfl, rfl, .inl rfl⟩, rfl, .inl ⟨rfl, rfl, rfl, rfl⟩⟩, .inl rfl⟩

theorem Arrived.passed {s : YmodemState (Host L)} {file : List UInt8}
    (arrived : Arrived crc32 d hdr s file) :
    Contiguous 0 s.ota.downloads ∧
      s.ota.downloads.flatMap Prod.snd = file.take hdr.total.toNat := by
  obtain ⟨rfl, -, -, ota⟩ | ⟨-, -, -, passed⟩ := arrived
  · rw [ota]
    exact ⟨trivial, by simp⟩
  · exact ⟨passed.contiguous, passed.bytes⟩

theorem Progress.passed {s : YmodemState (Host L)} {j : ℕ}
    (progress : Progress crc32 d hdr u blocks j s) :
    Contiguous 0 s.ota.downloads ∧ s.ota.downloads.flatMap Prod.snd =
      ((blocks.take (j - 1)).flatMap Block.data).take hdr.total.toNat := by
  cases j with
  | zero => exact progress.2.2.passed
  | succ j => exact progress.2.2.passed

/-- Whatever answers are lost and however packets are split, a beginning of the package is passed
on, in order and once, and all of it when every packet has been acknowledged. -/
theorem passed_of_transfer {d₀ : Device L} {actions : List Action} (factory : Factory crc32 d₀)
    (run : actions.foldlM (Device.step crc32) d₀ = some d) (inited : d.session.inited = true)
    (u : Uart) (name : Block) {file : List UInt8} (sends : file <+: blocks.flatMap Block.data)
    (header : OtaPackageHeader.ofBytes (file.take packageHeaderSize) = hdr)
    (accepted : d.result crc32 (.downloadStart hdr) = .ok)
    (atLeast : packageHeaderSize ≤ hdr.total.toNat) (atMost : hdr.total.toNat ≤ file.length)
    (transmissions : List Transmission) :
    let l := transmissions.foldl (Link.transmit (moduleApi crc32) u)
      ⟨.init ⟨d, []⟩, 0, name :: blocks⟩
    let passed := l.receiver.state.ota.downloads
    Contiguous 0 passed ∧ passed.flatMap Prod.snd <+: file.take hdr.total.toNat ∧
      (blocks.length + 1 ≤ transmissions.countP (·.ackArrives) →
        passed.flatMap Prod.snd = file.take hdr.total.toNat) := by
  have acceptable : Acceptable crc32 d hdr :=
    ⟨(held_of_run factory run).ready inited, accepted, atLeast⟩
  have belongs : file.take hdr.total.toNat = (blocks.flatMap Block.data).take hdr.total.toNat := by
    obtain ⟨padding, eq⟩ := sends
    rw [← eq, List.take_append_of_le_length atMost]
  have first : ∀ b ∈ blocks.head?,
      OtaPackageHeader.ofBytes (b.data.take packageHeaderSize) = hdr := by
    intro b head
    obtain ⟨rest, rfl⟩ := List.head?_eq_some_iff.mp head
    have start := congrArg (List.take packageHeaderSize) belongs
    rw [List.take_take, List.take_take, min_eq_left atLeast, List.flatMap_cons,
      List.take_append_of_le_length b.headerSize_le] at start
    rw [← start, header]
  intro l passed
  have synced := (synced_init (u := u) hdr name blocks).run acceptable first transmissions
  obtain ⟨s, polling, j, receiver, progress, near⟩ := synced.receiver
  obtain ⟨contiguous, bytes⟩ := progress.passed
  have calls : passed = s.ota.downloads := congrArg (·.state.ota.downloads) receiver
  rw [calls, bytes, belongs]
  refine ⟨contiguous, ?_, fun acked => ?_⟩
  · exact ((List.take_prefix (j - 1) blocks).flatMap _).take _
  · have all : blocks.length ≤ j - 1 := by
      have number := synced.number
      omega
    rw [List.take_of_length_le all]

end Transfer

/-! ## On the board -/

def bytewise (ackArrives : Bool) : Transmission where
  split := fun bytes => bytes.map fun byte => ⟨[byte], by simp [rxDmaBuf]⟩
  whole := fun bytes => (List.flatMap_map _ _ bytes).trans (by simp)
  ackArrives := ackArrives

def emptyName : Block := ⟨.replicate 128 0, .inl (by simp)⟩

def packageBlock (hdr : OtaPackageHeader) : Block :=
  ⟨hdr.toBytes ++ .replicate 72 0, .inl (by simp [packageHeaderSize])⟩

set_option maxRecDepth 100000 in
theorem smallPackage_accepted : OtaPackageHeader.ofBytes smallPackage.toBytes = smallPackage ∧
    (delivered.after stm32g0xxCrc32 .init).session.inited = true ∧
    (delivered.after stm32g0xxCrc32 .init).result stm32g0xxCrc32 (.downloadStart smallPackage) = .ok := by
  decide +kernel

/-- A package of 64 bytes, with the first answer to its only block lost. -/
theorem passed_of_lost_ack :
    let l := [bytewise true, bytewise false, bytewise true].foldl
      (Link.transmit (moduleApi stm32g0xxCrc32) .uart1)
      ⟨.init ⟨delivered.after stm32g0xxCrc32 .init, []⟩, 0, [emptyName, packageBlock smallPackage]⟩
    l.receiver.state.ota.downloads.flatMap Prod.snd = smallPackage.toBytes ++ .replicate 8 0 := by
  obtain ⟨header, inited, accepted⟩ := smallPackage_accepted
  have sends : smallPackage.toBytes ++ .replicate 8 0 <+:
      [packageBlock smallPackage].flatMap Block.data := ⟨.replicate 64 0, by simp [packageBlock]⟩
  have file : (smallPackage.toBytes ++ .replicate 8 0).take packageHeaderSize = smallPackage.toBytes :=
    List.take_left' smallPackage.length_toBytes
  have run : [Action.call .init].foldlM (Device.step stm32g0xxCrc32) delivered =
    some (delivered.after stm32g0xxCrc32 .init) := rfl
  have transfer := passed_of_transfer delivered_factory run inited .uart1 emptyName sends
    (by rw [file, header]) accepted (by decide) (by simp; decide)
    [bytewise true, bytewise false, bytewise true]
  exact (transfer.2.2 (by decide)).trans (List.take_of_length_le (by simp; decide))

def shortPackage : OtaPackageHeader :=
  let unsigned : OtaPackageHeader :=
    { magic := otaPackageMagic, buildTimestamp := 0, appOffset := 0, appSize := 8
      appCrc32 := stm32g0xxCrc32 (.replicate 8 0), appVersion := .replicate _ 0, headerCrc32 := 0 }
  { unsigned with headerCrc32 := stm32g0xxCrc32 unsigned.body }

set_option maxRecDepth 100000 in
/-- A package that is shorter than its header is accepted, and passed on as a whole. -/
theorem passed_header_of_short_package :
    let d := delivered.after stm32g0xxCrc32 .init
    let l := [bytewise true, bytewise true].foldl (Link.transmit (moduleApi stm32g0xxCrc32) .uart1)
      ⟨.init ⟨d, []⟩, 0, [emptyName, packageBlock shortPackage]⟩
    OtaPackageHeader.ofBytes shortPackage.toBytes = shortPackage ∧
      d.result stm32g0xxCrc32 (.downloadStart shortPackage) = .ok ∧ shortPackage.total = 8 ∧
      l.receiver.state.ota.downloads.flatMap Prod.snd = shortPackage.toBytes := by
  decide +kernel

end NeoRuntime.Boot
