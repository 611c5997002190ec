import Mathlib.Data.List.TakeWhile
import NeoRuntime.Boot.TransferProof

/-!
# Corrupted blocks

A block whose CRC is wrong is answered with a NAK and loses its first byte; the rest is parsed
again, as if new frames began in it.  If none does, a correct repetition does what the correct block
does alone (`corrupted_block_recovered`).  But the number of block 2 is taken for an STX
(`number_taken_for_start`).
-/

namespace NeoRuntime.Boot

open NeoRuntime.Ota YmodemState

section Corruption

variable {ω : Type} {api : OtaApi ω} {u : Uart} {s : YmodemState ω}

/-- What a block leaves behind: the OTA module, the sequence, the counters and the session. -/
def session (s : YmodemState ω) : ω × UInt8 × ℕ × ℕ × Option Uart × Bool :=
  (s.ota, s.expectedSeq, s.eotCount, s.canCount, s.active, s.otaSession)

/-! ## The corrupted block -/

/-- A block as it is received, with a CRC that does not match. -/
structure Corrupted (first : UInt8) (rest : List UInt8) : Prop where
  start : first = ymSoh ∨ first = ymStx
  length : (first :: rest).length = frameLen first
  complement : seqOf (first :: rest) + nseqOf (first :: rest) = 255
  crc : crcRxOf (first :: rest) ≠ ymodemCrc16 (payOf (first :: rest))

def refused (u : Uart) (s : YmodemState ω) : YmodemState ω :=
  { clearCan s with nakStreak := s.nakStreak + 1, sent := s.sent ++ [(u, ymNak)] }

theorem tryConsumeFrame_plain {bytes : List UInt8} (held : s.held u = bytes) (some : bytes ≠ [])
    (plain : ∀ b ∈ bytes, isFrameByte b = false) :
    tryConsumeFrame api u s = (s.setHeld u [], [.memmove 0 bytes.length], .done) := by
  have noise : (s.held u).takeWhile (fun b => !isFrameByte b) = bytes := by
    rw [held]
    exact List.takeWhile_eq_self_iff.mpr fun b mem => by simp [plain b mem]
  have nonzero : bytes.length ≠ 0 := fun zero => some (List.eq_nil_of_length_eq_zero zero)
  rw [tryConsumeFrame]
  dsimp only
  rw [noise, if_neg nonzero]
  simp [shift, held, consumeFrame]

theorem receive_corrupted {first : UInt8} {rest : List UInt8} {chunks : List Chunk}
    (idle : s.held u = []) (active : s.active = some u) (corrupted : Corrupted first rest)
    (plain : ∀ b ∈ rest, isFrameByte b = false) (streak : s.nakStreak < nakRetries)
    (whole : joined chunks = first :: rest) (polling : Bool) :
    chunks.foldl (Machine.receive api u) (resting s polling) = resting (refused u s) true := by
  refine receive_chunks idle (.inr active) corrupted.start polling corrupted.length ?_
    (fun data empty => receive_empty (s := refused u s) (.inr active) idle empty)
    (show [] ++ joined chunks = _ from whole) (by simp [frameLen])
  intro t round fuel
  have long : ¬ (first :: rest).length < frameLen (startOf (first :: rest)) := corrupted.length.not_lt
  have some : rest ≠ [] := by
    rintro rfl
    have length := corrupted.length
    simp [frameLen] at length
  -- the first round drops SOH or STX and sends the NAK
  let y : YmodemState ω :=
    { ((clearCan s).setHeld u rest).tx ymNak with nakStreak := s.nakStreak + 1 }
  have drops : tryConsumeFrame api u t = (y, [.memmove rest.length (rest.length + 1)], .again) := by
    have kept : ¬ s.nakStreak + 1 > nakRetries := by omega
    have here : ((clearCan s).setHeld u rest).active ≠ none := by simp [setHeld, clearCan, active]
    rw [round, consumeData]
    simp only [held_setHeld_self, if_neg long, shift]
    rw [if_neg (not_not.mpr corrupted.complement), if_pos corrupted.crc]
    simp only [List.drop_one, List.tail_cons, setHeld_setHeld, if_neg here]
    simp [tx, setHeld, clearCan, y, kept]
  -- the second one finds no frame in the rest
  have done : tryConsumeFrame api u y = _ :=
    tryConsumeFrame_plain (held_setHeld_self _ _ _) some plain
  rw [settle_of_again _ drops (by simp [Event.inRange]), settle_of_done _ done (by simp [Event.inRange])]
  have emptied : y.setHeld u [] = refused u s := by
    have held : (fun v => if v = u then [] else if v = u then rest else s.held v) = s.held := by
      funext v
      by_cases here : v = u
      · simp [here, idle]
      · simp [here]
    simp [y, setHeld, tx, refused, clearCan, active, held]
  rw [emptied]

/-! ## The correct block -/

theorem held_blockTaken (active : s.active = some u) (b : Block) (seq : UInt8) :
    (blockTaken api u s b seq).1.held u = [] := by
  rw [blockTaken, shift, held_setHeld_self, blockHandled,
    lockIfFree_of_active (s := (clearCan s).setHeld u (b.frame seq)) active]
  by_cases resets : Resets api ((clearCan s).setHeld u (b.frame seq)) seq b.data
  · split
    · simp
    · simp [held_handleDataBlock_of_resets api resets]
  · split
    · simp
    · simp [held_handleDataBlock_of_not_resets api resets]

theorem active_appendBody (s : YmodemState ω) (p : List UInt8) :
    (appendBody api s p).active = s.active := by
  simp only [appendBody]
  split_ifs <;> rfl

theorem active_appendFilePayload (s : YmodemState ω) (p : List UInt8) :
    (appendFilePayload api s p).active = s.active := by
  simp only [appendFilePayload]
  split_ifs
  · exact active_appendBody s p
  · rfl
  · exact active_appendBody _ _
  · rfl
  · rfl

theorem active_blockHandled (active : s.active = some u) (b : Block) (seq : UInt8) :
    (blockHandled api u s b seq).active = none ∨ (blockHandled api u s b seq).active = some u := by
  simp only [blockHandled, lockIfFree_of_active active, handleDataBlock]
  split_ifs
  · exact .inr active
  · exact .inr active
  · exact .inl rfl
  · exact .inr active
  · exact .inr active
  · exact .inl rfl
  · exact .inr ((active_appendFilePayload s _).trans active)

theorem settle_halted (fuel : ℕ) (s : YmodemState ω) (tasks : List Task) :
    Machine.settle api fuel ⟨s, tasks, true, true⟩ = ⟨s, tasks, true, true⟩ := by
  induction fuel with
  | zero => rfl
  | succ fuel ih =>
    rw [Machine.settle]
    split
    · rfl
    · exact ih

theorem state_of_block {b : Block} {seq : UInt8} {chunks : List Chunk} (idle : s.held u = [])
    (active : s.active = some u) (whole : joined chunks = b.frame seq) (polling : Bool) :
    (chunks.foldl (Machine.receive api u) (resting s polling)).state =
      (blockTaken api u s b seq).1 := by
  have empty : (blockTaken api u s b seq).1.held u = [] := held_blockTaken active b seq
  by_cases inRange : (blockTaken api u s b seq).2.inRange = true
  · rw [receive_frame idle (.inr active) whole inRange empty
      (active_blockHandled (s := (clearCan s).setHeld u (b.frame seq)) active b seq)]
    rfl
  · -- a reset has emptied the buffer, and `memmove` gets a negative length
    have received : chunks.foldl (Machine.receive api u) (resting s polling) =
        ⟨(blockTaken api u s b seq).1, [.consume u, .returned u], true, true⟩ := by
      refine receive_block idle (.inr active) whole (fun t taken fuel => ?_)
        (fun data _ => by exact settle_halted _ _ _) polling
      have stops : (Machine.step api ⟨t, [.consume u, .returned u], true, false⟩ .quiet).1 =
          ⟨(blockTaken api u s b seq).1, [.consume u, .returned u], true, true⟩ := by
        simp [Machine.step, Machine.perform, taken, inRange]
      rw [Machine.settle, if_neg (by simp), stops, settle_halted]
    rw [received]

/-! ## Recovery -/

/-- Another streak of NAKs, and other bytes sent. -/
abbrev relabel (n : ℕ) (sent : List (Uart × UInt8)) (s : YmodemState ω) : YmodemState ω :=
  { s with nakStreak := n, sent }

/-- The streak of NAKs only matters where it is tested. -/
theorem appendBody_relabel (n : ℕ) (sent : List (Uart × UInt8)) (s : YmodemState ω) (p : List UInt8) :
    (appendBody api (relabel n sent s) p = relabel n sent (appendBody api s p) ∧
      (appendBody api s p).nakStreak = s.nakStreak) ∨
    (appendBody api (relabel n sent s) p = relabel nakRetries sent (appendBody api s p) ∧
      (appendBody api s p).nakStreak = nakRetries) := by
  simp only [appendBody]
  by_cases none : p = [] ∨ (if s.otaOffset ≤ s.expectedTotal then s.expectedTotal - s.otaOffset else 0) = 0
  · refine .inl ⟨?_, ?_⟩ <;> simp only [if_pos none]
  by_cases ok : (api.download s.otaOffset (p.take (if s.otaOffset ≤ s.expectedTotal then
      s.expectedTotal - s.otaOffset else 0).toNat) s.ota).1 = true
  · refine .inl ⟨?_, ?_⟩ <;> simp only [if_neg none, if_pos ok]
  · refine .inr ⟨?_, ?_⟩ <;> simp only [if_neg none, if_neg ok]

theorem appendFilePayload_relabel (n : ℕ) (sent : List (Uart × UInt8)) (s : YmodemState ω)
    (p : List UInt8) :
    (appendFilePayload api (relabel n sent s) p = relabel n sent (appendFilePayload api s p) ∧
      (appendFilePayload api s p).nakStreak = s.nakStreak) ∨
    (appendFilePayload api (relabel n sent s) p = relabel nakRetries sent (appendFilePayload api s p) ∧
      (appendFilePayload api s p).nakStreak = nakRetries) := by
  simp only [appendFilePayload]
  by_cases done : s.hdrDone = true
  · rw [if_pos done, if_pos (show (relabel n sent s).hdrDone = true from done)]
    exact appendBody_relabel n sent s p
  rw [if_neg done, if_neg (show ¬ (relabel n sent s).hdrDone = true from done)]
  by_cases short : (s.hdrAccum ++ p.take (packageHeaderSize - s.hdrAccum.length)).length <
      packageHeaderSize
  · refine .inl ⟨?_, ?_⟩ <;> simp only [if_pos short]
  by_cases started : (api.downloadStart (s.hdrAccum ++ p.take (packageHeaderSize - s.hdrAccum.length))
      s.ota).1 = true
  · by_cases ok : (api.download 0 (s.hdrAccum ++ p.take (packageHeaderSize - s.hdrAccum.length))
        (api.downloadStart (s.hdrAccum ++ p.take (packageHeaderSize - s.hdrAccum.length)) s.ota).2).1 = true
    · simp only [if_neg short, if_pos started, if_pos ok]
      exact appendBody_relabel n sent { s with
        ota := _, hdrAccum := _, otaSession := true, hdrDone := true
        otaOffset := UInt32.ofNat packageHeaderSize, expectedTotal := _ } _
    · refine .inr ⟨?_, ?_⟩ <;> simp only [if_neg short, if_pos started, if_neg ok]
  · refine .inr ⟨?_, ?_⟩ <;> simp only [if_neg short, if_neg started]

theorem handleDataBlock_expected {seq : UInt8} (phase : s.inFilenamePhase = false)
    (expected : seq = s.expectedSeq) (p : List UInt8) :
    handleDataBlock api s seq p =
      let after := appendFilePayload api s p
      if after.nakStreak ≥ nakRetries then (after.sendYmodemCancel).fullReset api
      else { { after with lastAckedSeq := seq, expectedSeq := seq + 1 }.tx ymAck with nakStreak := 0 } := by
  rw [handleDataBlock, if_neg (not_not.mpr expected), if_neg (by simp [phase])]

theorem session_fullReset_relabel (n : ℕ) (sent : List (Uart × UInt8)) (s : YmodemState ω) :
    session ((relabel n sent s).sendYmodemCancel.fullReset api) =
      session (s.sendYmodemCancel.fullReset api) := by
  have cancelled : ∀ t : YmodemState ω, t.sendYmodemCancel.ota = t.ota ∧
      t.sendYmodemCancel.otaSession = t.otaSession := by
    intro t
    rw [sendYmodemCancel]
    cases t.active <;> exact ⟨rfl, rfl⟩
  have reset : ∀ t : YmodemState ω, session (t.fullReset api) =
      (if t.otaSession then api.downloadAbort t.ota else t.ota, 0, 0, 0, none, false) := by
    intro t
    simp only [fullReset, otaFailAbort, session]
    cases opened : t.otaSession <;> simp [opened]
  rw [reset, reset, (cancelled _).1, (cancelled _).2, (cancelled s).1, (cancelled s).2]

/-- The NAK changes nothing that the block leaves behind. -/
theorem session_blockHandled {n : ℕ} (sent : List (Uart × UInt8)) (b : Block) {seq : UInt8}
    (active : s.active = some u)
    (phase : s.inFilenamePhase = false) (expected : seq = s.expectedSeq)
    (streak : s.nakStreak < nakRetries) (streak' : n < nakRetries) :
    session (blockHandled api u (relabel n sent s) b seq) = session (blockHandled api u s b seq) := by
  have closing : isClosing (relabel n sent s) (b.frame seq) = isClosing s (b.frame seq) := rfl
  simp only [blockHandled, closing, lockIfFree_of_active active,
    lockIfFree_of_active (s := relabel n sent s) active]
  split
  · rfl
  rw [handleDataBlock_expected phase expected,
    handleDataBlock_expected (s := relabel n sent s) phase expected]
  obtain ⟨same, kept⟩ | ⟨same, failed⟩ :
      (appendFilePayload api _ _ = _ ∧ _) ∨ _ := appendFilePayload_relabel n sent s b.data
  · have below : ¬ (appendFilePayload api s b.data).nakStreak ≥ nakRetries := by omega
    have below' : ¬ (relabel n sent (appendFilePayload api s b.data)).nakStreak ≥ nakRetries :=
      Nat.not_le.mpr streak'
    simp only [same, if_neg below, if_neg below']
    rfl
  · have reached : (relabel nakRetries sent (appendFilePayload api s b.data)).nakStreak ≥ nakRetries :=
      le_rfl
    simp only [same, if_pos failed.ge, if_pos reached]
    exact session_fullReset_relabel _ _ _

/-- If no other byte of a corrupted block begins a frame, and the NAKs stay below the limit, the
next correct block does what it does alone. -/
theorem corrupted_block_recovered {b : Block} {seq first : UInt8} {rest : List UInt8}
    {corrupt again alone : List Chunk} (locked : s.active = some u) (idle : s.held u = [])
    (phase : s.inFilenamePhase = false) (expected : seq = s.expectedSeq)
    (corrupted : Corrupted first rest) (bad : joined corrupt = first :: rest)
    (good : joined again = b.frame seq) (good' : joined alone = b.frame seq) (polling : Bool)
    (plain : ∀ byte ∈ rest, isFrameByte byte = false) (streak : s.nakStreak + 1 < nakRetries) :
    session ((corrupt ++ again).foldl (Machine.receive api u) (resting s polling)).state =
      session (alone.foldl (Machine.receive api u) (resting s polling)).state := by
  rw [List.foldl_append, receive_corrupted idle locked corrupted plain (by omega) bad,
    state_of_block (s := refused u s) idle locked good, state_of_block idle locked good']
  have relabelled : (clearCan (refused u s)).setHeld u (b.frame seq) =
      relabel (s.nakStreak + 1) (s.sent ++ [(u, ymNak)]) ((clearCan s).setHeld u (b.frame seq)) := rfl
  rw [blockTaken, blockTaken, relabelled]
  exact session_blockHandled (s := (clearCan s).setHeld u (b.frame seq)) _ b locked phase expected
    (by change s.nakStreak < nakRetries; omega) streak

end Corruption

/-! ## On the wire -/

/-- An OTA module that takes everything, and records what is written. -/
def recorder : OtaApi (List (UInt32 × List UInt8)) where
  downloadStart _ w := (true, w)
  download offset data w := (true, w ++ [(offset, data)])
  downloadFinish w := (true, w)
  downloadAbort w := w
  setBootYmodemFlag _ w := w
  bootPreprocess w := (false, w)
  hasActiveAppRegion _ := false

/-- The data block `seq` of a package of 4096 bytes is expected on `uart1`. -/
def inTransfer (seq : UInt8) : YmodemState (List (UInt32 × List UInt8)) where
  held _ := []
  active := some .uart1
  inFilenamePhase := false
  expectedSeq := seq
  lastAckedSeq := seq - 1
  eotCount := 0
  hdrAccum := []
  hdrDone := true
  otaOffset := 256
  expectedTotal := 4096
  otaSession := true
  canCount := 0
  wireTailDiscard := false
  nakStreak := 0
  sent := []
  ota := []

def letters : Block := ⟨.replicate 128 0x41, .inl (by simp)⟩

def spoiled (seq : UInt8) : List UInt8 := (letters.frame seq).dropLast ++ [0x55]

def inOne (bytes : List UInt8) (fits : bytes.length ≤ rxDmaBuf) : List Chunk := [⟨bytes, fits⟩]

theorem length_letters (seq : UInt8) :
    (letters.frame seq).length ≤ rxDmaBuf ∧ (spoiled seq).length ≤ rxDmaBuf := by
  simp [spoiled, Block.start, letters, frameLen, dataLen, rxDmaBuf]

set_option maxRecDepth 10000 in
theorem spoiled_corrupted : Corrupted ymSoh (spoiled 3).tail ∧
    spoiled 3 = ymSoh :: (spoiled 3).tail ∧ ∀ byte ∈ (spoiled 3).tail, isFrameByte byte = false :=
  ⟨⟨by decide +kernel, by decide +kernel, by decide +kernel, by decide +kernel⟩, by decide +kernel,
    by decide +kernel⟩

theorem corrupted_block_recovered_letters :
    let corrupt := inOne (spoiled 3) (length_letters 3).2
    let again := inOne (letters.frame 3) (length_letters 3).1
    session ((corrupt ++ again).foldl (Machine.receive recorder .uart1) (resting (inTransfer 3) true)).state =
      session (again.foldl (Machine.receive recorder .uart1) (resting (inTransfer 3) true)).state := by
  obtain ⟨corrupted, bytes, plain⟩ := spoiled_corrupted
  have one : ∀ bytes fits, joined (inOne bytes fits) = bytes := fun bytes _ => List.append_nil bytes
  exact corrupted_block_recovered rfl rfl rfl rfl corrupted ((one _ _).trans bytes) (one _ _) (one _ _)
    true plain (by decide)

set_option maxRecDepth 10000 in
/-- Block 2, corrupted and then correct, is not written: the receiver waits for a longer frame. -/
theorem number_taken_for_start :
    let corrupt := inOne (spoiled 2) (length_letters 2).2
    let again := inOne (letters.frame 2) (length_letters 2).1
    let after := ((corrupt ++ again).foldl (Machine.receive recorder .uart1)
      (resting (inTransfer 2) true)).state
    let alone := (again.foldl (Machine.receive recorder .uart1) (resting (inTransfer 2) true)).state
    Corrupted ymSoh (spoiled 2).tail ∧ session after ≠ session alone ∧
      alone.ota = [(256, .replicate 128 0x41)] ∧ after.ota = [] ∧ after.expectedSeq = 2 :=
  ⟨⟨by decide +kernel, by decide +kernel, by decide +kernel, by decide +kernel⟩, by decide +kernel⟩

end NeoRuntime.Boot
