import NeoRuntime.HostLink.Framer
import NeoRuntime.HostLink.Handler

/-!
# The parser refines the framer

The buffers and the counter of the parser hold exactly the bytes that the framer holds
(`Collects`), and for every byte the parser passes to `deal_one_frame` exactly the frames that the
framer hands on (`feedByte_refines`, `hostLinkRun_refines`).
-/

namespace NeoRuntime.HostLink

/-! ## What `deal_one_frame` does -/

structure Accepted (f : HostLinkFrame) : Prop where
  hdrCrc : hdrCrcOk f.header = .ok
  magic : f.header.magic = hostLinkMagic
  version : f.header.version = hostLinkVersionCurrent
  payloadCrc : payloadCrcOk f.payload f.header.len.toNat f.payloadCrc = .ok

theorem checkFrame_ok_iff (f : HostLinkFrame) : checkFrame f = .ok ↔ Accepted f := by
  rw [checkFrame]
  split_ifs with crc proto
  · exact ⟨fun ok => absurd ok crc, fun accepted => absurd accepted.hdrCrc crc⟩
  · refine ⟨nofun, fun accepted => ?_⟩
    rcases proto with magic | version
    · exact absurd accepted.magic magic
    · exact absurd accepted.version version
  · push Not at crc proto
    exact ⟨fun ok => ⟨crc, proto.1, proto.2, ok⟩, Accepted.payloadCrc⟩

/-- An accepted frame went into a free slot, or to the callback of its request; another one has no
effect. -/
inductive Effect (t : Tables) (f : HostLinkFrame) : HostLinkErr × Tables × List DoneCall → Prop where
  | notify (slot : ℕ) : t.notifySlot[slot]? = some none →
      Effect t f (.ok, { t with notifySlot := t.notifySlot.set slot (some f) }, [])
  | ack (slot : ℕ) (tick : UInt32) : t.ackSlot[slot]? = some none →
      Effect t f (.ok, { t with ackSlot := t.ackSlot.set slot (some f),
                                ackTick := t.ackTick.set slot tick }, [])
  | async (slot : ℕ) (waiting : AsyncSlot) : t.asyncSlot[slot]? = some waiting →
      waiting.used = true → waiting.id = f.header.frameId → waiting.cmd = f.header.cmd →
      Effect t f (.ok, { t with asyncSlot := t.asyncSlot.set slot { waiting with used := false } },
        [⟨waiting.cb, .ok, f.payload⟩])
  | refused (err : HostLinkErr) : err ≠ .ok → Effect t f (err, t, [])

theorem storeAckFrame_effect (tickMs : UInt32) (t : Tables) (f : HostLinkFrame) :
    Effect t f ((storeAckFrame tickMs t f).1, (storeAckFrame tickMs t f).2, []) := by
  rw [storeAckFrame, findEmptyAck]
  cases found : firstFree t.ackSlot with
  | none => exact .refused .noSlot nofun
  | some slot => exact .ack slot tickMs (getElem?_of_firstFree found)

theorem findAsync_eq_some {t : Tables} {f : HostLinkFrame} {i : ℕ} (found : findAsync t f = some i) :
    ∃ waiting, t.asyncSlot[i]? = some waiting ∧ waiting.used = true ∧
      waiting.id = f.header.frameId ∧ waiting.cmd = f.header.cmd := by
  rw [findAsync, Option.ite_none_right_eq_some] at found
  obtain ⟨lt, waits, -⟩ := List.findIdx?_eq_some_iff_getElem.1 found.2
  simp only [Bool.and_eq_true, beq_iff_eq] at waits
  exact ⟨_, List.getElem?_eq_getElem lt, waits.1.1, waits.1.2, waits.2⟩

theorem addAckFrameLocked_effect (tickMs : UInt32) (t : Tables) (f : HostLinkFrame) :
    Effect t f (addAckFrameLocked tickMs t f) := by
  rw [addAckFrameLocked]
  cases found : findAsync t f with
  | none => exact storeAckFrame_effect tickMs t f
  | some i =>
    obtain ⟨waiting, slot, used, id, cmd⟩ := findAsync_eq_some found
    simp only [List.getD_eq_getElem?_getD, slot, Option.getD_some]
    exact .async i waiting slot used id cmd

theorem addNotifyFrameLocked_effect (t : Tables) (f : HostLinkFrame) :
    Effect t f ((addNotifyFrameLocked t f).1, (addNotifyFrameLocked t f).2, []) := by
  rw [addNotifyFrameLocked, findEmptyNotify]
  cases found : firstFree t.notifySlot with
  | none => exact .refused .noSlot nofun
  | some slot => exact .notify slot (getElem?_of_firstFree found)

theorem dealOneFrame_effect (tickMs : UInt32) (t : Tables) (f : HostLinkFrame) :
    Effect t f (dealOneFrame tickMs t f) := by
  rw [dealOneFrame]
  split
  · exact .refused _ ‹_›
  split
  · exact .refused _ (by decide)
  cases FrameType.ofByte? f.header.type with
  | none => exact .refused _ (by decide)
  | some type =>
    cases type with
    | request | event => exact addNotifyFrameLocked_effect t f
    | response | eventAck => exact addAckFrameLocked_effect tickMs t f

/-- Only frames that pass the checks and have one of the four types are accepted. -/
theorem dealOneFrame_ok {tickMs : UInt32} {t : Tables} {f : HostLinkFrame}
    (ok : (dealOneFrame tickMs t f).1 = .ok) :
    Accepted f ∧ (FrameType.ofByte? f.header.type).isSome := by
  rw [dealOneFrame] at ok
  split at ok
  · exact absurd ok ‹_›
  rename_i passed
  refine ⟨(checkFrame_ok_iff f).1 (not_not.1 passed), ?_⟩
  split at ok
  · cases ok
  cases type : FrameType.ofByte? f.header.type with
  | none => simp [type] at ok
  | some _ => rfl

theorem Effect.ready_eq {t : Tables} {f : HostLinkFrame} {res : HostLinkErr × Tables × List DoneCall}
    (effect : Effect t f res) : res.2.1.ready = t.ready := by
  cases effect <;> rfl

/-! ## One byte -/

/-- The bytes collected in the parser's buffers. -/
inductive Collects : Parser → List UInt8 → Prop where
  | sync0 {p : Parser} : p.parseState = .sync0 → p.pendPayload = none → Collects p []
  | sync1 {p : Parser} : p.parseState = .sync1 → p.pendPayload = none → Collects p [0x48]
  | hdr {p : Parser} : p.parseState = .hdr → 2 ≤ p.parseGot → p.parseGot < hostLinkHeaderWireLen →
      p.pendPayload = none → Collects p (p.hdrRaw.toList.take p.parseGot)
  | payload {p : Parser} {buf : List UInt8} : p.parseState = .payload → p.pendPayload = some buf →
      p.parseGot < p.pendPayNeed → buf.length = p.pendPayNeed →
      p.pendPayNeed = p.pendHdr.len.toNat + 2 → p.pendHdr.len.toNat ≤ hostLinkCfgMaxPayload →
      Collects p (p.pendHdr.toBytes ++ buf.take p.parseGot)

theorem collects_parseReset (p : Parser) : Collects (parseReset p) [] := .sync0 rfl rfl

theorem take_set_succ {α : Type} {l : List α} {i : ℕ} (lt : i < l.length) (a : α) :
    (l.set i a).take (i + 1) = l.take i ++ [a] := by
  rw [List.take_add_one, List.take_set_of_le (le_refl i), List.getElem?_set_self lt]
  rfl

def Dealt.Logged (d : Dealt) : Prop :=
  ∃ tickMs, dealOneFrame tickMs d.found d.frame = (d.err, d.left, d.calls)

/-- One piece of input has the effect that the framer's step has. -/
structure Refines (ready : Bool) (res : HostLinkHandler × List Dealt)
    (abs : List UInt8 × List HostLinkFrame) : Prop where
  collects : Collects res.1.toParser abs.1
  frames : res.2.map Dealt.frame = abs.2
  ready_eq : res.1.ready = ready
  logged : ∀ d ∈ res.2, d.Logged

theorem feedFinishHeader_collects (port : Port) (p : Parser) : Collects (feedFinishHeader port p)
      (if lenOf p.hdrRaw.toList ≤ hostLinkCfgMaxPayload ∧ port.mallocOk = true
        then p.hdrRaw.toList else []) := by
  have whole : p.hdrRaw.toList.length = hostLinkHeaderWireLen := by simp
  rw [lenOf, headerOf, List.take_of_length_le whole.le]
  simp only [feedFinishHeader]
  generalize same : HostLinkHeader.ofBytes p.hdrRaw.toList = header
  have bytes : header.toBytes = p.hdrRaw.toList := by
    rw [← same, HostLinkHeader.toBytes_ofBytes whole]
  by_cases tooLong : header.len.toNat > hostLinkCfgMaxPayload
  · rw [if_pos tooLong, if_neg (by omega)]
    exact collects_parseReset _
  have fits : header.len.toNat ≤ hostLinkCfgMaxPayload := by omega
  have need : (header.len.toNat + 2) % 2 ^ 16 = header.len.toNat + 2 :=
    Nat.mod_eq_of_lt (by rw [hostLinkCfgMaxPayload] at fits; omega)
  -- the branch for neither an empty nor a nonempty payload is never taken
  have taken : (header.len.toNat + 2 = 2 ∧ header.len = 0) ∨ 0 < header.len.toNat := by
    rcases Nat.eq_zero_or_pos header.len.toNat with zero | pos
    · exact .inl ⟨by rw [zero], UInt16.toNat_inj.1 zero⟩
    · exact .inr pos
  rw [if_neg tooLong, need, if_pos taken]
  cases malloc : port.mallocOk with
  | false => simpa using collects_parseReset _
  | true =>
    rw [if_pos rfl, if_pos ⟨fits, rfl⟩, ← bytes]
    simpa using Collects.payload (p := { p with
      pendHdr := header, pendPayNeed := header.len.toNat + 2,
      pendPayload := some (List.replicate (header.len.toNat + 2) 0), parseGot := 0,
      parseState := .payload }) rfl rfl (by simp) (by simp) rfl fits

theorem feedFinishPayload_refines (port : Port) (h : HostLinkHandler) {buf : List UInt8}
    (pending : h.pendPayload = some buf) :
    Refines h.ready (feedFinishPayload port h)
      ([], if hostLinkCrc16 (frameOf (h.pendHdr.toBytes ++ buf)).payload =
            (frameOf (h.pendHdr.toBytes ++ buf)).payloadCrc ∧
            (0 < h.pendHdr.len.toNat → port.mallocOk = true)
          then [frameOf (h.pendHdr.toBytes ++ buf)] else []) := by
  have frame : frameOf (h.pendHdr.toBytes ++ buf) =
      ⟨h.pendHdr, buf.take h.pendHdr.len.toNat, readLe16 (buf.drop h.pendHdr.len.toNat)⟩ := by
    rw [frameOf, lenOf, headerOf_toBytes_append, ← List.drop_drop,
      List.drop_left' h.pendHdr.length_toBytes]
  rw [frame]
  simp only [feedFinishPayload, pending, Option.getD_some, payloadCrcOk]
  have reset (abs : List HostLinkFrame) (none : abs = []) :
      Refines h.ready ({ h with toParser := parseReset h.toParser }, []) ([], abs) :=
    ⟨collects_parseReset _, none.symm, rfl, by simp⟩
  by_cases crc : hostLinkCrc16 (buf.take h.pendHdr.len.toNat) =
      readLe16 (buf.drop h.pendHdr.len.toNat)
  · rw [if_pos crc, if_neg (not_not.2 rfl)]
    by_cases memory : 0 < h.pendHdr.len.toNat ∧ port.mallocOk = false
    · rw [if_pos memory]
      exact reset _ (if_neg fun both => by simp [both.2 memory.1] at memory)
    · rw [if_neg memory, if_pos ⟨crc, fun pos => by simpa [pos] using memory⟩]
      rcases res : dealOneFrame port.tickMs h.toTables ⟨h.pendHdr, buf.take h.pendHdr.len.toNat,
        readLe16 (buf.drop h.pendHdr.len.toNat)⟩ with ⟨err, t, calls⟩
      have ready : t.ready = h.ready := by
        simpa [res] using (dealOneFrame_effect port.tickMs h.toTables ⟨h.pendHdr,
          buf.take h.pendHdr.len.toNat, readLe16 (buf.drop h.pendHdr.len.toNat)⟩).ready_eq
      refine ⟨collects_parseReset _, rfl, ready, fun d mem => ?_⟩
      obtain rfl := List.mem_singleton.1 mem
      exact ⟨port.tickMs, res⟩
  · rw [if_neg crc, if_pos (by decide)]
    exact reset _ (if_neg fun both => crc both.1)

/-- One byte has the same effect on the parser as on the framer. -/
theorem feedByte_refines {h : HostLinkHandler} {held : List UInt8}
    (collects : Collects h.toParser held) (port : Port) (b : UInt8) :
    Refines h.ready (feedByte port h b) (Framer.step held (b, port.mallocOk)) := by
  cases collects with
  | sync0 state pending =>
    simp only [feedByte, state, Framer.step_nothing]
    refine ⟨?_, rfl, ?_, by simp⟩
    · split
      · exact .sync1 rfl pending
      · exact .sync0 state pending
    · split <;> rfl
  | sync1 state pending =>
    simp only [feedByte, state, Framer.step_half]
    refine ⟨?_, rfl, ?_, by simp⟩
    · split_ifs
      · have filled : ((h.hdrRaw.set 0 0x48 (by decide)).set 1 0x4C (by decide)).toList.take 2 =
            [0x48, 0x4C] := by
          rw [Vector.toList_set, take_set_succ (by simp [hostLinkHeaderWireLen]), Vector.toList_set,
            take_set_succ (by rw [Vector.length_toList]; decide)]
          rfl
        rw [← filled]
        exact .hdr rfl le_rfl (show 2 < hostLinkHeaderWireLen by decide) pending
      · exact .sync1 rfl pending
      · exact .sync0 rfl pending
    · split_ifs <;> rfl
  | hdr state two free pending =>
    have filled (b : UInt8) : (h.hdrRaw.set h.parseGot b free).toList.take (h.parseGot + 1) =
        h.hdrRaw.toList.take h.parseGot ++ [b] := by
      rw [Vector.toList_set, take_set_succ (by simpa using free)]
    have got : (h.hdrRaw.toList.take h.parseGot).length = h.parseGot := by simp; omega
    simp only [feedByte, state, dif_pos free]
    rcases Nat.lt_or_eq_of_le (Nat.succ_le_of_lt free) with short | last
    · rw [if_neg short.ne, Framer.step_header (by rwa [got]) (by rwa [got]), ← filled]
      exact ⟨.hdr rfl (Nat.le_succ_of_le two) short pending, rfl, rfl, by simp⟩
    · rw [if_pos last, Framer.step_headerEnd (by rwa [got])]
      refine ⟨?_, rfl, rfl, by simp⟩
      have whole : h.hdrRaw.toList.take h.parseGot ++ [b] =
          (h.hdrRaw.set h.parseGot b free).toList := by
        rw [← filled, List.take_of_length_le (by simp; omega)]
      rw [whole]
      exact feedFinishHeader_collects port _
  | @payload buf state pending free room need le_max =>
    have stored : (buf.set h.parseGot b).take (h.parseGot + 1) = buf.take h.parseGot ++ [b] :=
      take_set_succ (by omega) b
    have got : (h.pendHdr.toBytes ++ buf.take h.parseGot).length =
        hostLinkHeaderWireLen + h.parseGot := by
      simp; omega
    have len : lenOf (h.pendHdr.toBytes ++ buf.take h.parseGot) = h.pendHdr.len.toNat := by
      rw [lenOf, headerOf_toBytes_append]
    have grown : h.pendHdr.toBytes ++ buf.take h.parseGot ++ [b] =
        h.pendHdr.toBytes ++ (buf.set h.parseGot b).take (h.parseGot + 1) := by
      rw [stored, List.append_assoc]
    have long : hostLinkHeaderWireLen ≤ (h.pendHdr.toBytes ++ buf.take h.parseGot).length := by
      omega
    simp only [feedByte, state, pending, if_pos free]
    rcases Nat.lt_or_eq_of_le (Nat.succ_le_of_lt free) with short | last
    · rw [if_neg (by omega), Framer.step_body long (by rw [got, len, hostLinkHeaderWireLen]; omega),
        grown]
      exact ⟨.payload rfl rfl short (by simpa using room) need le_max, rfl, rfl, by simp⟩
    · rw [if_pos (by omega), Framer.step_bodyEnd long
        (by rw [got, len, hostLinkHeaderWireLen]; omega), grown, len,
        List.take_of_length_le (by simp; omega)]
      exact feedFinishPayload_refines port { h with
        parseState := .payload, pendPayload := some (buf.set h.parseGot b), parseGot := h.parseGot + 1 } rfl

/-! ## Chunks and runs -/

def bytesOf (data : List (UInt8 × Port)) : List (UInt8 × Bool) :=
  data.map fun d => (d.1, d.2.mallocOk)

@[simp] theorem map_fst_bytesOf (data : List (UInt8 × Port)) :
    (bytesOf data).map Prod.fst = data.map Prod.fst := by
  rw [bytesOf, List.map_map]
  rfl

theorem hostLinkFeed_not_ready {h : HostLinkHandler} (down : h.ready = false)
    (data : List (UInt8 × Port)) : hostLinkFeed h data = (h, []) := by
  cases data with
  | nil => rfl
  | cons d data =>
    rw [hostLinkFeed, if_neg (by simp [down])]

theorem hostLinkFeed_refines {h : HostLinkHandler} {held : List UInt8}
    (collects : Collects h.toParser held) (ready : h.ready = true) (data : List (UInt8 × Port)) :
    Refines h.ready (hostLinkFeed h data) (Framer.run held (bytesOf data)) := by
  induction data generalizing h held with
  | nil => exact ⟨collects, rfl, rfl, by simp [hostLinkFeed]⟩
  | cons d data ih =>
    obtain ⟨b, port⟩ := d
    have first := feedByte_refines collects port b
    have rest := ih first.collects (first.ready_eq.trans ready)
    rw [hostLinkFeed, if_pos ready, bytesOf, List.map_cons, Framer.run, runLog_cons]
    refine ⟨rest.collects, ?_, rest.ready_eq.trans first.ready_eq, ?_⟩
    · rw [List.map_append, first.frames, rest.frames]
      rfl
    · intro d mem
      exact (List.mem_append.1 mem).elim (first.logged d) (rest.logged d)

/-- The bytes that are taken in while the handler is ready. -/
def taken : Bool → List Input → List (UInt8 × Bool)
  | _, [] => []
  | ready, .feed data :: inputs => (if ready then bytesOf data else []) ++ taken ready inputs
  | ready, .others t :: inputs => taken (ready && t.ready) inputs

@[simp] theorem taken_false (inputs : List Input) : taken false inputs = [] := by
  induction inputs with
  | nil => rfl
  | cons input inputs ih => cases input <;> simp [taken, ih]

theorem hostLinkRun_refines {h : HostLinkHandler} {held : List UInt8}
    (collects : Collects h.toParser held) (inputs : List Input) :
    Collects (hostLinkRun h inputs).1.toParser (Framer.run held (taken h.ready inputs)).1 ∧
      (hostLinkRun h inputs).2.map Dealt.frame = (Framer.run held (taken h.ready inputs)).2 ∧
      ∀ d ∈ (hostLinkRun h inputs).2, d.Logged := by
  induction inputs generalizing h held with
  | nil => exact ⟨collects, rfl, by simp [hostLinkRun]⟩
  | cons input inputs ih =>
    rw [hostLinkRun, runLog_cons]
    cases input with
    | feed data =>
      cases ready : h.ready with
      | false =>
        have := ih collects
        rw [ready, taken_false] at this
        simpa [hostLinkStep, hostLinkFeed_not_ready ready, hostLinkRun] using this
      | true =>
        have first := hostLinkFeed_refines collects ready data
        obtain ⟨collects', frames, logged⟩ := ih first.collects
        rw [first.ready_eq, ready] at collects' frames
        simp only [taken, if_pos, Framer.run, runLog_append]
        refine ⟨collects', ?_, fun d mem => ?_⟩
        · rw [List.map_append]
          exact congrArg₂ _ first.frames frames
        · exact (List.mem_append.1 mem).elim (first.logged d) (logged d)
    | others t =>
      exact ih (h := { h with toTables := { t with ready := h.ready && t.ready } }) collects

theorem taken_prefix (ready : Bool) (inputs : List Input) :
    (taken ready inputs).map Prod.fst <+: streamOf inputs := by
  induction inputs generalizing ready with
  | nil => exact List.prefix_refl _
  | cons input inputs ih =>
    cases input with
    | feed data =>
      cases ready with
      | false => simp
      | true =>
        simp only [taken, if_pos, List.map_append, map_fst_bytesOf, streamOf, List.flatMap_cons]
        exact (List.prefix_append_right_inj _).2 (ih true)
    | others t => exact ih _

def Input.KeepsReady : Input → Prop
  | .feed _ => True
  | .others t => t.ready = true

def Input.HasMemory : Input → Prop
  | .feed data => ∀ d ∈ data, d.2.mallocOk = true
  | .others _ => True

section Ready

variable {inputs : List Input}

theorem taken_true_cons_others {t : Tables} (ready : t.ready = true) (inputs : List Input) :
    taken true (.others t :: inputs) = taken true inputs := by
  simp [taken, ready]

theorem taken_stream (keeps : ∀ i ∈ inputs, i.KeepsReady) :
    (taken true inputs).map Prod.fst = streamOf inputs := by
  induction inputs with
  | nil => rfl
  | cons input inputs ih =>
    have rest := ih fun i mem => keeps i (List.mem_cons_of_mem _ mem)
    cases input with
    | feed data => simpa [taken, streamOf] using rest
    | others t =>
      rw [taken_true_cons_others (keeps _ (List.mem_cons_self ..)), rest]
      rfl

theorem taken_memory (keeps : ∀ i ∈ inputs, i.KeepsReady) (memory : ∀ i ∈ inputs, i.HasMemory) :
    ∀ i ∈ taken true inputs, i.2 = true := by
  induction inputs with
  | nil => simp [taken]
  | cons input inputs ih =>
    have rest := ih (fun i mem => keeps i (List.mem_cons_of_mem _ mem))
      fun i mem => memory i (List.mem_cons_of_mem _ mem)
    cases input with
    | feed data =>
      intro i mem
      simp only [taken, if_pos, List.mem_append, bytesOf, List.mem_map] at mem
      rcases mem with ⟨d, mem, rfl⟩ | mem
      · exact memory _ (List.mem_cons_self ..) d mem
      · exact rest i mem
    | others t =>
      rw [taken_true_cons_others (keeps _ (List.mem_cons_self ..))]
      exact rest

theorem hostLinkRun_ready {h : HostLinkHandler} {held : List UInt8}
    (collects : Collects h.toParser held) (ready : h.ready = true)
    (keeps : ∀ i ∈ inputs, i.KeepsReady) : (hostLinkRun h inputs).1.ready = true := by
  induction inputs generalizing h held with
  | nil => exact ready
  | cons input inputs ih =>
    have keeps' : ∀ i ∈ inputs, i.KeepsReady := fun i mem => keeps i (List.mem_cons_of_mem _ mem)
    rw [hostLinkRun, runLog_cons]
    cases input with
    | feed data =>
      have first := hostLinkFeed_refines collects ready data
      exact ih first.collects (first.ready_eq.trans ready) keeps'
    | others t =>
      have still : t.ready = true := keeps _ (List.mem_cons_self ..)
      exact ih (h := { h with toTables := { t with ready := h.ready && t.ready } }) collects
        (by simp [ready, still]) keeps'

end Ready

theorem collects_init : Collects hostLinkInit.toParser [] := .sync0 rfl rfl

end NeoRuntime.HostLink
