import NeoRuntime.Ota.PowerLoss
import NeoRuntime.Ota.Streaming

/-!
# Where a download writes

The ranges that `ota_module_ota_download_start` and the calls of `ota_module_ota_download` after it
hand to the flash functions of the platform.  Offsets and sizes are 32-bit words and
`ota_module_ota_download` compares sums of them, which may wrap.
-/

namespace NeoRuntime.Ota

open Prog

/-- The addresses `[start, start + length)`. -/
structure Range where
  start : ℕ
  length : ℕ
  deriving DecidableEq, Repr

def Range.Within (range : Range) (start stop : ℕ) : Prop :=
  start ≤ range.start ∧ range.start + range.length ≤ stop

/-- A call of `flash_write_func` or `flash_erase_func`. -/
inductive FlashCall where
  | write (range : Range)
  | erase (range : Range)
  deriving DecidableEq, Repr

def flashCall {L : Layout} : (β : Type) → FlashOp L β → Option FlashCall
  | _, .write _ addr data => some (.write ⟨addr.toNat, (UInt32.ofNat data.length).toNat⟩)
  | _, .erase _ addr size => some (.erase ⟨addr.toNat, size.toNat⟩)
  | _, _ => none

section Calls

variable {L : Layout} (crc32 : List UInt8 → UInt32)

/-- What a call hands to the flash functions. -/
def Device.flashCalls (d : Device L) (c : Call) : List FlashCall :=
  report (portHandler L) flashCall (c.program crc32 d.session) d.world

def Device.download (d : Device L) (c : UInt32 × List UInt8) : Device L × List FlashCall :=
  (d.after crc32 (.download c.1 c.2), d.flashCalls crc32 (.download c.1 c.2))

/-- The download of a package goes on into slot `i`. -/
def Device.Receives (d : Device L) (i : Fin L.count) (total : UInt32) : Prop :=
  ∃ r dl, Ready crc32 d.world d.session r ∧ d.session.dl = some dl ∧ dl.target = i ∧
    dl.expectedTotalSize = total

/-- If the call goes on where the last one has ended, its offset and size do not wrap. -/
def Device.Unwrapped (d : Device L) (c : UInt32 × List UInt8) : Prop :=
  ∀ dl ∈ d.session.dl, c.1 = dl.downloadedSize → c.1.toNat + c.2.length < 2 ^ 32

variable {crc32} {d : Device L} {w : World L} {s : Session L} {r : OtaRecord L.count}
  {dl : Download L} {i : Fin L.count} {total offset : UInt32} {data : List UInt8}
  {hdr : OtaPackageHeader}

theorem report_recordLoad : report (portHandler L) flashCall (recordLoad crc32 s) w = [] := by
  rw [recordLoad]
  split
  · rfl
  · rw [report_perform_bind]
    split
    · rfl
    · split <;> rfl

theorem report_downloadChunk (info : AppInfo) (offset : UInt32) (data : List UInt8) :
    report (portHandler L) flashCall (downloadChunk s dl info offset data) w =
      if info.status = .downloading ∧ offset = dl.downloadedSize ∧
          offset + UInt32.ofNat data.length ≤ dl.expectedTotalSize ∧
          UInt32.ofNat data.length ≠ 0 ∧
          info.flashAddr + offset + UInt32.ofNat data.length ≤ info.flashAddr + info.flashSize then
        [.write ⟨(info.flashAddr + offset).toNat, (UInt32.ofNat data.length).toNat⟩]
      else [] := by
  by_cases passed : info.status = .downloading ∧ offset = dl.downloadedSize ∧
      offset + UInt32.ofNat data.length ≤ dl.expectedTotalSize ∧ UInt32.ofNat data.length ≠ 0 ∧
      info.flashAddr + offset + UInt32.ofNat data.length ≤ info.flashAddr + info.flashSize
  · obtain ⟨status, next, fits, some, inside⟩ := passed
    simp only [downloadChunk]
    rw [if_neg (not_not.mpr status), if_neg (not_not.mpr next), if_neg (UInt32.not_lt.mpr fits),
      if_neg some, if_neg (UInt32.not_lt.mpr inside), if_pos ⟨status, next, fits, some, inside⟩,
      report_perform_bind]
    cases (portHandler L _ (.write info.flashType (info.flashAddr + offset) data) w).1 <;> rfl
  · rw [if_neg passed]
    simp only [downloadChunk]
    -- the first check that fails
    split_ifs with status next fits empty inside <;> try rfl
    exact absurd ⟨not_not.mp status, not_not.mp next, UInt32.not_lt.mp fits, empty,
      UInt32.not_lt.mp inside⟩ passed

theorem flashCalls_download (ready : Ready crc32 d.world d.session r) (opened : d.session.dl = some dl)
    (offset : UInt32) (data : List UInt8) :
    d.flashCalls crc32 (.download offset data) = report (portHandler L) flashCall
      (downloadChunk d.session dl (r.apps dl.target) offset data) d.world := by
  obtain ⟨loaded, same⟩ := (safe_recordLoad crc32 (C := fun _ => True) ready.inited (w := d.world)
    trivial).run
  rw [Device.flashCalls, Call.program, otaModuleOtaDownload, if_neg (by simp [ready.inited]), opened]
  dsimp only
  rw [report_bind, report_recordLoad, loaded, same, ready.loaded, List.nil_append]
  rfl

/-- What `ota_module_ota_download` leaves of the session, and what it has found. -/
structure Continued (s : Session L) (w : World L) (dl : Download L) (offset : UInt32)
    (data : List UInt8) (a : OtaErr × Session L) (t : World L) : Prop where
  session : ∃ n, a.2.dl = some { dl with downloadedSize := n }
  fits : a.1 = .ok → offset + UInt32.ofNat data.length ≤ dl.expectedTotalSize
  size : a.1 = .ok →
    a.2.dl = some { dl with downloadedSize := dl.downloadedSize + UInt32.ofNat data.length }
  empty : UInt32.ofNat data.length = 0 → a.2 = s ∧ t = w

theorem safe_downloadChunk_session (opened : s.dl = some dl) (info : AppInfo) :
    Safe (portHandler L) (fun _ => True) (Continued s w dl offset data)
      (downloadChunk s dl info offset data) w := by
  have failed {rc : OtaErr} (bad : rc ≠ .ok) {t : World L}
      (empty : UInt32.ofNat data.length = 0 → t = w) :
      Continued s w dl offset data (rc, s) t :=
    ⟨⟨dl.downloadedSize, opened⟩, fun ok => absurd ok bad, fun ok => absurd ok bad,
      fun none => ⟨rfl, empty none⟩⟩
  simp only [downloadChunk]
  split_ifs with status next fits empty inside
  · exact ⟨trivial, failed (by simp) fun _ => rfl⟩
  · exact ⟨trivial, failed (by simp) fun _ => rfl⟩
  · exact ⟨trivial, failed (by simp) fun _ => rfl⟩
  · exact ⟨trivial, ⟨dl.downloadedSize, opened⟩, fun _ => UInt32.not_lt.mp fits,
      fun _ => by rw [empty, add_zero]; exact opened, fun _ => ⟨rfl, rfl⟩⟩
  · exact ⟨trivial, failed (by simp) fun _ => rfl⟩
  · refine safe_perform_bind.mpr ⟨trivial, ?_⟩
    split
    · exact ⟨trivial, ⟨_, rfl⟩, fun _ => UInt32.not_lt.mp fits, fun _ => rfl,
        fun none => absurd none empty⟩
    · exact ⟨trivial, failed (by simp) fun none => absurd none empty⟩

theorem continued (ready : Ready crc32 d.world d.session r) (opened : d.session.dl = some dl)
    (offset : UInt32) (data : List UInt8) :
    let a := run (portHandler L) ((Call.download offset data).program crc32 d.session) d.world
    Continued d.session d.world dl offset data a.1 a.2 := by
  refine Safe.run (C := fun _ => True) ?_
  rw [Call.program, otaModuleOtaDownload, if_neg (by simp [ready.inited]), opened]
  refine (safe_recordLoad crc32 ready.inited trivial).bind ?_
  rintro _ _ ⟨rfl, rfl⟩
  rw [ready.loaded]
  exact safe_downloadChunk_session opened _

theorem Device.Receives.download (receives : d.Receives crc32 i total) (c : UInt32 × List UInt8) :
    (d.download crc32 c).1.Receives crc32 i total := by
  obtain ⟨r, dl, ready, opened, target, size⟩ := receives
  obtain ⟨r', left⟩ := (safe_call ready (.download c.1 c.2)).run
  obtain ⟨n, still⟩ := (continued ready opened c.1 c.2).session
  exact ⟨r', { dl with downloadedSize := n }, left.ready, still, target, size⟩

theorem Device.Receives.writes (receives : d.Receives crc32 i total) {c : UInt32 × List UInt8}
    (unwrapped : d.Unwrapped c) {call : FlashCall} (made : call ∈ (d.download crc32 c).2) :
    ∃ range, call = .write range ∧
      range.Within (L.appAddr i).toNat ((L.appAddr i).toNat + total.toNat) := by
  obtain ⟨r, dl, ready, opened, rfl, rfl⟩ := receives
  obtain ⟨-, addr, -⟩ := ready.placed dl.target
  have fits := (ready.opened dl opened).fits
  have last := L.app_end dl.target
  have sector := L.sector_pos
  rw [Device.download, flashCalls_download ready opened, report_downloadChunk] at made
  split at made
  · next passed =>
    have whole := unwrapped dl opened passed.2.1
    have size : (UInt32.ofNat c.2.length).toNat = c.2.length := by
      rw [UInt32.toNat_ofNat', Nat.mod_eq_of_lt (by omega)]
    have stop := UInt32.le_iff_toNat_le.mp passed.2.2.1
    rw [UInt32.toNat_add, size, Nat.mod_eq_of_lt whole] at stop
    obtain rfl := List.mem_singleton.mp made
    refine ⟨_, rfl, ?_⟩
    rw [addr, size, Range.Within, UInt32.toNat_add, Nat.mod_eq_of_lt (by omega)]
    exact ⟨Nat.le_add_right _ _, by dsimp only; omega⟩
  · cases made

theorem report_downloadInto (ready : Ready crc32 w s r)
    (accepted : (run (portHandler L) (downloadInto crc32 s hdr r i) w).1.1 = .ok) :
    (report (portHandler L) flashCall (downloadInto crc32 s hdr r i) w).head? =
      some (.erase ⟨(L.appAddr i).toNat, (alignUp hdr.total L.sectorSize).toNat⟩) := by
  obtain ⟨type, addr, size⟩ := ready.placed i
  have length : L.appAddr i + hdr.total - L.appAddr i = hdr.total := add_sub_cancel_left _ _
  unfold downloadInto at accepted ⊢
  rw [type, addr, size] at accepted ⊢
  split at accepted
  · cases accepted
  · next offset =>
    split at accepted
    · cases accepted
    · next total =>
      split at accepted
      · cases accepted
      · next app =>
        rw [if_neg offset, if_neg total, if_neg app, report_bind]
        simp only [flashEraseSlot, Layout.flashSectorSize, if_true, if_neg L.sector_ne_zero,
          alignDown_of_aligned L.sector_ne_zero (L.app_aligned i), length]
        rfl

theorem start_eq (ready : Ready crc32 d.world d.session r)
    (accepted : d.result crc32 (.downloadStart hdr) = .ok) : ∃ i,
      run (portHandler L) ((Call.downloadStart hdr).program crc32 d.session) d.world =
        run (portHandler L) (downloadInto crc32 d.session hdr r i) d.world ∧
      d.flashCalls crc32 (.downloadStart hdr) =
        report (portHandler L) flashCall (downloadInto crc32 d.session hdr r i) d.world := by
  obtain ⟨loaded, same⟩ := (safe_recordLoad crc32 (C := fun _ => True) ready.inited (w := d.world)
    trivial).run
  rw [Device.flashCalls]
  rw [Device.result] at accepted
  simp only [Call.program, otaModuleOtaDownloadStart] at accepted ⊢
  rw [if_neg (by simp [ready.inited])] at accepted ⊢
  split at accepted
  · cases accepted
  · next free =>
    split at accepted
    · cases accepted
    · next magic =>
      split at accepted
      · cases accepted
      · next crc =>
        rw [if_neg free, if_neg magic, if_neg crc, run_bind, report_bind, report_recordLoad, loaded,
          same, ready.loaded]
        rw [run_bind, loaded, same, ready.loaded] at accepted
        dsimp only at accepted ⊢
        cases target : r.chooseTargetOtaSlot with
        | none =>
          rw [target] at accepted
          cases accepted
        | some i => exact ⟨i, rfl, rfl⟩

/-- The first thing that an accepted start does is to erase the package's part of the slot. -/
theorem flashCalls_start (ready : Ready crc32 d.world d.session r)
    (accepted : d.result crc32 (.downloadStart hdr) = .ok) :
    ∃ i, (d.after crc32 (.downloadStart hdr)).Receives crc32 i hdr.total ∧
      hdr.total.toNat ≤ L.appSize.toNat ∧
      (d.flashCalls crc32 (.downloadStart hdr)).head? =
        some (.erase ⟨(L.appAddr i).toNat, (alignUp hdr.total L.sectorSize).toNat⟩) := by
  obtain ⟨i, same, calls⟩ := start_eq ready accepted
  rw [Device.result, same] at accepted
  obtain ⟨le, opened, -⟩ := (safe_downloadInto (i := i) ready).run accepted
  obtain ⟨r', left⟩ := (safe_call ready (.downloadStart hdr)).run
  rw [← same] at opened
  exact ⟨i, ⟨r', _, left.ready, opened, rfl, rfl⟩, le, calls ▸ report_downloadInto ready accepted⟩

theorem inited_of_accepted (accepted : d.result crc32 (.downloadStart hdr) = .ok) :
    d.session.inited = true := by
  by_contra off
  rw [Device.result, Call.program, otaModuleOtaDownloadStart, if_pos (by simpa using off)] at accepted
  cases accepted

/-- While no sum of offset and size that is compared reaches 2³², all that is written lies within the
accepted package and was erased before, and nothing before the slot was. -/
theorem writes_inside {d₀ : Device L} {actions : List Action} (factory : Factory crc32 d₀)
    (run : actions.foldlM (Device.step crc32) d₀ = some d)
    (accepted : d.result crc32 (.downloadStart hdr) = .ok) {calls : List (UInt32 × List UInt8)}
    (along : AlongLog (Device.download crc32) Device.Unwrapped
      (d.after crc32 (.downloadStart hdr)) calls) :
    ∃ dl erased, (d.after crc32 (.downloadStart hdr)).session.dl = some dl ∧
      (d.flashCalls crc32 (.downloadStart hdr)).head? = some (.erase erased) ∧
      (alignDown (L.appAddr dl.target) L.sectorSize).toNat ≤ erased.start ∧
      ∀ call ∈ (runLog (Device.download crc32) (d.after crc32 (.downloadStart hdr)) calls).2,
        ∃ range, call = .write range ∧
          range.Within (L.appAddr dl.target).toNat
            ((L.appAddr dl.target).toNat + hdr.appOffset.toNat + hdr.appSize.toNat) ∧
          range.Within erased.start (erased.start + erased.length) := by
  obtain ⟨r, ready⟩ := (held_of_run factory run).ready (inited_of_accepted accepted)
  obtain ⟨i, receives, le, first⟩ := flashCalls_start ready accepted
  have still := receives
  obtain ⟨-, dl, -, opened, rfl, -⟩ := receives
  have package : hdr.total.toNat ≤ hdr.appOffset.toNat + hdr.appSize.toNat := by
    rw [OtaPackageHeader.total, UInt32.toNat_add]
    exact Nat.mod_le _ _
  have sectors := le_alignUp (v := hdr.total) L.sector_ne_zero (L.size_fits le)
  refine ⟨dl, _, opened, first, ?_, fun call made => ?_⟩
  · rw [alignDown_of_aligned L.sector_ne_zero (L.app_aligned dl.target)]
  · obtain ⟨range, rfl, below, above⟩ := along.forall_mem
      (fun d => d.Receives crc32 dl.target hdr.total)
      (fun _ _ receives unwrapped _ made => receives.writes unwrapped made)
      (fun _ c receives _ => receives.download c) still call made
    exact ⟨range, rfl, ⟨below, by omega⟩, below, by dsimp only; omega⟩

end Calls

/-! ## On the board -/

def started : Device Layout.board := delivered.after stm32g0xxCrc32 .init

def accepting : Device Layout.board := started.after stm32g0xxCrc32 (.downloadStart smallPackage)

set_option maxRecDepth 100000 in
theorem started_accepts : started.result stm32g0xxCrc32 (.downloadStart smallPackage) = .ok := by
  decide +kernel

theorem started_ready : ∃ r, Ready stm32g0xxCrc32 started.world started.session r :=
  have allowed : delivered.allows .init := rfl
  (delivered_factory.held.after allowed).ready (inited_of_accepted started_accepts)

def wholePackage : List UInt8 := smallPackage.toBytes ++ .replicate 8 0

set_option maxRecDepth 100000 in
theorem wholePackage_writes :
    (runLog (Device.download stm32g0xxCrc32) accepting [(0, wholePackage)]).2 =
      [.write ⟨0x08010000, 64⟩] := by
  decide +kernel

theorem writes_inside_wholePackage : ∃ dl erased, accepting.session.dl = some dl ∧
    (started.flashCalls stm32g0xxCrc32 (.downloadStart smallPackage)).head? = some (.erase erased) ∧
    (runLog (Device.download stm32g0xxCrc32) accepting [(0, wholePackage)]).2 =
      [.write ⟨0x08010000, 64⟩] ∧
    (⟨0x08010000, 64⟩ : Range).Within erased.start (erased.start + erased.length) := by
  have run : [Action.call .init].foldlM (Device.step stm32g0xxCrc32) delivered = some started := rfl
  have whole : ∀ c ∈ [((0 : UInt32), wholePackage)], c.1.toNat + c.2.length < 2 ^ 32 := by
    decide +kernel
  obtain ⟨dl, erased, opened, first, -, inside⟩ :=
    writes_inside delivered_factory run started_accepts (.of_forall fun c mem _ _ _ _ => whole c mem)
  refine ⟨dl, erased, opened, first, wholePackage_writes, ?_⟩
  obtain ⟨range, same, -, within⟩ := inside (.write ⟨0x08010000, 64⟩)
    (wholePackage_writes ▸ List.mem_singleton_self _)
  obtain rfl := FlashCall.write.inj same
  exact within

theorem wrapping_flashCalls {data : List UInt8} (long : data.length = 4294967288) :
    (accepting.after stm32g0xxCrc32 (.download 0 (.replicate 8 0))).flashCalls stm32g0xxCrc32
      (.download 8 data) = [.write ⟨0x08010008, 4294967288⟩] := by
  obtain ⟨r₀, ready₀⟩ := started_ready
  have begun := Downloading.start ready₀ (by decide) started_accepts
  have some : List.replicate 8 (0 : UInt8) ≠ [] := by simp
  obtain ⟨-, i, mem, limit, ⟨r, ready⟩, opened, -⟩ := begun.next some (by decide)
  obtain ⟨-, addr, size⟩ := ready.placed i
  have status := (ready.opened _ opened).status
  rw [show Layout.board.appAddr i = 0x08010000 from rfl] at addr
  rw [show Layout.board.appSize = 0x70000 from rfl] at size
  have passed : (r.apps i).status = .downloading ∧ (8 : UInt32) = UInt32.ofNat 8 ∧
      8 + UInt32.ofNat data.length ≤ smallPackage.total ∧ UInt32.ofNat data.length ≠ 0 ∧
      (r.apps i).flashAddr + 8 + UInt32.ofNat data.length ≤
        (r.apps i).flashAddr + (r.apps i).flashSize := by
    rw [addr, size, long]
    exact ⟨status, by decide, by decide, by decide, by decide⟩
  calc (accepting.after stm32g0xxCrc32 (.download 0 (.replicate 8 0))).flashCalls stm32g0xxCrc32
        (.download 8 data)
      = [.write ⟨((r.apps i).flashAddr + 8).toNat, (UInt32.ofNat data.length).toNat⟩] :=
        (flashCalls_download ready opened 8 data).trans
          ((report_downloadChunk _ 8 data).trans (if_pos passed))
    _ = [.write ⟨0x08010008, 4294967288⟩] := by
        rw [addr, long]
        decide

set_option maxRecDepth 100000 in
theorem first_flashCalls : accepting.flashCalls stm32g0xxCrc32 (.download 0 (.replicate 8 0)) =
    [.write ⟨0x08010000, 8⟩] := by
  decide +kernel

/-- The second call passes all the checks, and hands over almost the whole address space. -/
theorem writes_wrapping : started.result stm32g0xxCrc32 (.downloadStart smallPackage) = .ok ∧
    smallPackage.total = 64 ∧
    (runLog (Device.download stm32g0xxCrc32) accepting
      [(0, .replicate 8 0), (8, .replicate 4294967288 0)]).2 =
        [.write ⟨0x08010000, 8⟩, .write ⟨0x08010008, 4294967288⟩] ∧
    ¬ (⟨0x08010008, 4294967288⟩ : Range).Within 0x08010000 (0x08010000 + 64) := by
  have long : (List.replicate 4294967288 (0 : UInt8)).length = 4294967288 := List.length_replicate
  have second := wrapping_flashCalls long
  refine ⟨started_accepts, rfl, ?_, by simp [Range.Within]⟩
  rw [runLog_cons, runLog_cons, runLog_nil]
  simp only [Device.download, first_flashCalls, second, List.append_nil, List.singleton_append]

end NeoRuntime.Ota
