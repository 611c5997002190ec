import NeoRuntime.Ota.Bounds
import NeoRuntime.Ota.Lifecycle

/-!
# Where a downloaded application is entered

`ota_module_ota_download_start` is given a header and checks it; `ota_module_boot_preprocess` reads the
header from the slot, where the first bytes of the stream stand.  Nothing compares the two.
-/

namespace NeoRuntime.Ota

open Prog

section Entry

variable {L : Layout} (crc32 : List UInt8 → UInt32)

/-! ## The record -/

/-- The statuses are in order, whatever the slots hold. -/
structure Marked (d : Device L) : Prop where
  held : Held crc32 d
  sound : ∀ r, d.world.stored crc32 = some r → Sound r.apps fun _ => true

variable {crc32} {d d' : Device L} {call : Call} {r : OtaRecord L.count} {hdr : OtaPackageHeader}
  {w : World L} {s : Session L} {i : Fin L.count}

theorem Sound.forget {n : ℕ} {apps : Fin n → AppInfo} {c : Fin n → Bool} (sound : Sound apps c) :
    Sound apps fun _ => true :=
  ⟨fun _ _ => rfl, fun _ _ => .inl rfl, sound.one, sound.spare⟩

theorem Change.forget {n : ℕ} {r : OtaRecord n} {c c' : Fin n → Bool} {apps : Fin n → AppInfo}
    (change : Change r c call apps c') : ∃ c'', Change r (fun _ => true) call apps c'' := by
  cases change with
  | keep idle => exact ⟨_, .keep idle⟩
  | start target others => exact ⟨_, .start target fun _ _ => rfl⟩
  | accept opened => exact ⟨_, .accept opened⟩
  | reject opened => exact ⟨_, .reject opened⟩
  | abort opened => exact ⟨_, .abort opened⟩
  | promote stores => exact ⟨_, .promote stores⟩
  | boot verified => exact ⟨_, .boot verified⟩
  | count first left => exact ⟨_, .count first left⟩
  | exhaust first used => exact ⟨_, .exhaust first used⟩

theorem Change.marked {n : ℕ} {r : OtaRecord n} {c c' : Fin n → Bool} {apps : Fin n → AppInfo}
    (change : Change r c call apps c') (sound : Sound r.apps fun _ => true) :
    Sound apps fun _ => true := by
  obtain ⟨_, free⟩ := change.forget
  exact (free.sound sound).forget

theorem sound_sealed_default : Sound (sealRecord crc32 L.defaultRecord).apps fun _ => true :=
  sound_default rfl

theorem Marked.after (marked : Marked crc32 d) (allowed : d.allows call) :
    Marked crc32 (d.after crc32 call) := by
  refine ⟨marked.held.after allowed, fun r' stored' => ?_⟩
  obtain ⟨r, r₁, stored, left⟩ | ⟨-, after⟩ := marked.held.after_cases allowed
  · obtain rfl := Option.some.inj (left.ready.stored.symm.trans stored')
    exact left.change.marked (marked.sound r stored)
  · rw [after, stored_recordStored] at stored'
    exact Option.some.inj stored' ▸ sound_sealed_default

theorem Marked.cut (marked : Marked crc32 d) (allowed : d.allows call) (operations : ℕ) :
    Marked crc32 (d.cut crc32 call operations) := by
  refine ⟨marked.held.cut allowed operations, fun r' stored' => ?_⟩
  obtain ⟨t, eq, ⟨r, stored, cut⟩ | ⟨-, defaulted⟩⟩ := marked.held.cut_cases allowed operations
  · rw [eq] at stored'
    obtain ⟨-, ⟨same, -⟩ | change⟩ := cut.record r' stored'
    · exact same ▸ marked.sound r stored
    · exact change.marked (marked.sound r stored)
  · rw [eq] at stored'
    exact defaulted.stored r' stored' ▸ sound_sealed_default

theorem marked_of_run {d₀ : Device L} {actions : List Action} (factory : Factory crc32 d₀)
    (run : actions.foldlM (Device.step crc32) d₀ = some d) : Marked crc32 d := by
  refine foldlM_inv (Marked crc32) (fun d action d' marked step => ?_) ⟨factory.held, ?_⟩ run
  · obtain ⟨c, -, allowed, rfl⟩ | ⟨c, operations, -, allowed, rfl⟩ := step_cases step
    · exact marked.after allowed
    · exact marked.cut allowed operations
  · intro r stored
    obtain rfl := Option.some.inj (factory.stored.symm.trans stored)
    exact sound_sealed_default

/-! ## The stream -/

variable (crc32) in
/-- Consecutive calls of `ota_module_ota_download` that succeed, and all the bytes of them. -/
inductive Streams (d : Device L) : List UInt8 → Device L → Prop
  | nil : Streams d [] d
  | next {bytes chunk : List UInt8} {d' : Device L} (before : Streams d bytes d')
      (offset : bytes.length < 2 ^ 32) (size : chunk.length < 2 ^ 32)
      (ok : d'.result crc32 (.download (UInt32.ofNat bytes.length) chunk) = .ok) :
      Streams d (bytes ++ chunk) (d'.after crc32 (.download (UInt32.ofNat bytes.length) chunk))

/-- The offsets have passed their end, and the module takes the package for unfinished. -/
def Device.Overrun (d : Device L) (hdr : OtaPackageHeader) (bytes : List UInt8) : Prop :=
  2 ^ 32 ≤ bytes.length ∧ ∃ dl, d.session.dl = some dl ∧ dl.header = hdr ∧
    dl.downloadedSize ≠ dl.expectedTotalSize

theorem Streams.sent {bytes : List UInt8} {mem : ℕ → UInt8} {limit : ℕ} (marked : Marked crc32 d)
    (start : Streaming crc32 d hdr [] i mem limit) (streams : Streams crc32 d bytes d') :
    Marked crc32 d' ∧ (∃ r, Ready crc32 d'.world d'.session r) ∧
      (bytes.length ≤ hdr.total.toNat ∧ Streaming crc32 d' hdr bytes i mem limit ∨
        d'.Overrun hdr bytes) := by
  induction streams with
  | nil => exact ⟨marked, start.ready, .inl ⟨Nat.zero_le _, start⟩⟩
  | @next bytes chunk d' before offset size ok ih =>
    obtain ⟨marked, ⟨r, ready⟩, sent⟩ := ih
    have allowed : d'.allows (.download (UInt32.ofNat bytes.length) chunk) := by
      simp [Device.allows, ready.inited]
    obtain ⟨r', left⟩ := (safe_call ready (.download (UInt32.ofNat bytes.length) chunk)).run
    refine ⟨marked.after allowed, ⟨r', left.ready⟩, ?_⟩
    obtain ⟨le, streaming⟩ | overrun := sent
    swap
    · exact absurd offset (Nat.not_lt.mpr overrun.1)
    have continued := continued ready streaming.session (UInt32.ofNat bytes.length) chunk
    have fits := UInt32.le_iff_toNat_le.mp (continued.fits ok)
    have total : ({ Download.start i hdr with downloadedSize := UInt32.ofNat bytes.length } :
      Download L).expectedTotalSize = hdr.total := rfl
    rw [total, UInt32.toNat_add, UInt32.toNat_ofNat', UInt32.toNat_ofNat', Nat.mod_eq_of_lt offset,
      Nat.mod_eq_of_lt size] at fits
    by_cases wraps : bytes.length + chunk.length < 2 ^ 32
    · rw [Nat.mod_eq_of_lt wraps] at fits
      rw [List.length_append]
      refine .inl ⟨fits, ?_⟩
      by_cases empty : chunk = []
      · subst empty
        obtain ⟨session, world⟩ := continued.empty rfl
        have same : d'.after crc32 (.download (UInt32.ofNat bytes.length) []) = d' :=
          congrArg₂ Device.mk world session
        rw [same, List.append_nil]
        exact streaming
      · exact (streaming.next empty fits).2
    · -- the size that the module has counted is smaller than before
      refine .inr ⟨by rw [List.length_append]; omega, _, continued.size ok, rfl,
        fun same => ?_⟩
      have same := congrArg UInt32.toNat same
      dsimp only [Download.start] at same
      rw [UInt32.toNat_add, UInt32.toNat_ofNat', UInt32.toNat_ofNat', Nat.mod_eq_of_lt offset,
        Nat.mod_eq_of_lt size] at same
      omega

/-! ## The check of the application -/

def World.bytes (w : World L) (start length : ℕ) : List UInt8 :=
  (List.range length).map fun k => w.flash.mem (start + k)

theorem World.bytes_append (w : World L) (start first second : ℕ) :
    w.bytes start first ++ w.bytes (start + first) second = w.bytes start (first + second) := by
  simp only [World.bytes, List.range_add, List.map_append, List.map_map]
  congr 2
  funext k
  simp [Nat.add_assoc]

theorem run_readBody_succ (rounds : ℕ) (addr remaining : UInt32) :
    let want := if remaining > flashCopyBufSize then flashCopyBufSize else remaining
    let rest := run (portHandler L) (readBody .internal rounds (addr + want) (remaining - want)) w
    run (portHandler L) (readBody .internal (rounds + 1) addr remaining) w =
      (rest.1.map (w.bytes addr.toNat want.toNat ++ ·), rest.2) := by
  intro want rest
  have answer : (portHandler L _ (.read .internal addr want) w).1 =
      some (w.bytes addr.toNat want.toNat) := if_pos (.inr rfl)
  rw [readBody, perform_bind, run_call, answer]
  dsimp only
  rw [run_bind]
  rfl

theorem run_readBody {rounds : ℕ} {addr remaining : UInt32}
    (enough : rounds = (remaining.toNat + 255) / 256)
    (below : addr.toNat + remaining.toNat < 2 ^ 32) :
    run (portHandler L) (readBody .internal rounds addr remaining) w =
      (some (w.bytes addr.toNat remaining.toNat), w) := by
  induction rounds generalizing addr remaining with
  | zero =>
    rw [show remaining.toNat = 0 by omega]
    rfl
  | succ rounds ih =>
    have size : (if remaining > flashCopyBufSize then flashCopyBufSize else remaining).toNat =
        min 256 remaining.toNat := by
      have buffer : flashCopyBufSize.toNat = 256 := rfl
      split
      · next more =>
        have := UInt32.lt_iff_toNat_lt.mp more
        omega
      · next less =>
        have := toNat_le_of_not_gt less
        omega
    rw [run_readBody_succ]
    generalize (if remaining > flashCopyBufSize then flashCopyBufSize else remaining) = want at size
    have next : (addr + want).toNat = addr.toNat + want.toNat := by
      rw [UInt32.toNat_add, Nat.mod_eq_of_lt (by omega)]
    have left : (remaining - want).toNat = remaining.toNat - want.toNat :=
      UInt32.toNat_sub_of_le _ _ (UInt32.le_iff_toNat_le.mpr (by omega))
    rw [ih (by rw [left]; omega) (by omega), next, left, Option.map_some, World.bytes_append,
      Nat.add_sub_cancel' (by omega)]

theorem run_flashCrc32AppBody {info : AppInfo} (placed : info.flashType = .internal)
    (fits : ¬ hdr.total > info.flashSize) (some : hdr.appSize ≠ 0)
    (below : info.flashAddr.toNat + hdr.appOffset.toNat + hdr.appSize.toNat < 2 ^ 32) :
    run (portHandler L) (flashCrc32AppBody crc32 info hdr) w =
      (.ok (crc32 (w.bytes (info.flashAddr.toNat + hdr.appOffset.toNat) hdr.appSize.toNat)), w) := by
  have start : (info.flashAddr + hdr.appOffset).toNat =
      info.flashAddr.toNat + hdr.appOffset.toNat := by
    rw [UInt32.toNat_add, Nat.mod_eq_of_lt (by omega)]
  rw [flashCrc32AppBody, if_neg fits, placed, run_bind, run_readBody rfl (by omega)]
  dsimp only
  rw [if_neg some, start]
  rfl

/-- What a successful `ota_module_ota_download_finish` has found and left. -/
theorem finished {dl : Download L} (ready : Ready crc32 d.world d.session r)
    (opened : d.session.dl = some dl) (some : dl.header.appSize ≠ 0)
    (fits : dl.header.appOffset.toNat + dl.header.appSize.toNat ≤ L.appSize.toNat)
    (ok : d.result crc32 .downloadFinish = .ok) :
    let flushed := (portHandler L _ (.write .internal 0 []) d.world).2
    dl.downloadedSize = dl.expectedTotalSize ∧
      crc32 (flushed.bytes ((L.appAddr dl.target).toNat + dl.header.appOffset.toNat)
        dl.header.appSize.toNat) = dl.expectedAppCrc32 ∧
      d.after crc32 .downloadFinish =
        ⟨(portHandler L _ (.crcMatched dl.target) flushed).2.recordStored crc32
          (r.setStatus dl.target .unverified), .fresh L⟩ := by
  intro flushed
  obtain ⟨type, addr, size⟩ := ready.placed dl.target
  have last := L.app_end dl.target
  have sector := L.sector_pos
  have status := (ready.opened dl opened).status
  have inside : ¬ dl.header.total > (r.apps dl.target).flashSize := by
    rw [size, gt_iff_lt, UInt32.not_lt, UInt32.le_iff_toNat_le, OtaPackageHeader.total,
      UInt32.toNat_add]
    exact (Nat.mod_le _ _).trans fits
  have safe : Safe (portHandler L) (fun _ => True) (fun a t => a.1 = .ok →
      dl.downloadedSize = dl.expectedTotalSize ∧
      crc32 (flushed.bytes ((L.appAddr dl.target).toNat + dl.header.appOffset.toNat)
        dl.header.appSize.toNat) = dl.expectedAppCrc32 ∧
      Device.mk t a.2 =
        ⟨(portHandler L _ (.crcMatched dl.target) flushed).2.recordStored crc32
          (r.setStatus dl.target .unverified), .fresh L⟩)
      (Call.downloadFinish.program crc32 d.session) d.world := by
    rw [Call.program, otaModuleOtaDownloadFinish, if_neg (by simp [ready.inited]), opened]
    refine (safe_recordLoad crc32 ready.inited trivial).bind ?_
    rintro _ _ ⟨rfl, rfl⟩
    rw [ready.loaded]
    dsimp only
    rw [if_neg (by simp), finishDownload, if_neg (not_not.mpr status), type]
    split
    · exact ⟨trivial, by simp⟩
    · next all =>
      refine safe_perform_bind.mpr ⟨trivial, ?_⟩
      refine (safe_run _ _).bind ?_
      intro crc t ends
      rw [run_flashCrc32AppBody type inside some (by rw [addr]; omega)] at ends
      obtain ⟨rfl, rfl⟩ := Prod.mk.inj ends
      rw [addr]
      dsimp only
      split
      · refine (safe_recordStore crc32 ready.inited trivial trivial trivial trivial
          (Q := fun rc _ => rc = .ok) rfl).bind ?_
        rintro _ _ rfl
        exact ⟨trivial, by simp⟩
      · next matched =>
        refine safe_perform_bind.mpr ⟨trivial, ?_⟩
        refine (safe_recordStore crc32 ready.inited trivial trivial trivial trivial
          (Q := fun rc t => rc = .ok ∧ t = (portHandler L _ (.crcMatched dl.target) flushed).2.recordStored
            crc32 (r.setStatus dl.target .unverified)) ⟨rfl, rfl⟩).bind ?_
        rintro _ _ ⟨rfl, rfl⟩
        refine ⟨trivial, fun _ => ⟨not_not.mp all, not_not.mp matched, ?_⟩⟩
        rw [Session.fresh, ready.inited]
  exact safe.run ok

/-! ## The boot -/

variable (L crc32) in
/-- The header passes the checks of `ota_calc_entry_addr_from_header`. -/
def BootHeader (h : OtaPackageHeader) : Prop :=
  packageHeaderSize ≤ L.appSize.toNat ∧ h.magic = otaPackageMagic ∧ h.headerCrc32 = crc32 h.body ∧
    h.appOffset < L.appSize

instance (h : OtaPackageHeader) : Decidable (BootHeader L crc32 h) :=
  inferInstanceAs (Decidable (_ ∧ _))

variable (crc32) in
/-- Where a slot is entered that begins with these bytes. -/
def entryAddr (i : Fin L.count) (raw : List UInt8) : UInt32 :=
  if BootHeader L crc32 (.ofBytes raw) then L.appAddr i + (OtaPackageHeader.ofBytes raw).appOffset
  else L.appAddr i

theorem run_otaCalcEntryAddrFromHeader (placed : L.Placed r) :
    run (portHandler L) (otaCalcEntryAddrFromHeader crc32 (r.apps i)) w =
      (entryAddr crc32 i (w.bytes (L.appAddr i).toNat packageHeaderSize), w) := by
  obtain ⟨type, addr, size⟩ := placed i
  have small : L.appSize < UInt32.ofNat packageHeaderSize ↔ ¬ packageHeaderSize ≤ L.appSize.toNat := by
    rw [UInt32.lt_iff_toNat_lt, Nat.not_le]
    rfl
  have answer : (portHandler L _ (.read .internal (L.appAddr i) (UInt32.ofNat packageHeaderSize)) w).1 =
      some (w.bytes (L.appAddr i).toNat packageHeaderSize) := by
    simp only [portHandler, or_true, if_true]
    rfl
  rw [otaCalcEntryAddrFromHeader, type, addr, size, entryAddr]
  by_cases room : packageHeaderSize ≤ L.appSize.toNat
  · rw [if_neg (fun less => small.mp less room), perform_bind, run_call, answer]
    dsimp only
    by_cases good : BootHeader L crc32 (.ofBytes (w.bytes (L.appAddr i).toNat packageHeaderSize))
    · rw [if_pos good, if_neg (not_not.mpr good.2.1), if_neg (not_not.mpr good.2.2.1),
        if_neg (UInt32.not_le.mpr good.2.2.2)]
      rfl
    · rw [if_neg good]
      split_ifs with magic crc offset <;> try rfl
      exact absurd ⟨room, not_not.mp magic, not_not.mp crc, UInt32.not_le.mp offset⟩ good
  · rw [if_pos (small.mpr room), if_neg fun good => room good.1]
    rfl

/-- A new image is booted at the address that its slot says. -/
theorem boots (ready : Ready crc32 d.world d.session r) (first : r.firstWith .unverified = some i)
    (count : (r.apps i).verifyCount = 0) :
    let after := (d.after crc32 .bootPreprocess).world
    (∀ a, (L.appAddr i).toNat ≤ a → a < (L.appAddr i).toNat + L.appSize.toNat →
        after.flash.mem a = d.world.flash.mem a) ∧
      ∃ raw, (packageHeaderSize ≤ L.appSize.toNat →
          raw = d.world.bytes (L.appAddr i).toNat packageHeaderSize) ∧
        after.jumps = d.world.jumps ++ [⟨i, entryAddr crc32 i raw, d.world.complete i⟩] := by
  have apart := L.record_apart i
  let stored := d.world.recordStored crc32 (r.countBoot i)
  have same : ∀ a, (L.appAddr i).toNat ≤ a → a < (L.appAddr i).toNat + L.appSize.toNat →
      stored.flash.mem a = d.world.flash.mem a :=
    fun a first last => mem_recordStored crc32 _ _ (by omega)
  have raw (room : packageHeaderSize ≤ L.appSize.toNat) :
      stored.bytes (L.appAddr i).toNat packageHeaderSize =
        d.world.bytes (L.appAddr i).toNat packageHeaderSize :=
    List.map_congr_left fun k inside =>
      same _ (Nat.le_add_right _ _) (by have := List.mem_range.mp inside; omega)
  have safe : Safe (portHandler L) (fun _ => True) (fun _ t => t.flash = stored.flash ∧
      t.jumps = d.world.jumps ++ [⟨i, entryAddr crc32 i
        (stored.bytes (L.appAddr i).toNat packageHeaderSize), d.world.complete i⟩])
      (Call.bootPreprocess.program crc32 d.session) d.world := by
    rw [Call.program, otaModuleBootPreprocess, Prog.bind_assoc]
    refine (safe_recordLoad crc32 ready.inited trivial).bind ?_
    rintro _ _ ⟨rfl, rfl⟩
    rw [ready.loaded]
    dsimp only
    rw [first]
    dsimp only
    rw [count, if_neg (by decide), Prog.bind_assoc]
    refine (safe_recordStore crc32 ready.inited trivial trivial trivial trivial
      (Q := fun rc t => rc = .ok ∧ t = stored) ⟨rfl, rfl⟩).bind ?_
    rintro _ _ ⟨rfl, rfl⟩
    rw [if_neg (by simp), jumpToSlot, Prog.bind_assoc]
    refine (safe_run _ _).bind ?_
    intro entry t ends
    rw [run_otaCalcEntryAddrFromHeader (ready.placed.countBoot i)] at ends
    obtain ⟨rfl, rfl⟩ := Prod.mk.inj ends
    rw [Prog.bind_assoc]
    refine safe_perform_bind.mpr ⟨trivial, ?_⟩
    split <;> exact ⟨trivial, rfl, rfl⟩
  obtain ⟨flash, jumps⟩ := safe.run
  refine ⟨fun a first last => ?_, _, raw, jumps⟩
  exact (congrArg (·.mem a) flash).trans (same a first last)

/-! ## The two headers -/

/-- The first bytes of a slot with a package: those of the stream, erased ones, then old ones. -/
def Device.slotHead (d : Device L) (i : Fin L.count) (hdr : OtaPackageHeader) (bytes : List UInt8) :
    List UInt8 :=
  (List.range packageHeaderSize).map fun k => (bytes[k]?).getD
    (if k < (alignUp hdr.total L.sectorSize).toNat then erasedByte
      else d.world.flash.mem ((L.appAddr i).toNat + k))

variable (L crc32) in
/-- A header that passes the checks at boot has the offset of the package; if there is none, the offset
is 0. -/
def Agrees (hdr : OtaPackageHeader) (head : List UInt8) : Prop :=
  (BootHeader L crc32 (.ofBytes head) →
    (OtaPackageHeader.ofBytes head).appOffset = hdr.appOffset) ∧
  (¬ BootHeader L crc32 (.ofBytes head) → hdr.appOffset = 0)

variable (crc32) in
/-- The next `ota_module_boot_preprocess` jumps to the application, which is all there and has the CRC
of the header. -/
def Device.Enters (d : Device L) (i : Fin L.count) (hdr : OtaPackageHeader) : Prop :=
  let after := (d.after crc32 .bootPreprocess).world
  after.jumps = d.world.jumps ++ [⟨i, L.appAddr i + hdr.appOffset, true⟩] ∧
    0 < hdr.appSize.toNat ∧ hdr.appOffset.toNat + hdr.appSize.toNat ≤ L.appSize.toNat ∧
    crc32 (after.bytes ((L.appAddr i).toNat + hdr.appOffset.toNat) hdr.appSize.toNat) = hdr.appCrc32

theorem entryAddr_eq_iff {raw head : List UInt8}
    (same : packageHeaderSize ≤ L.appSize.toNat → raw = head) :
    entryAddr crc32 i raw = L.appAddr i + hdr.appOffset ↔ Agrees L crc32 hdr head := by
  by_cases good : BootHeader L crc32 (.ofBytes head)
  · rw [same good.1, entryAddr, if_pos good, add_right_inj]
    exact ⟨fun equal => ⟨fun _ => equal, fun bad => absurd good bad⟩, fun agrees => agrees.1 good⟩
  · have entry : entryAddr crc32 i raw = L.appAddr i := by
      by_cases room : packageHeaderSize ≤ L.appSize.toNat
      · rw [same room, entryAddr, if_neg good]
      · exact if_neg fun good => room good.1
    rw [entry, left_eq_add]
    exact ⟨fun zero => ⟨fun bad => absurd bad good, fun _ => zero⟩, fun agrees => agrees.2 good⟩

/-- Resetting the device between the download and the boot changes nothing. -/
theorem reset_after_finish (w : World L) (r : OtaRecord L.count) :
    ((⟨w.recordStored crc32 r, .fresh L⟩ : Device L).cut crc32 .init 0).after crc32 .init =
      ⟨w.recordStored crc32 r, .fresh L⟩ := by
  have cut : (⟨w.recordStored crc32 r, .fresh L⟩ : Device L).cut crc32 .init 0 =
      ⟨w.recordStored crc32 r, .off L⟩ := by
    rw [Device.cut, runFor_zero]
    rfl
  have safe : Safe (portHandler L) (fun _ => True)
      (fun a t => a.2 = .fresh L ∧ t = w.recordStored crc32 r) (otaModuleInit crc32)
      (w.recordStored crc32 r) := by
    refine (safe_recordLoad crc32 rfl trivial).bind ?_
    rintro _ _ ⟨rfl, rfl⟩
    rw [World.loaded, stored_recordStored]
    exact ⟨trivial, rfl, rfl⟩
  obtain ⟨session, world⟩ := safe.run
  rw [cut]
  exact congrArg₂ Device.mk world session

theorem firstWith_finished (sound : Sound (r.setStatus i .unverified).apps fun _ => true) :
    (r.setStatus i .unverified).firstWith .unverified = some i := by
  refine OtaRecord.firstWith_eq_some (r.setStatus_self i _) fun j unverified => ?_
  by_contra other
  have active := sound.others_active (by rw [r.setStatus_self]; simp) other
  rw [active] at unverified
  cases unverified

section Package

variable {dl : Download L} {bytes : List UInt8} {d₁ : Device L} {mem : ℕ → UInt8} {limit : ℕ}

theorem flushed_streaming (streaming : Streaming crc32 d' hdr bytes i mem limit)
    (fits : bytes.length ≤ limit) :
    (portHandler L _ (.write .internal 0 []) d'.world).2.flash =
      ⟨Flash.put mem (L.appAddr i).toNat bytes, none⟩ := by
  simp only [portHandler, if_true, streaming.flash, Flash.write_nil_streamed streaming.blank fits]

/-- A package that is finished is booted as the bytes at the start of its slot say. -/
theorem finished_enters (some : hdr.appSize ≠ 0) (marked : Marked crc32 d')
    (streaming : Streaming crc32 d' hdr bytes i mem limit) (le : bytes.length ≤ hdr.total.toNat)
    (fits : hdr.appOffset.toNat + hdr.appSize.toNat ≤ L.appSize.toNat)
    (ok : d'.result crc32 .downloadFinish = .ok) {head : List UInt8}
    (heads : packageHeaderSize ≤ L.appSize.toNat → head = (List.range packageHeaderSize).map fun k =>
      Flash.put mem (L.appAddr i).toNat bytes ((L.appAddr i).toNat + k)) :
    (d'.after crc32 .downloadFinish).Enters crc32 i hdr ↔ Agrees L crc32 hdr head := by
  obtain ⟨r, ready⟩ := streaming.ready
  obtain ⟨-, crc, after⟩ := finished ready streaming.session some fits ok
  have flash := flushed_streaming streaming (le.trans streaming.room)
  have allowed : d'.allows .downloadFinish := by simp [Device.allows, ready.inited]
  have next := marked.after allowed
  rw [after] at next ⊢
  dsimp only [Download.start] at crc next ⊢
  generalize (portHandler L _ (.write .internal 0 []) d'.world).2 = flushed at flash crc next ⊢
  have stored := stored_recordStored crc32 (portHandler L _ (.crcMatched i) flushed).2
    (r.setStatus i .unverified)
  obtain ⟨r', ready'⟩ := next.held.ready rfl
  obtain rfl := Option.some.inj (ready'.stored.symm.trans stored)
  have apart := L.record_apart i
  have same : ∀ a, (L.appAddr i).toNat ≤ a → a < (L.appAddr i).toNat + L.appSize.toNat →
      ((portHandler L _ (.crcMatched i) flushed).2.recordStored crc32
        (r.setStatus i .unverified)).flash.mem a = flushed.flash.mem a :=
    fun a first last => mem_recordStored crc32 _ _ (by omega)
  have sound : Sound (r.setStatus i .unverified).apps fun _ => true :=
    next.sound (sealRecord crc32 (r.setStatus i .unverified)) stored
  have first : (sealRecord crc32 (r.setStatus i .unverified)).firstWith .unverified = .some i :=
    firstWith_finished sound
  obtain ⟨kept, raw, heading, jumps⟩ := boots ready' first (by simp [sealRecord, OtaRecord.setStatus])
  have code : (Device.after crc32 ⟨(portHandler L _ (.crcMatched i) flushed).2.recordStored crc32
      (r.setStatus i .unverified), .fresh L⟩ .bootPreprocess).world.bytes
        ((L.appAddr i).toNat + hdr.appOffset.toNat) hdr.appSize.toNat =
      flushed.bytes ((L.appAddr i).toNat + hdr.appOffset.toNat) hdr.appSize.toNat := by
    refine List.map_congr_left fun k inside => ?_
    have := List.mem_range.mp inside
    exact (kept _ (by omega) (by omega)).trans (same _ (by omega) (by omega))
  have found (room : packageHeaderSize ≤ L.appSize.toNat) : raw = head := by
    rw [heading room, heads room]
    refine List.map_congr_left fun k inside => ?_
    have := List.mem_range.mp inside
    exact (same _ (by omega) (by omega)).trans (congrFun (congrArg Flash.mem flash) _)
  have size : 0 < hdr.appSize.toNat := one_le_toNat some
  have complete : ((portHandler L _ (.crcMatched i) flushed).2.recordStored crc32
      (r.setStatus i .unverified)).complete i = true := by
    simp [portHandler, World.recordStored]
  rw [Device.Enters, ← entryAddr_eq_iff (i := i) found]
  dsimp only at jumps ⊢
  rw [jumps, complete, code, crc]
  simp [size, fits]

/-- An installed application is entered, and is there, exactly if it is not empty, lies below the
end of the offsets, and the stream carries a header that agrees. -/
theorem enters_iff {d₀ b : Device L} {actions : List Action} (factory : Factory crc32 d₀)
    (run : actions.foldlM (Device.step crc32) d₀ = some d)
    (accepted : d.result crc32 (.downloadStart hdr) = .ok)
    (opened : (d.after crc32 (.downloadStart hdr)).session.dl = some dl)
    (streams : Streams crc32 (d.after crc32 (.downloadStart hdr)) bytes d')
    (ok : d'.result crc32 .downloadFinish = .ok)
    (booted : b = d'.after crc32 .downloadFinish ∨
      b = ((d'.after crc32 .downloadFinish).cut crc32 .init 0).after crc32 .init) :
    b.Enters crc32 dl.target hdr ↔ 0 < hdr.appSize.toNat ∧
      hdr.appOffset.toNat + hdr.appSize.toNat < 2 ^ 32 ∧
      Agrees L crc32 hdr (d.slotHead dl.target hdr bytes) := by
  by_cases sane : 0 < hdr.appSize.toNat ∧ hdr.appOffset.toNat + hdr.appSize.toNat < 2 ^ 32
  swap
  · refine ⟨fun enters => absurd ⟨enters.2.1, ?_⟩ sane, fun holds => absurd ⟨holds.1, holds.2.1⟩ sane⟩
    exact enters.2.2.1.trans_lt L.appSize.toNat_lt
  obtain ⟨size, below⟩ := sane
  have total : hdr.total.toNat = hdr.appOffset.toNat + hdr.appSize.toNat := by
    rw [OtaPackageHeader.total, UInt32.toNat_add, Nat.mod_eq_of_lt below]
  have some : hdr.appSize ≠ 0 := by
    rintro zero
    simp [zero] at size
  have whole : hdr.total ≠ 0 := by
    intro zero
    simp [zero] at total
    omega
  have marked := marked_of_run factory run
  have inited := inited_of_accepted accepted
  obtain ⟨r, ready⟩ := marked.held.ready inited
  have allowed : d.allows (.downloadStart hdr) := by simp [Device.allows, inited]
  obtain ⟨i, streaming, before⟩ := Streaming.start ready whole accepted
  obtain rfl : i = dl.target :=
    congrArg Download.target (Option.some.inj (streaming.session.symm.trans opened))
  have fits : hdr.appOffset.toNat + hdr.appSize.toNat ≤ L.appSize.toNat :=
    total ▸ streaming.room.trans streaming.inside
  obtain ⟨marked', ⟨r', ready'⟩, ⟨le, sent⟩ | ⟨-, dl', still, rfl, unfinished⟩⟩ :=
    streams.sent (marked.after allowed) streaming
  swap
  · exact absurd (finished ready' still some fits ok).1 unfinished
  have same : b = d'.after crc32 .downloadFinish := by
    obtain rfl | rfl := booted
    · rfl
    · rw [(finished ready' sent.session some fits ok).2.2]
      exact reset_after_finish _ _
  rw [same, finished_enters some marked' sent le fits ok]
  · exact ⟨fun agrees => ⟨size, below, agrees⟩, fun holds => holds.2.2⟩
  · intro room
    refine List.map_congr_left fun k inside => ?_
    have := List.mem_range.mp inside
    rw [Flash.put, if_pos (Nat.le_add_right _ _), Nat.add_sub_cancel_left,
      before _ (Nat.le_add_right _ _) (by omega)]
    simp only [Nat.add_lt_add_iff_left]

end Package

instance (hdr : OtaPackageHeader) (head : List UInt8) : Decidable (Agrees L crc32 hdr head) :=
  inferInstanceAs (Decidable (_ ∧ _))

end Entry

/-! ## On the board -/

/-- The board after a package has been downloaded in one call. -/
def downloaded (hdr : OtaPackageHeader) (bytes : List UInt8) : Device Layout.board :=
  (started.after stm32g0xxCrc32 (.downloadStart hdr)).after stm32g0xxCrc32 (.download 0 bytes)

/-- What the calls of a download answer, and where the next boot then jumps. -/
def installs (hdr : OtaPackageHeader) (bytes : List UInt8) : List OtaErr × List UInt32 :=
  let finished := (downloaded hdr bytes).after stm32g0xxCrc32 .downloadFinish
  ([started.result stm32g0xxCrc32 (.downloadStart hdr),
    (started.after stm32g0xxCrc32 (.downloadStart hdr)).result stm32g0xxCrc32 (.download 0 bytes),
    (downloaded hdr bytes).result stm32g0xxCrc32 .downloadFinish],
    (finished.after stm32g0xxCrc32 .bootPreprocess).world.jumps.map Jump.entry)

def emptyPackage : OtaPackageHeader :=
  let unsigned : OtaPackageHeader :=
    { magic := otaPackageMagic, buildTimestamp := 0, appOffset := 0, appSize := 0
      appCrc32 := 0, appVersion := .replicate _ 0, headerCrc32 := 0 }
  { unsigned with headerCrc32 := stm32g0xxCrc32 unsigned.body }

set_option maxRecDepth 100000 in
/-- Zeros in place of the header, and a package without an application, are installed and entered.
-/
theorem installs_disagreeing :
    installs smallPackage (.replicate 64 0) = ([.ok, .ok, .ok], [0x08010000]) ∧
    (0x08010000 : UInt32) ≠ Layout.board.appAddr Layout.board.slot0 + smallPackage.appOffset ∧
    installs emptyPackage [] = ([.ok, .ok, .ok], [0x08010000]) ∧ emptyPackage.appSize = 0 := by
  decide +kernel

set_option maxRecDepth 100000 in
theorem installs_wholePackage : installs smallPackage wholePackage = ([.ok, .ok, .ok], [0x08010038]) := by
  decide +kernel

set_option maxRecDepth 100000 in
theorem agrees_wholePackage : Agrees Layout.board stm32g0xxCrc32 smallPackage
    (started.slotHead Layout.board.slot0 smallPackage wholePackage) := by
  decide +kernel

set_option maxRecDepth 100000 in
theorem accepting_opened : accepting.session.dl.isSome := by decide +kernel

theorem enters_wholePackage :
    ((downloaded smallPackage wholePackage).after stm32g0xxCrc32 .downloadFinish).Enters
      stm32g0xxCrc32 Layout.board.slot0 smallPackage := by
  obtain ⟨answers, -⟩ := Prod.mk.inj installs_wholePackage
  obtain ⟨-, written, finished⟩ : _ ∧ _ ∧ _ := by simpa using answers
  obtain ⟨dl, opened⟩ := Option.isSome_iff_exists.mp accepting_opened
  have target : dl.target = Layout.board.slot0 := Subsingleton.elim (α := Fin 1) _ _
  have run : [Action.call .init].foldlM (Device.step stm32g0xxCrc32) delivered = some started := rfl
  have zero : UInt32.ofNat ([] : List UInt8).length = 0 := rfl
  have size : wholePackage.length < 2 ^ 32 := by decide +kernel
  have nothing : Streams stm32g0xxCrc32 accepting [] accepting := .nil
  have streams := nothing.next (by decide) size (by rw [zero]; exact written)
  rw [zero, List.nil_append] at streams
  have agrees := agrees_wholePackage
  rw [← target] at agrees ⊢
  exact (enters_iff delivered_factory run started_accepts opened streams finished (.inl rfl)).mpr
    ⟨by decide, by decide, agrees⟩

end NeoRuntime.Ota
