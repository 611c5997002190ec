import NeoRuntime.Ota.Runs

/-!
# A package written in one go

Once `ota_module_ota_download_start` has accepted a package, every `ota_module_ota_download` that
continues it where the last one ended succeeds, up to the end of the package.
-/

namespace NeoRuntime.Ota

open Prog

section Stream

variable {L : Layout} (crc32 : List UInt8 → UInt32)

def Device.result (d : Device L) (c : Call) : OtaErr :=
  (run (portHandler L) (c.program crc32 d.session) d.world).1.1

/-- The package is being downloaded into slot `i`, and `bytes` of it are there; `mem` is the flash
before the first of them. -/
structure Streaming (d : Device L) (hdr : OtaPackageHeader) (bytes : List UInt8) (i : Fin L.count)
    (mem : ℕ → UInt8) (limit : ℕ) : Prop where
  ready : ∃ r, Ready crc32 d.world d.session r
  session : d.session.dl =
    some { Download.start i hdr with downloadedSize := UInt32.ofNat bytes.length }
  flash : d.world.flash = Flash.streamed mem (L.appAddr i).toNat bytes
  blank : Flash.Blank mem (L.appAddr i).toNat limit
  room : hdr.total.toNat ≤ limit
  inside : limit ≤ L.appSize.toNat

/-- The package is being downloaded, and `bytes` of it are there. -/
def Downloading (d : Device L) (hdr : OtaPackageHeader) (bytes : List UInt8) : Prop :=
  ∃ i mem limit, Streaming crc32 d hdr bytes i mem limit

variable {crc32} {d : Device L} {hdr : OtaPackageHeader} {r : OtaRecord L.count} {w : World L}
  {s : Session L}

theorem safe_downloadInto {i : Fin L.count} (ready : Ready crc32 w s r) :
    Safe (portHandler L) (fun _ => True) (fun a t => a.1 = .ok → hdr.total.toNat ≤ L.appSize.toNat ∧
        a.2.dl = some (.start i hdr) ∧
        t = (w.slotErased i hdr.total).recordStored crc32 (r.setStatus i .downloading))
      (downloadInto crc32 s hdr r i) w := by
  obtain ⟨type, addr, size⟩ := ready.placed i
  unfold downloadInto
  rw [type, addr, size]
  split
  · exact ⟨trivial, by simp⟩
  · split
    · exact ⟨trivial, by simp⟩
    · next fits =>
      split
      · exact ⟨trivial, by simp⟩
      · refine (safe_eraseSlot trivial trivial).bind ?_
        rintro _ _ ⟨rfl, rfl⟩
        rw [if_neg (by simp)]
        refine (safe_recordStore crc32 ready.inited trivial trivial trivial trivial
          (Q := fun rc t => rc = .ok ∧
            t = (w.slotErased i hdr.total).recordStored crc32 (r.setStatus i .downloading))
          ⟨rfl, rfl⟩).bind ?_
        rintro _ _ ⟨rfl, rfl⟩
        rw [if_neg (by simp)]
        exact ⟨trivial, fun _ => ⟨toNat_le_of_not_gt fits, rfl, rfl⟩⟩

theorem safe_downloadStart (ready : Ready crc32 w s r) (hdr : OtaPackageHeader) :
    Safe (portHandler L) (fun _ => True) (fun a t => a.1 = .ok → ∃ i,
        hdr.total.toNat ≤ L.appSize.toNat ∧ a.2.dl = some (.start i hdr) ∧
        t = (w.slotErased i hdr.total).recordStored crc32 (r.setStatus i .downloading))
      (otaModuleOtaDownloadStart crc32 s hdr) w := by
  rw [otaModuleOtaDownloadStart, if_neg (by simp [ready.inited])]
  split
  · exact ⟨trivial, by simp⟩
  · split
    · exact ⟨trivial, by simp⟩
    · split
      · exact ⟨trivial, by simp⟩
      · refine (safe_recordLoad crc32 ready.inited trivial).bind ?_
        rintro _ _ ⟨rfl, rfl⟩
        rw [ready.loaded]
        dsimp only
        cases target : r.chooseTargetOtaSlot with
        | none => exact ⟨trivial, by simp⟩
        | some i =>
          exact (safe_downloadInto ready).mono (fun _ _ => trivial) fun a t post ok => ⟨i, post ok⟩

/-- An accepted package starts with an erased slot, and behind the erased sectors nothing is changed. -/
theorem Streaming.start (ready : Ready crc32 d.world d.session r) (some : hdr.total ≠ 0)
    (accepted : d.result crc32 (.downloadStart hdr) = .ok) :
    let d' := d.after crc32 (.downloadStart hdr)
    let erased := (alignUp hdr.total L.sectorSize).toNat
    ∃ i, Streaming crc32 d' hdr [] i d'.world.flash.mem erased ∧
      ∀ a, (L.appAddr i).toNat ≤ a → a < (L.appAddr i).toNat + L.appSize.toNat →
        d'.world.flash.mem a =
          if a < (L.appAddr i).toNat + erased then erasedByte else d.world.flash.mem a := by
  intro d' erased
  obtain ⟨i, le, dl, world⟩ := (safe_downloadStart ready hdr).run accepted
  obtain ⟨r', left⟩ := (safe_call ready (.downloadStart hdr)).run
  have sector : 8 ∣ L.sectorSize.toNat := Nat.dvd_of_mod_eq_zero L.sector_words
  have aligned := alignUp_mod (v := hdr.total) L.sector_ne_zero (L.size_fits le)
  have inside : erased ≤ L.appSize.toNat := L.erased_le le
  have bytes : ∀ a, (L.appAddr i).toNat ≤ a → a < (L.appAddr i).toNat + L.appSize.toNat →
      d'.world.flash.mem a =
        if a < (L.appAddr i).toNat + erased then erasedByte else d.world.flash.mem a := by
    intro a first last
    have apart := L.record_apart i
    calc d'.world.flash.mem a
        = ((d.world.slotErased i hdr.total).recordStored crc32
            (r.setStatus i .downloading)).flash.mem a := congrArg (·.flash.mem a) world
      _ = (d.world.slotErased i hdr.total).flash.mem a := mem_recordStored crc32 _ _ (by omega)
      _ = if a < (L.appAddr i).toNat + erased then erasedByte else d.world.flash.mem a := by
        rw [flash_slotErased le some]
        simp only [first, true_and]
        rfl
  refine ⟨i, ⟨⟨r', left.ready⟩, dl, ?_, ⟨fun a first last => ?_, ?_⟩,
    le_alignUp L.sector_ne_zero (L.size_fits le), inside⟩, bytes⟩
  · rw [Flash.streamed_nil]
    exact congrArg World.flash world ▸ rfl
  · rw [bytes a first (by omega), if_pos last]
  · exact Nat.mod_eq_zero_of_dvd (sector.trans (Nat.dvd_of_mod_eq_zero aligned))

theorem Downloading.start (ready : Ready crc32 d.world d.session r) (some : hdr.total ≠ 0)
    (accepted : d.result crc32 (.downloadStart hdr) = .ok) :
    Downloading crc32 (d.after crc32 (.downloadStart hdr)) hdr [] := by
  obtain ⟨i, streaming, -⟩ := Streaming.start ready some accepted
  exact ⟨i, _, _, streaming⟩

section Chunk

variable {dl : Download L} {mem : ℕ → UInt8} {limit : ℕ} {bytes data : List UInt8}

theorem safe_downloadChunk (ready : Ready crc32 w s r) (eq : s.dl = some dl)
    (flash : w.flash = Flash.streamed mem (L.appAddr dl.target).toNat bytes)
    (blank : Flash.Blank mem (L.appAddr dl.target).toNat limit)
    (room : dl.expectedTotalSize.toNat ≤ limit) (inside : limit ≤ L.appSize.toNat)
    (size : dl.downloadedSize = UInt32.ofNat bytes.length) (nonempty : data ≠ [])
    (fits : bytes.length + data.length ≤ dl.expectedTotalSize.toNat) :
    Safe (portHandler L) (fun _ => True) (fun a t => a.1 = .ok ∧
        a.2.dl = some { dl with downloadedSize := UInt32.ofNat (bytes ++ data).length } ∧
        t.flash = Flash.streamed mem (L.appAddr dl.target).toNat (bytes ++ data))
      (downloadChunk s dl (r.apps dl.target) (UInt32.ofNat bytes.length) data) w := by
  obtain ⟨type, addr, length⟩ := ready.placed dl.target
  have opened := ready.opened dl eq
  have last := L.app_end dl.target
  have sector := L.sector_pos
  have nonzero := List.length_pos_of_ne_nil nonempty
  have before : (UInt32.ofNat bytes.length).toNat = bytes.length := by
    rw [UInt32.toNat_ofNat', Nat.mod_eq_of_lt (by omega)]
  have chunk : (UInt32.ofNat data.length).toNat = data.length := by
    rw [UInt32.toNat_ofNat', Nat.mod_eq_of_lt (by omega)]
  have after : (UInt32.ofNat bytes.length + UInt32.ofNat data.length).toNat =
      bytes.length + data.length := by
    rw [UInt32.toNat_add, before, chunk, Nat.mod_eq_of_lt (by omega)]
  have dst : (L.appAddr dl.target + UInt32.ofNat bytes.length).toNat =
      (L.appAddr dl.target).toNat + bytes.length := by
    rw [UInt32.toNat_add, before, Nat.mod_eq_of_lt (by omega)]
  have stop : (L.appAddr dl.target + UInt32.ofNat bytes.length + UInt32.ofNat data.length).toNat =
      (L.appAddr dl.target).toNat + bytes.length + data.length := by
    rw [UInt32.toNat_add, dst, chunk, Nat.mod_eq_of_lt (by omega)]
  have words : (L.appAddr dl.target).toNat % 8 = 0 :=
    Nat.mod_eq_zero_of_dvd ((Nat.dvd_of_mod_eq_zero L.sector_words).trans
      (Nat.dvd_of_mod_eq_zero (L.app_aligned dl.target)))
  have written := Flash.write_streamed blank (by omega) words nonempty
    (fits.trans room) dst
  have zero : UInt32.ofNat data.length ≠ 0 := fun zero => by simp [zero] at chunk; omega
  simp only [downloadChunk]
  rw [type, addr, length, if_neg (by simp [opened.status]), if_neg (by simp [size]),
    if_neg (by rw [gt_iff_lt, UInt32.lt_iff_toNat_lt, after]; omega), if_neg zero,
    if_neg (by rw [gt_iff_lt, UInt32.lt_iff_toNat_lt, stop, L.toNat_appEnd]; omega)]
  refine safe_perform_bind.mpr ⟨trivial, ?_⟩
  have answer : (portHandler L _ (.write .internal (L.appAddr dl.target + UInt32.ofNat bytes.length)
      data) w).1 = true := by
    simp only [portHandler, if_true, flash, written]
  rw [if_pos answer]
  refine ⟨trivial, rfl, ?_, ?_⟩
  · rw [size, List.length_append, UInt32.ofNat_add]
  · simp only [portHandler, if_true, flash, written]

end Chunk

theorem Streaming.next {bytes data : List UInt8} {i : Fin L.count} {mem : ℕ → UInt8} {limit : ℕ}
    (streaming : Streaming crc32 d hdr bytes i mem limit) (nonempty : data ≠ [])
    (fits : bytes.length + data.length ≤ hdr.total.toNat) :
    d.result crc32 (.download (UInt32.ofNat bytes.length) data) = .ok ∧
      Streaming crc32 (d.after crc32 (.download (UInt32.ofNat bytes.length) data)) hdr
        (bytes ++ data) i mem limit := by
  obtain ⟨⟨r, ready⟩, session, flash, blank, room, inside⟩ := streaming
  have safe : Safe (portHandler L) (fun _ => True) (fun a t => a.1 = .ok ∧
      a.2.dl = some { Download.start i hdr with
        downloadedSize := UInt32.ofNat (bytes ++ data).length } ∧
      t.flash = Flash.streamed mem (L.appAddr i).toNat (bytes ++ data))
      ((Call.download (UInt32.ofNat bytes.length) data).program crc32 d.session) d.world := by
    rw [Call.program, otaModuleOtaDownload, if_neg (by simp [ready.inited]), session]
    refine (safe_recordLoad crc32 ready.inited trivial).bind ?_
    rintro _ _ ⟨rfl, rfl⟩
    rw [ready.loaded]
    exact safe_downloadChunk ready session flash blank room inside rfl nonempty fits
  obtain ⟨ok, dl, stream⟩ := safe.run
  obtain ⟨r', left⟩ := (safe_call ready (.download (UInt32.ofNat bytes.length) data)).run
  exact ⟨ok, ⟨r', left.ready⟩, dl, stream, blank, room, inside⟩

theorem Downloading.next {bytes data : List UInt8} (downloading : Downloading crc32 d hdr bytes)
    (nonempty : data ≠ []) (fits : bytes.length + data.length ≤ hdr.total.toNat) :
    d.result crc32 (.download (UInt32.ofNat bytes.length) data) = .ok ∧
      Downloading crc32 (d.after crc32 (.download (UInt32.ofNat bytes.length) data)) hdr
        (bytes ++ data) := by
  obtain ⟨i, mem, limit, streaming⟩ := downloading
  obtain ⟨ok, next⟩ := streaming.next nonempty fits
  exact ⟨ok, i, mem, limit, next⟩

end Stream

end NeoRuntime.Ota
