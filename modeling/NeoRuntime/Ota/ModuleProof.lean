import NeoRuntime.Ota.Device
import NeoRuntime.Ota.FlashProof
import NeoRuntime.Ota.RecordProof

/-!
# What the helpers of the OTA module do to the platform

The record is seen through `World.stored`, the record that `record_load` would find.  For each helper
that touches the flash there is one statement about the program logic `Safe`, which also says what
operations have been made: loading changes nothing, storing passes through states with no record or
the new one, erasing and writing a slot leave the record alone.
-/

namespace NeoRuntime.Ota

open Prog

section Platform

variable {L : Layout} (crc32 : List UInt8 → UInt32)

def World.stored (w : World L) : Option (OtaRecord L.count) :=
  parseRecord crc32 L.count (w.flash.read L.recordAddr (UInt32.ofNat L.recordSize))

/-- The double word at `d` lies in the slot. -/
def Layout.InSlot (L : Layout) (i : Fin L.count) (d : ℕ) : Prop :=
  (L.appAddr i).toNat ≤ d ∧ d + 8 ≤ (L.appAddr i).toNat + L.appSize.toNat

/-- The cached double word lies in a slot that is not complete. -/
def World.Tidy (w : World L) : Prop :=
  ∀ c, w.flash.cache = some c → ∃ i, L.InSlot i c.addr ∧ w.complete i = false

theorem Layout.sector_pos (L : Layout) : 0 < L.sectorSize.toNat := by
  have := L.record_fits
  unfold OtaRecord.size at this
  omega

theorem Layout.sector_ne_zero (L : Layout) : L.sectorSize ≠ 0 := by
  intro zero
  have := L.sector_pos
  rw [zero] at this
  exact absurd this (by decide)

theorem Layout.recordSize_lt (L : Layout) : L.recordSize < 2 ^ 32 :=
  L.record_fits.trans_lt L.sectorSize.toNat_lt

theorem Layout.toNat_recordSize (L : Layout) : (UInt32.ofNat L.recordSize).toNat = L.recordSize := by
  rw [UInt32.toNat_ofNat', Nat.mod_eq_of_lt L.recordSize_lt]

variable {w : World L} {m : List (Mark L)} {C : World L → Prop}
  {D : World L × List (Mark L) → Prop}

theorem World.stored_congr {w' : World L}
    (same : ∀ a, L.recordAddr.toNat ≤ a → a < L.recordAddr.toNat + L.sectorSize.toNat →
      w'.flash.mem a = w.flash.mem a) : w'.stored crc32 = w.stored crc32 := by
  have read : w'.flash.read L.recordAddr (UInt32.ofNat L.recordSize) =
      w.flash.read L.recordAddr (UInt32.ofNat L.recordSize) := by
    refine List.map_congr_left fun k mem => ?_
    rw [List.mem_range, L.toNat_recordSize] at mem
    have := L.record_fits
    exact same _ (Nat.le_add_right _ _) (by unfold Layout.recordSize at mem; omega)
  rw [stored, stored, read]

/-! ## Loading and storing the record -/

/-- What `record_load` answers. -/
def World.loaded (w : World L) : OtaErr × OtaRecord L.count :=
  match w.stored crc32 with
  | some r => (.ok, r)
  | none => (.recordInvalid, L.defaultRecord)

theorem markHandler_eq {β : Type} (op : FlashOp L β) : markHandler L _ op (w, m) =
    ((portHandler L _ op w).1, (portHandler L _ op w).2, m ++ (mark _ op).toList) := rfl

theorem markHandler_of {β : Type} {op : FlashOp L β} {a : β} {t : World L}
    (eq : portHandler L _ op w = (a, t)) :
    markHandler L _ op (w, m) = (a, t, m ++ (mark _ op).toList) := by
  rw [markHandler_eq, eq]

theorem marks_recordLoad {s : Session L} (inited : s.inited = true) (here : D (w, m)) :
    Safe (markHandler L) D (fun a t => a = w.loaded crc32 ∧ t = (w, m)) (recordLoad crc32 s)
      (w, m) := by
  have read : markHandler L _ (.read .internal L.recordAddr (UInt32.ofNat L.recordSize)) (w, m) =
      (some (w.flash.read L.recordAddr (UInt32.ofNat L.recordSize)), w, m) := by
    simp [markHandler, logged, portHandler, mark]
  rw [recordLoad, if_neg (by simp [inited]), safe_perform_bind, read]
  refine ⟨here, ?_⟩
  simp only [World.loaded, World.stored]
  cases parseRecord crc32 L.count (w.flash.read L.recordAddr (UInt32.ofNat L.recordSize)) with
  | none => exact ⟨here, rfl, rfl⟩
  | some r => exact ⟨here, rfl, rfl⟩

theorem safe_recordLoad {s : Session L} (inited : s.inited = true) (here : C w) :
    Safe (portHandler L) C (fun a t => a = w.loaded crc32 ∧ t = w) (recordLoad crc32 s) w := by
  have marks := marks_recordLoad crc32 (m := []) (D := fun t => C t.1) inited here
  exact Safe.unlogged (marks.mono (fun _ cut => cut) fun _ _ post => ⟨post.1, by rw [post.2]⟩)

section

variable (w)

def World.recordErased : World L :=
  let page := fun a => if L.recordAddr.toNat ≤ a ∧ a < L.recordAddr.toNat + L.sectorSize.toNat
    then erasedByte else w.flash.mem a
  { w with flash := { mem := page, cache := none } }

/-- The record is written, the end of it perhaps only into the cache. -/
def World.recordWritten (r : OtaRecord L.count) : World L :=
  let bytes := (sealRecord crc32 r).toBytes
  { w with flash := Flash.streamed w.recordErased.flash.mem L.recordAddr.toNat bytes }

def World.recordStored (r : OtaRecord L.count) : World L :=
  let mem := Flash.put w.recordErased.flash.mem L.recordAddr.toNat (sealRecord crc32 r).toBytes
  { w with flash := { mem := mem, cache := none } }

theorem Layout.not_meets_record (L : Layout) (i : Fin L.count) {start length : ℕ}
    (first : L.recordAddr.toNat ≤ start)
    (last : start + length ≤ L.recordAddr.toNat + L.sectorSize.toNat) :
    L.meets i start length = false := by
  have := L.record_apart i
  simp only [meets, decide_eq_false_iff_not]
  omega

theorem Layout.blank_recordErased :
    Flash.Blank w.recordErased.flash.mem L.recordAddr.toNat L.sectorSize.toNat where
  erased := fun _ first last => if_pos ⟨first, last⟩
  words := L.sector_words

theorem Layout.record_words (L : Layout) : L.recordAddr.toNat % 8 = 0 := by
  have sector : 8 ∣ L.sectorSize.toNat := Nat.dvd_of_mod_eq_zero L.sector_words
  exact Nat.mod_eq_zero_of_dvd (sector.trans (Nat.dvd_of_mod_eq_zero L.record_aligned))

theorem Layout.sector_double (L : Layout) : L.sectorSize.toNat + L.sectorSize.toNat ≤ 2 ^ 32 := by
  have := L.record_end
  omega

theorem portHandler_eraseRecord :
    portHandler L _ (.erase .internal L.recordAddr L.sectorSize) w = (true, w.recordErased) := by
  have flash := Flash.erase_of_aligned L.sector_ne_zero L.sector_ne_zero L.record_aligned
    (Nat.mod_self _) L.sector_double w.flash
  have complete : w.afterErase L.recordAddr L.sectorSize = w.complete := by
    funext i
    rw [World.afterErase, alignDown_of_aligned L.sector_ne_zero L.record_aligned,
      alignUp_of_aligned L.sector_ne_zero L.sector_double (Nat.mod_self _),
      L.not_meets_record i le_rfl le_rfl, Bool.not_false, Bool.and_true]
  simp only [portHandler, if_true, flash, complete]
  rfl

end

/-- The record page is erased. -/
def Mark.recordErased (L : Layout) : Mark L := .erased L.recordAddr L.sectorSize

/-- The record is handed to the flash. -/
def Mark.recordWritten (L : Layout) : Mark L := .written L.recordAddr

theorem marks_eraseRecord (here : D (w, m)) (erased : D (w.recordErased, m ++ [.recordErased L])) :
    Safe (markHandler L) D
      (fun rc t => rc = .ok ∧ t = (w.recordErased, m ++ [.recordErased L]))
      (flashEraseSlot .internal L.recordAddr (UInt32.ofNat L.recordSize)) (w, m) := by
  have size : alignUp (UInt32.ofNat L.recordSize) L.sectorSize = L.sectorSize := by
    have fits : (UInt32.ofNat L.recordSize).toNat ≤ L.sectorSize.toNat := by
      rw [L.toNat_recordSize]
      exact L.record_fits
    have double := L.sector_double
    have aligned := alignUp_mod (v := UInt32.ofNat L.recordSize) L.sector_ne_zero (by omega)
    have least := le_alignUp (v := UInt32.ofNat L.recordSize) L.sector_ne_zero (by omega)
    have most := alignUp_le (v := UInt32.ofNat L.recordSize) L.sector_ne_zero fits (by omega)
      (Nat.mod_self _)
    have some : 0 < L.recordSize := OtaRecord.size_pos _
    rw [L.toNat_recordSize] at least
    rw [← UInt32.toNat_inj]
    exact Nat.le_antisymm most (Nat.le_of_dvd (by omega) (Nat.dvd_of_mod_eq_zero aligned))
  have length : L.recordAddr + UInt32.ofNat L.recordSize - L.recordAddr =
      UInt32.ofNat L.recordSize := add_sub_cancel_left _ _
  simp only [flashEraseSlot, Layout.flashSectorSize, if_true, if_neg L.sector_ne_zero,
    alignDown_of_aligned L.sector_ne_zero L.record_aligned, length, size]
  rw [safe_perform_bind, markHandler_of (portHandler_eraseRecord w)]
  exact ⟨here, erased, rfl, rfl⟩

theorem OtaRecord.toBytes_ne_nil {n : ℕ} (r : OtaRecord n) : r.toBytes ≠ [] := by
  rw [ne_eq, ← List.length_eq_zero_iff, r.length_toBytes]
  exact (OtaRecord.size_pos _).ne'

theorem portHandler_writeRecord (w : World L) (r : OtaRecord L.count) :
    portHandler L _ (.write .internal L.recordAddr (sealRecord crc32 r).toBytes) w.recordErased =
      (true, w.recordWritten crc32 r) := by
  have length := (sealRecord crc32 r).length_toBytes
  have fits := L.record_fits
  have last := L.record_end
  have sector := L.sector_pos
  have flash : w.recordErased.flash.write L.recordAddr (sealRecord crc32 r).toBytes =
      (true, (w.recordWritten crc32 r).flash) := by
    have blank : w.recordErased.flash =
        Flash.streamed w.recordErased.flash.mem L.recordAddr.toNat [] := by
      rw [Flash.streamed_nil]
      rfl
    rw [blank, Flash.write_streamed (Layout.blank_recordErased w) (by omega) L.record_words
      (OtaRecord.toBytes_ne_nil _) (by rw [length]; simpa using fits) rfl, List.nil_append]
    rfl
  have complete : w.recordErased.afterWrite L.recordAddr
      (UInt32.ofNat (sealRecord crc32 r).toBytes.length) = w.complete := by
    funext i
    have range : (L.recordAddr + UInt32.ofNat L.recordSize).toNat - L.recordAddr.toNat =
        L.recordSize := by
      rw [UInt32.toNat_add, L.toNat_recordSize, Nat.mod_eq_of_lt (by unfold Layout.recordSize; omega)]
      omega
    have apart : L.meets i L.recordAddr.toNat L.recordSize = false :=
      L.not_meets_record i le_rfl (Nat.add_le_add_left fits _)
    rw [World.afterWrite, length, ← Layout.recordSize, range, apart]
    simp [World.recordErased]
  simp only [portHandler, if_true, flash, complete]
  rfl

theorem portHandler_flushRecord (w : World L) (r : OtaRecord L.count) :
    portHandler L _ (.write .internal 0 []) (w.recordWritten crc32 r) =
      (true, w.recordStored crc32 r) := by
  have length := (sealRecord crc32 r).length_toBytes
  have fits := L.record_fits
  have flash : (w.recordWritten crc32 r).flash.write 0 [] =
      (true, (w.recordStored crc32 r).flash) := by
    exact Flash.write_nil_streamed (Layout.blank_recordErased w) (by rwa [length]) 0
  have complete : (w.recordWritten crc32 r).afterWrite 0 (UInt32.ofNat ([] : List UInt8).length) =
      w.complete := by
    funext i
    have nothing : L.meets i 0 0 = false := by simp [Layout.meets]
    have apart : ((w.recordWritten crc32 r).flash.cache.any fun c => L.meets i c.addr 8) = false := by
      rw [Option.any_eq_false]
      intro c cached
      simp only [World.recordWritten, Flash.streamed, Flash.midway] at cached
      split at cached
      · next pending =>
        obtain rfl := Option.some.inj cached
        have words := L.sector_words
        exact L.not_meets_record i (Nat.le_add_right _ _) (by simp only [length] at pending ⊢; omega)
      · cases cached
    rw [World.afterWrite, apart, Bool.not_false, Bool.and_true]
    change (w.complete i && !L.meets i 0 0) = w.complete i
    rw [nothing, Bool.not_false, Bool.and_true]
  simp only [portHandler, if_true, flash, complete]
  rfl

/-- The operations of `record_store`. -/
def Mark.store (L : Layout) : List (Mark L) := [.recordErased L, .recordWritten L, .flushed]

theorem marks_recordStore {Q : OtaErr → World L × List (Mark L) → Prop} {s : Session L}
    (inited : s.inited = true) {r : OtaRecord L.count} (here : D (w, m))
    (erased : D (w.recordErased, m ++ [.recordErased L]))
    (written : D (w.recordWritten crc32 r, m ++ [.recordErased L, .recordWritten L]))
    (done : D (w.recordStored crc32 r, m ++ Mark.store L))
    (post : Q .ok (w.recordStored crc32 r, m ++ Mark.store L)) :
    Safe (markHandler L) D Q (recordStore crc32 s r) (w, m) := by
  rw [recordStore, if_neg (by simp [inited])]
  refine (marks_eraseRecord here erased).bind ?_
  rintro _ _ ⟨rfl, rfl⟩
  rw [if_neg (by simp), safe_perform_bind, markHandler_of (portHandler_writeRecord crc32 w r)]
  refine ⟨erased, ?_⟩
  have write : m ++ [.recordErased L] ++ (mark _ (.write .internal L.recordAddr
      (sealRecord crc32 r).toBytes)).toList = m ++ [.recordErased L, .recordWritten L] := by
    simp [mark, OtaRecord.toBytes_ne_nil, Mark.recordWritten]
  have flush : m ++ [.recordErased L, .recordWritten L] ++
      (mark (L := L) _ (.write .internal 0 [])).toList = m ++ Mark.store L := by
    simp [mark, Mark.store]
  rw [if_pos rfl, write, safe_perform_bind, markHandler_of (portHandler_flushRecord crc32 w r),
    flush]
  exact ⟨written, done, post⟩

theorem safe_recordStore {Q : OtaErr → World L → Prop} {s : Session L}
    (inited : s.inited = true) {r : OtaRecord L.count} (here : C w)
    (erased : C w.recordErased) (written : C (w.recordWritten crc32 r))
    (done : C (w.recordStored crc32 r)) (post : Q .ok (w.recordStored crc32 r)) :
    Safe (portHandler L) C Q (recordStore crc32 s r) w :=
  Safe.unlogged (f := mark)
    (marks_recordStore crc32 (m := []) (D := fun t => C t.1) inited here erased written done post)

/-! ## The record in these states -/

theorem Layout.length_read (L : Layout) (f : Flash) :
    (f.read L.recordAddr (UInt32.ofNat L.recordSize)).length = L.recordSize := by
  rw [Flash.read, List.length_map, List.length_range, L.toNat_recordSize]

theorem read_put {mem : ℕ → UInt8} {bytes : List UInt8} {cache : Option DwCache}
    (length : bytes.length = L.recordSize) :
    Flash.read ⟨Flash.put mem L.recordAddr.toNat bytes, cache⟩ L.recordAddr
      (UInt32.ofNat L.recordSize) = bytes := by
  refine List.ext_getElem (by rw [L.length_read, length]) fun k lt lt' => ?_
  simp [Flash.read, Flash.put, List.getElem?_eq_getElem lt']

theorem stored_recordErased (w : World L) : w.recordErased.stored crc32 = none := by
  have raw : w.recordErased.flash.read L.recordAddr (UInt32.ofNat L.recordSize) =
      List.replicate L.recordSize erasedByte := by
    rw [List.eq_replicate_iff]
    refine ⟨L.length_read _, fun b mem => ?_⟩
    simp only [Flash.read, List.mem_map, List.mem_range, L.toNat_recordSize] at mem
    obtain ⟨k, lt, rfl⟩ := mem
    have fits : L.recordSize ≤ L.sectorSize.toNat := L.record_fits
    exact (Layout.blank_recordErased w).erased _ (Nat.le_add_right _ _) (by omega)
  rw [World.stored, raw]
  exact parseRecord_erased crc32

theorem stored_recordStored (w : World L) (r : OtaRecord L.count) :
    (w.recordStored crc32 r).stored crc32 = some (sealRecord crc32 r) := by
  rw [World.stored, World.recordStored, read_put (OtaRecord.length_toBytes _), parseRecord_toBytes]

theorem stored_recordWritten (w : World L) (r : OtaRecord L.count) :
    (w.recordWritten crc32 r).stored crc32 = none ∨
      (w.recordWritten crc32 r).stored crc32 = some (sealRecord crc32 r) := by
  have length := (sealRecord crc32 r).length_toBytes
  have most : OtaRecord.size L.count - 4 ≤ 8 * (OtaRecord.size L.count / 8) := by
    obtain one | two := L.one_or_two
    · rw [one]
      decide
    · rw [two]
      decide
  -- what is not programmed yet belongs to the CRC
  have body : ((w.recordWritten crc32 r).flash.read L.recordAddr (UInt32.ofNat L.recordSize)).take
      (OtaRecord.size L.count - 4) = (sealRecord crc32 r).body := by
    refine List.ext_getElem ?_ fun k lt lt' => ?_
    · rw [List.length_take, L.length_read, OtaRecord.length_body]
      exact Nat.min_eq_left (Nat.sub_le _ _)
    have inBody : k < OtaRecord.size L.count - 4 := by rwa [OtaRecord.length_body] at lt'
    have byte : ((sealRecord crc32 r).toBytes.take
        (8 * ((sealRecord crc32 r).toBytes.length / 8)))[k]? = some (sealRecord crc32 r).body[k] := by
      rw [List.getElem?_take, if_pos (by rw [length]; omega), OtaRecord.toBytes,
        List.getElem?_append_left lt', List.getElem?_eq_getElem lt']
    simp only [List.getElem_take, Flash.read, List.getElem_map, List.getElem_range,
      World.recordWritten, Flash.streamed, Flash.midway, Flash.put, Nat.add_sub_cancel_left, byte,
      Nat.le_add_right, if_true, Option.getD_some]
  rw [World.stored, ← List.take_append_drop (OtaRecord.size L.count - 4)
    ((w.recordWritten crc32 r).flash.read _ _), body, parseRecord_body_append]
  split
  · exact .inr rfl
  · exact .inl rfl

theorem recordWritten_of_words (words : L.recordSize % 8 = 0) (w : World L) (r : OtaRecord L.count) :
    w.recordWritten crc32 r = w.recordStored crc32 r := by
  have length : (sealRecord crc32 r).toBytes.length = L.recordSize := OtaRecord.length_toBytes _
  have whole : 8 * (L.recordSize / 8) = L.recordSize := by omega
  simp only [World.recordWritten, World.recordStored, Flash.streamed, Flash.midway, length, whole]
  rw [List.take_of_length_le length.le, if_neg (by omega)]

/-! ## Erasing and writing a slot -/

/-- `flash_erase_slot` on the first `size` bytes of a slot. -/
def World.slotErased (w : World L) (i : Fin L.count) (size : UInt32) : World L :=
  { w with flash := w.flash.erase L.sectorSize (L.appAddr i) (alignUp size L.sectorSize)
           complete := w.afterErase (L.appAddr i) (alignUp size L.sectorSize) }

theorem marks_eraseSlot {i : Fin L.count} {size : UInt32} (here : D (w, m))
    (erased : D (w.slotErased i size, m ++ [.erased (L.appAddr i) (alignUp size L.sectorSize)])) :
    Safe (markHandler L) D (fun rc t => rc = .ok ∧
        t = (w.slotErased i size, m ++ [.erased (L.appAddr i) (alignUp size L.sectorSize)]))
      (flashEraseSlot .internal (L.appAddr i) size) (w, m) := by
  have length : L.appAddr i + size - L.appAddr i = size := add_sub_cancel_left _ _
  simp only [flashEraseSlot, Layout.flashSectorSize, if_true, if_neg L.sector_ne_zero,
    alignDown_of_aligned L.sector_ne_zero (L.app_aligned i), length]
  rw [safe_perform_bind]
  exact ⟨here, erased, rfl, rfl⟩

theorem safe_eraseSlot {i : Fin L.count} {size : UInt32}
    (here : C w) (erased : C (w.slotErased i size)) :
    Safe (portHandler L) C (fun rc t => rc = .ok ∧ t = w.slotErased i size)
      (flashEraseSlot .internal (L.appAddr i) size) w := by
  have marks := marks_eraseSlot (m := []) (D := fun t => C t.1) here erased
  exact Safe.unlogged (marks.mono (fun _ cut => cut) fun _ _ post => ⟨post.1, by rw [post.2]⟩)

section Erase

variable {w : World L} {i : Fin L.count} {size : UInt32} (le : size.toNat ≤ L.appSize.toNat)

theorem Layout.size_fits (L : Layout) {size : UInt32} (le : size.toNat ≤ L.appSize.toNat) :
    size.toNat + L.sectorSize.toNat ≤ 2 ^ 32 := by
  have := L.app_end L.slot0
  omega

theorem slotErased_zero (w : World L) (i : Fin L.count) : w.slotErased i 0 = w := by
  have none : alignUp 0 L.sectorSize = 0 :=
    alignUp_of_aligned L.sector_ne_zero (L.size_fits (Nat.zero_le _)) (Nat.zero_mod _)
  have same : w.afterErase (L.appAddr i) 0 = w.complete := by
    funext j
    simp [World.afterErase, none, Layout.meets]
  simp only [World.slotErased, none, same, Flash.erase, if_true]

include le

theorem Layout.erased_le : (alignUp size L.sectorSize).toNat ≤ L.appSize.toNat :=
  alignUp_le L.sector_ne_zero le (L.size_fits le) L.appSize_aligned

theorem flash_slotErased (some : size ≠ 0) : (w.slotErased i size).flash =
    { mem := fun a => if (L.appAddr i).toNat ≤ a ∧
        a < (L.appAddr i).toNat + (alignUp size L.sectorSize).toNat then erasedByte
        else w.flash.mem a
      cache := none } := by
  have nonzero : alignUp size L.sectorSize ≠ 0 := by
    intro zero
    have least := le_alignUp (v := size) L.sector_ne_zero (L.size_fits le)
    have := one_le_toNat some
    rw [zero] at least
    simp at least
    omega
  exact Flash.erase_of_aligned L.sector_ne_zero nonzero (L.app_aligned i)
    (alignUp_mod L.sector_ne_zero (L.size_fits le))
    (L.size_fits (Layout.erased_le le)) w.flash

theorem mem_slotErased {a : ℕ}
    (apart : a < (L.appAddr i).toNat ∨ (L.appAddr i).toNat + L.appSize.toNat ≤ a) :
    (w.slotErased i size).flash.mem a = w.flash.mem a := by
  by_cases zero : size = 0
  · rw [zero, slotErased_zero]
  · have := L.erased_le le
    rw [flash_slotErased le zero]
    exact if_neg (by omega)

theorem stored_slotErased : (w.slotErased i size).stored crc32 = w.stored crc32 := by
  refine World.stored_congr crc32 fun a first last => mem_slotErased le ?_
  have := L.record_apart i
  omega

theorem complete_slotErased (j : Fin L.count) : (w.slotErased i size).complete j =
    (w.complete j && !L.meets j (L.appAddr i).toNat (alignUp size L.sectorSize).toNat) := by
  have fits := L.size_fits le
  simp only [World.slotErased, World.afterErase,
    alignDown_of_aligned L.sector_ne_zero (L.app_aligned i),
    alignUp_of_aligned L.sector_ne_zero (L.size_fits (L.erased_le le))
      (alignUp_mod L.sector_ne_zero fits)]

theorem complete_slotErased_ne {j : Fin L.count} (ne : j ≠ i) :
    (w.slotErased i size).complete j = w.complete j := by
  have apart : L.meets j (L.appAddr i).toNat (alignUp size L.sectorSize).toNat = false := by
    have := L.apps_apart j i ne
    have := L.erased_le le
    simp only [Layout.meets, decide_eq_false_iff_not]
    omega
  rw [complete_slotErased le, apart, Bool.not_false, Bool.and_true]

theorem complete_slotErased_self (some : size ≠ 0) : (w.slotErased i size).complete i = false := by
  have met : L.meets i (L.appAddr i).toNat (alignUp size L.sectorSize).toNat = true := by
    have least := le_alignUp (v := size) L.sector_ne_zero (L.size_fits le)
    have one := one_le_toNat some
    simp only [Layout.meets, decide_eq_true_eq]
    omega
  rw [complete_slotErased le, met, Bool.not_true, Bool.and_false]

end Erase

/-- No jump is made, and a slot that is complete at both times holds the same bytes. -/
structure World.Quiet (w t : World L) : Prop where
  jumps : t.jumps = w.jumps
  bytes : ∀ i, w.complete i = true → t.complete i = true → ∀ a, (L.appAddr i).toNat ≤ a →
    a < (L.appAddr i).toNat + L.appSize.toNat → t.flash.mem a = w.flash.mem a

theorem World.Quiet.refl (w : World L) : w.Quiet w := ⟨rfl, fun _ _ _ _ _ _ => rfl⟩

theorem mem_recordStored (w : World L) (r : OtaRecord L.count) {a : ℕ}
    (apart : a < L.recordAddr.toNat ∨ L.recordAddr.toNat + L.sectorSize.toNat ≤ a) :
    (w.recordStored crc32 r).flash.mem a = w.flash.mem a := by
  have fits := L.record_fits
  have outside : w.recordErased.flash.mem a = w.flash.mem a := if_neg (by omega)
  have past : (sealRecord crc32 r).toBytes[a - L.recordAddr.toNat]? = none ∨
      ¬ L.recordAddr.toNat ≤ a := by
    rw [List.getElem?_eq_none_iff, OtaRecord.length_toBytes]
    omega
  simp only [World.recordStored, Flash.put, outside]
  split
  · next first => rw [past.resolve_right (not_not.mpr first), Option.getD_none]
  · rfl

theorem World.Quiet.recordStored {t : World L} (quiet : w.Quiet t) (r : OtaRecord L.count) :
    w.Quiet (t.recordStored crc32 r) where
  jumps := quiet.jumps
  bytes := by
    intro i before after a low high
    rw [← quiet.bytes i before after a low high]
    have apart := L.record_apart i
    exact mem_recordStored crc32 t r (by omega)

theorem World.quiet_slotErased {i : Fin L.count} {size : UInt32}
    (le : size.toNat ≤ L.appSize.toNat) : w.Quiet (w.slotErased i size) where
  jumps := by simp [World.slotErased]
  bytes := by
    intro j _ after a low high
    by_cases zero : size = 0
    · rw [zero, slotErased_zero]
    · have ne : j ≠ i := by
        rintro rfl
        rw [complete_slotErased_self le zero] at after
        cases after
      refine mem_slotErased le ?_
      have := L.apps_apart j i ne
      omega

/-- The two platforms differ at most in slots that are not complete. -/
structure World.Same (w t : World L) : Prop where
  stored : t.stored crc32 = w.stored crc32
  complete : t.complete = w.complete
  quiet : w.Quiet t
  tidy : t.Tidy

section Write

variable {w : World L} (tidy : w.Tidy)

include tidy

/-- Programming the cached double word takes nothing from a complete slot. -/
theorem World.Tidy.not_meets {j : Fin L.count} (complete : w.complete j = true) :
    (w.flash.cache.any fun c => L.meets j c.addr 8) = false := by
  rw [Option.any_eq_false]
  intro c cached
  obtain ⟨i, ⟨low, high⟩, incomplete⟩ := tidy c cached
  have ne : i ≠ j := by
    rintro rfl
    rw [complete] at incomplete
    cases incomplete
  have := L.apps_apart i j ne
  simp only [Layout.meets, decide_eq_false_iff_not]
  omega

theorem same_write {addr : UInt32} {data : List UInt8}
    (range : ∀ k, addr.toNat / 8 * 8 + 8 * k < (addr + UInt32.ofNat data.length).toNat →
      ∃ i, L.InSlot i (addr.toNat / 8 * 8 + 8 * k) ∧ w.complete i = false)
    (apart : ∀ j, w.complete j = true →
      L.meets j addr.toNat ((addr + UInt32.ofNat data.length).toNat - addr.toNat) = false) :
    World.Same crc32 w (portHandler L _ (.write .internal addr data) w).2 := by
  have touched : Flash.Within (fun d => ∃ i, L.InSlot i d ∧ w.complete i = false) w.flash
      (w.flash.write addr data).2 := Flash.write_within range tidy
  have complete : w.afterWrite addr (UInt32.ofNat data.length) = w.complete := by
    funext j
    cases state : w.complete j with
    | false => simp [World.afterWrite, state]
    | true =>
      rw [World.afterWrite, state, apart j state, tidy.not_meets state]
      rfl
  simp only [portHandler, if_true, complete]
  refine ⟨World.stored_congr crc32 fun a first last => touched.mem a ?_, rfl,
    ⟨rfl, fun j before _ a first last => touched.mem a ?_⟩, touched.cache⟩
  · rintro d ⟨i, ⟨low, high⟩, -⟩
    have := L.record_apart i
    omega
  · rintro d ⟨i, ⟨low, high⟩, after⟩
    have ne : j ≠ i := by
      rintro rfl
      simp [before] at after
    have := L.apps_apart j i ne
    omega

theorem same_flush : World.Same crc32 w (portHandler L _ (.write .internal 0 []) w).2 :=
  same_write crc32 tidy (fun k lt => absurd lt (Nat.not_lt_zero _))
    fun j _ => by simp [Layout.meets]

/-- A write that `ota_module_ota_download` has found to end inside of the slot. -/
theorem same_download {i : Fin L.count} (incomplete : w.complete i = false) {offset : UInt32}
    {data : List UInt8} (le : offset.toNat ≤ L.appSize.toNat)
    (inside : (L.appAddr i + offset + UInt32.ofNat data.length).toNat ≤
      (L.appAddr i).toNat + L.appSize.toNat) :
    World.Same crc32 w (portHandler L _ (.write .internal (L.appAddr i + offset) data) w).2 := by
  have dst : (L.appAddr i + offset).toNat = (L.appAddr i).toNat + offset.toNat := by
    have := L.app_end i
    have := L.sector_pos
    rw [UInt32.toNat_add, Nat.mod_eq_of_lt (by omega)]
  have slotWords : (L.appAddr i).toNat % 8 = 0 ∧ L.appSize.toNat % 8 = 0 := by
    have sector : 8 ∣ L.sectorSize.toNat := Nat.dvd_of_mod_eq_zero L.sector_words
    exact ⟨Nat.mod_eq_zero_of_dvd (sector.trans (Nat.dvd_of_mod_eq_zero (L.app_aligned i))),
      Nat.mod_eq_zero_of_dvd (sector.trans (Nat.dvd_of_mod_eq_zero L.appSize_aligned))⟩
  refine same_write crc32 tidy (fun k lt => ⟨i, ⟨?_, ?_⟩, incomplete⟩) fun j complete => ?_
  · omega
  · omega
  · have ne : j ≠ i := by
      rintro rfl
      rw [complete] at incomplete
      cases incomplete
    have := L.apps_apart j i ne
    simp only [Layout.meets, decide_eq_false_iff_not]
    omega

end Write

/-! ## Reading a slot -/

section Read

variable {u : World L × List (Mark L)} (here : D u)

include here

theorem marks_read_bind {α : Type} {Q : α → World L × List (Mark L) → Prop} {type : FlashType}
    {addr size : UInt32} {f : Option (List UInt8) → Prog (FlashOp L) α}
    (rest : ∀ a, Safe (markHandler L) D Q (f a) u) :
    Safe (markHandler L) D Q (perform (.read type addr size) >>= f) u := by
  rw [safe_perform_bind]
  refine ⟨here, ?_⟩
  have same : (markHandler L _ (.read type addr size) u).2 = u := by
    simp [markHandler, logged, portHandler, mark]
  rw [same]
  exact rest _

theorem marks_otaCalcEntryAddrFromHeader (info : AppInfo) :
    Safe (markHandler L) D (fun _ t => t = u) (otaCalcEntryAddrFromHeader crc32 info) u := by
  unfold otaCalcEntryAddrFromHeader
  split
  · exact ⟨here, rfl⟩
  · refine marks_read_bind here fun a => ?_
    cases a with
    | none => exact ⟨here, rfl⟩
    | some raw =>
      dsimp only
      split
      · exact ⟨here, rfl⟩
      · split
        · exact ⟨here, rfl⟩
        · split <;> exact ⟨here, rfl⟩

theorem marks_readBody (type : FlashType) (rounds : ℕ) (addr remaining : UInt32) :
    Safe (markHandler L) D (fun _ t => t = u) (readBody type rounds addr remaining) u := by
  induction rounds generalizing addr remaining with
  | zero => exact ⟨here, rfl⟩
  | succ rounds ih =>
    refine marks_read_bind here fun a => ?_
    cases a with
    | none => exact ⟨here, rfl⟩
    | some chunk =>
      refine (ih _ _).bind ?_
      rintro rest _ rfl
      exact ⟨here, rfl⟩

theorem marks_flashCrc32AppBody (info : AppInfo) (hdr : OtaPackageHeader) :
    Safe (markHandler L) D (fun _ t => t = u) (flashCrc32AppBody crc32 info hdr) u := by
  unfold flashCrc32AppBody
  split
  · exact ⟨here, rfl⟩
  · refine (marks_readBody here _ _ _ _).bind ?_
    rintro (_ | body) _ rfl
    · exact ⟨here, rfl⟩
    · exact ⟨here, rfl⟩

end Read

end Platform

end NeoRuntime.Ota
