import NeoRuntime.Ota.Runs

/-!
# Booting after a loss of power

Power may be lost between the erase of a slot, the erase of the record page and the write of the
record.  Two losses do harm.  In `record_store`, before the record is complete, it is gone, and
`ota_module_init` stores the default one, which calls slot 0 active, complete or not.  In
`ota_module_ota_download_start`, after the erase of the only slot, the record still calls it active.
A run without these two (`Harmless`) only jumps into complete slots.
-/

namespace NeoRuntime.Ota

section Runs

variable {L : Layout} (crc32 : List UInt8 → UInt32)

/-- The record calls the slot one that may be booted. -/
def OtaRecord.Bootable {n : ℕ} (r : OtaRecord n) (i : Fin n) : Prop :=
  (r.apps i).status = .unverified ∨ (r.apps i).status = .active ∨ (r.apps i).status = .backup

/-- Where the operations that a call has made in the state `d` leave it: with no record only if slot
0 is complete, and not after the erase of the only slot if the record calls that bootable. -/
structure HarmlessCut (d : Device L) (made : List (Mark L)) : Prop where
  record : Unrecorded made → Intact d.world made
  slot : L.count = 1 → ∀ i, LastErased made i → ∀ r, d.world.stored crc32 = some r → ¬ r.Bootable i

def Harmless (d : Device L) : Action → Prop
  | .call _ => True
  | .powerLoss c operations => HarmlessCut crc32 d (d.made crc32 c operations)

/-- The invariant of the runs that lose power only where it does no harm. -/
structure Booting (d : Device L) : Prop where
  held : Held crc32 d
  sound : ∀ r, d.world.stored crc32 = some r → Sound r.apps d.world.complete
  blank : d.world.stored crc32 = none → d.world.complete L.slot0 = true
  jumps : ∀ jump ∈ d.world.jumps, jump.complete = true

variable {crc32} {d d' : Device L} {call : Call}

theorem status_default {i : Fin L.count} {status : AppStatus}
    (eq : (L.defaultRecord.apps i).status = status) (live : status ≠ .invalid) :
    i = L.slot0 ∧ status = .active := by
  rw [← eq] at live ⊢
  simp only [Layout.defaultRecord] at live ⊢
  split
  · next first => exact ⟨first, rfl⟩
  · next other => exact absurd (if_neg other) live

theorem sound_default {c : Fin L.count → Bool} (image : c L.slot0 = true) :
    Sound L.defaultRecord.apps c where
  runs := by
    rintro i (unverified | active)
    · cases (status_default unverified (by simp)).2
    · rwa [(status_default active (by simp)).1]
  backs := by
    intro i backup
    cases (status_default backup (by simp)).2
  one := by
    intro i j activeI activeJ
    rw [(status_default activeI (by simp)).1, (status_default activeJ (by simp)).1]
  spare := fun _ => ⟨L.slot0, by simp [Layout.defaultRecord]⟩

theorem JumpsTo.isComplete {r : OtaRecord L.count} {c : Fin L.count → Bool} {jump : Jump L}
    (goes : JumpsTo r c jump) (sound : Sound r.apps c) : jump.complete = true :=
  goes.complete.trans (sound.complete_of_candidate goes.candidate)

theorem Factory.booting (factory : Factory crc32 d) : Booting crc32 d where
  held := factory.held
  sound := by
    intro r stored
    obtain rfl := Option.some.inj (factory.stored.symm.trans stored)
    exact sound_default factory.image
  blank := fun none => by simp [factory.stored] at none
  jumps := by simp [factory.jumps]

theorem Booting.after (booting : Booting crc32 d) (allowed : d.allows call) :
    Booting crc32 (d.after crc32 call) := by
  have held := booting.held
  obtain ⟨r, r', stored, left⟩ | ⟨stored, after⟩ := held.after_cases allowed
  · have sound := left.change.sound (booting.sound r stored)
    refine ⟨held.after allowed, fun r'' stored' => ?_, fun none => ?_, ?_⟩
    · obtain rfl := Option.some.inj (left.ready.stored.symm.trans stored')
      exact sound
    · simp [left.ready.stored] at none
    · obtain ⟨new, eq, goes, -⟩ := left.jumps
      rw [eq]
      exact List.forall_mem_append.mpr
        ⟨booting.jumps, fun jump mem => (goes jump mem).isComplete sound⟩
  · have image := booting.blank stored
    refine ⟨held.after allowed, ?_, ?_, ?_⟩
    · rw [after]
      intro r stored'
      obtain rfl := Option.some.inj ((ready_fresh d.world).stored.symm.trans stored')
      exact sound_default image
    · rw [after]
      exact fun _ => image
    · rw [after]
      exact booting.jumps

/-- Two slots can be booted from whatever is erased, one if it could not be booted before. -/
theorem Sound.spared {r : OtaRecord L.count} {c c' : Fin L.count → Bool} {m : List (Mark L)}
    {apps : Fin L.count → AppInfo} (sound : Sound r.apps c) (spared : Spared r c m apps c')
    (single : L.count = 1 → ∀ i, LastErased m i → ¬ r.Bootable i) : Sound apps c' := by
  obtain ⟨rfl, others⟩ := spared
  refine ⟨fun i runs => ?_, fun i backup => ?_, sound.one, sound.spare⟩
  · rcases others i with same | idle | ⟨erased, one | idle⟩
    · rw [same]
      exact sound.runs i runs
    · simp [idle] at runs
    · exact absurd (runs.imp_right .inl) (single one i erased)
    · exact absurd runs (by tauto)
  · rcases others i with same | idle | ⟨erased, -⟩
    · rw [same]
      exact sound.backs i backup
    · simp [idle] at backup
    · rcases L.one_or_two with one | two
      · exact absurd (.inr (.inr backup)) (single one i erased)
      · exact .inr (sound.spare two)

theorem Booting.cut (booting : Booting crc32 d) (allowed : d.allows call) {operations : ℕ}
    (harmless : HarmlessCut crc32 d (d.made crc32 call operations)) :
    Booting crc32 (d.cut crc32 call operations) := by
  have held := booting.held.cut allowed operations
  obtain ⟨t, off, cases⟩ := booting.held.cut_cases allowed operations
  rw [off] at held ⊢
  obtain ⟨r, stored, cut⟩ | ⟨stored, defaulted⟩ := cases
  · refine ⟨held, ?_, ?_, ?_⟩
    · intro r' some
      obtain ⟨-, spared | change⟩ := cut.record r' some
      · exact (booting.sound r stored).spared spared fun one i erased =>
          harmless.slot one i erased r stored
      · exact change.sound (booting.sound r stored)
    · exact fun none => cut.intact (harmless.record (cut.lost none))
    · obtain ⟨new, eq, goes⟩ := cut.jumps
      refine eq ▸ List.forall_mem_append.mpr ⟨booting.jumps, fun jump mem => ?_⟩
      obtain ⟨r', -, change, goes⟩ := goes jump mem
      exact goes.isComplete (change.sound (booting.sound r stored))
  · have image : t.complete L.slot0 = true := defaulted.complete ▸ booting.blank stored
    refine ⟨held, ?_, ?_, ?_⟩
    · intro r some
      obtain rfl := defaulted.stored r some
      exact sound_default image
    · exact fun _ => image
    · exact defaulted.jumps ▸ booting.jumps

theorem Booting.step {action : Action} (booting : Booting crc32 d)
    (harmless : Harmless crc32 d action) (step : d.step crc32 action = some d') :
    Booting crc32 d' := by
  obtain ⟨c, -, allowed, rfl⟩ | ⟨c, operations, rfl, allowed, rfl⟩ := step_cases step
  · exact booting.after allowed
  · exact booting.cut allowed harmless

/-- Every run that loses power only where it does no harm jumps into complete slots only. -/
theorem jumps_complete {d d' : Device L} {actions : List Action} (factory : Factory crc32 d)
    (harmless : Along (Device.step crc32) (Harmless crc32) d actions)
    (run : actions.foldlM (Device.step crc32) d = some d') :
    ∀ jump ∈ d'.world.jumps, jump.complete = true :=
  (foldlM_inv_along (Booting crc32) (fun _ _ _ booting => booting.step) factory.booting harmless
    run).jumps

/-! ## A run with a loss of power -/

theorem OtaRecord.firstWith_eq_some {n : ℕ} {r : OtaRecord n} {i : Fin n} {status : AppStatus}
    (has : (r.apps i).status = status) (only : ∀ j, (r.apps j).status = status → j = i) :
    r.firstWith status = some i := by
  cases first : r.firstWith status with
  | none => exact absurd has (OtaRecord.firstWith_eq_none.mp first i)
  | some k => rw [only k (OtaRecord.status_of_firstWith first)]

/-- The run in which power is lost in `c`, and the next start boots. -/
def cutRun (c : Call) (operations : ℕ) : List Action :=
  [.call .init, .powerLoss c operations, .call .init, .call .bootPreprocess]

theorem along_cutRun {c : Call} {operations : ℕ}
    (harmless : Harmless crc32 (d.after crc32 .init) (.powerLoss c operations)) :
    Along (Device.step crc32) (Harmless crc32) d (cutRun c operations) := by
  refine ⟨trivial, fun d₁ init => ⟨?_, fun _ _ => ⟨trivial, fun _ _ => ⟨trivial, fun _ _ => trivial⟩⟩⟩⟩
  rw [Device.step, if_pos (by simp [Device.allows]), Option.some.injEq] at init
  rwa [← init]

end Runs

/-! ## On the board -/

/-- The board as delivered, with an image of zeros in its slot. -/
def delivered : Device Layout.board where
  world := World.recordStored stm32g0xxCrc32 ⟨⟨fun _ => 0, none⟩, fun _ => true, []⟩
    Layout.board.defaultRecord
  session := .off _

theorem delivered_factory : Factory stm32g0xxCrc32 delivered := factory_recordStored rfl rfl

def smallPackage : OtaPackageHeader :=
  let unsigned : OtaPackageHeader :=
    { magic := otaPackageMagic, buildTimestamp := 0, appOffset := 56, appSize := 8
      appCrc32 := stm32g0xxCrc32 (.replicate 8 0), appVersion := .replicate _ 0, headerCrc32 := 0 }
  { unsigned with headerCrc32 := stm32g0xxCrc32 unsigned.body }

set_option maxRecDepth 100000 in
theorem torn_start_jumps : ∀ operations ∈ [2, 3, 4],
    ((cutRun (.downloadStart smallPackage) operations).foldlM (Device.step stm32g0xxCrc32)
      delivered).map (fun d => d.world.jumps.map Jump.complete) = some [false] := by
  decide +kernel

/-- Power is lost after the slot is erased: the next start jumps into it. -/
theorem jumps_incomplete_of_torn_start : Factory stm32g0xxCrc32 delivered ∧
    ∀ operations ∈ [2, 3, 4], ∃ d', (cutRun (.downloadStart smallPackage) operations).foldlM
      (Device.step stm32g0xxCrc32) delivered = some d' ∧
        ∃ jump ∈ d'.world.jumps, jump.complete = false := by
  refine ⟨delivered_factory, fun operations mem => ?_⟩
  obtain ⟨d', run, jumps⟩ := Option.map_eq_some_iff.mp (torn_start_jumps operations mem)
  have mem : false ∈ d'.world.jumps.map Jump.complete := by rw [jumps]; exact List.mem_singleton_self _
  exact ⟨d', run, List.mem_map.mp mem⟩

set_option maxRecDepth 100000 in
theorem torn_flag_jumps :
    ((cutRun (.setBootYmodemFlag 1) 2).foldlM (Device.step stm32g0xxCrc32) delivered).map
      (fun d => d.world.jumps.map Jump.slot) = some [Layout.board.slot0] := by
  decide +kernel

set_option maxRecDepth 100000 in
theorem torn_flag_made : (delivered.after stm32g0xxCrc32 .init).made stm32g0xxCrc32
      (.setBootYmodemFlag 1) 2 = [.recordErased _] ∧
    (delivered.after stm32g0xxCrc32 .init).world.complete Layout.board.slot0 = true := by
  decide +kernel

theorem torn_flag_harmless : Harmless stm32g0xxCrc32 (delivered.after stm32g0xxCrc32 .init)
    (.powerLoss (.setBootYmodemFlag 1) 2) := by
  rw [Harmless, torn_flag_made.1]
  refine ⟨fun _ => .inr ⟨torn_flag_made.2, fun addr size mem => ?_⟩, fun _ i erased => ?_⟩
  · obtain ⟨rfl, rfl⟩ : addr = _ ∧ size = _ := by simpa [Mark.recordErased] using mem
    exact Layout.not_meets_record _ _ le_rfl le_rfl
  · obtain ⟨addr, size, last, meets⟩ := erased
    obtain ⟨rfl, rfl⟩ : _ = addr ∧ _ = size := by simpa [Mark.recordErased] using last
    rw [Layout.not_meets_record _ _ le_rfl le_rfl] at meets
    cases meets

/-- With the record page erased and the slot complete, the default record boots it again. -/
theorem jumps_complete_of_torn_flag : ∃ d', (cutRun (.setBootYmodemFlag 1) 2).foldlM
    (Device.step stm32g0xxCrc32) delivered = some d' ∧ d'.world.jumps.map Jump.slot = [Layout.board.slot0] ∧
      ∀ jump ∈ d'.world.jumps, jump.complete = true := by
  obtain ⟨d', run, jumps⟩ := Option.map_eq_some_iff.mp torn_flag_jumps
  exact ⟨d', run, jumps, jumps_complete delivered_factory (along_cutRun torn_flag_harmless) run⟩

end NeoRuntime.Ota
