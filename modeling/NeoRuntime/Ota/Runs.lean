import NeoRuntime.Ota.CallProof

/-!
# Steps of a run

What a step of a run does, whether it is a whole call (`Held.after_cases`) or one that is cut
(`Held.cut_cases`), and what all runs keep (`Held`).
-/

namespace NeoRuntime.Ota

open Prog

section Runs

variable {L : Layout} (crc32 : List UInt8 → UInt32)

/-- The device as it is delivered: the default record, and an image in slot 0. -/
structure Factory (d : Device L) : Prop where
  session : d.session = .off L
  stored : d.world.stored crc32 = some (sealRecord crc32 L.defaultRecord)
  image : d.world.complete L.slot0 = true
  cache : d.world.flash.cache = none
  jumps : d.world.jumps = []

structure Held (d : Device L) : Prop where
  tidy : d.world.Tidy
  placed : ∀ r, d.world.stored crc32 = some r → L.Placed r
  ready : d.session.inited = true → ∃ r, Ready crc32 d.world d.session r

/-- The variables after `ota_module_init`. -/
def Session.fresh (L : Layout) : Session L := { inited := true, dl := none }

variable {crc32} {d d' : Device L} {call : Call}

theorem placed_default (L : Layout) : L.Placed L.defaultRecord := fun _ => ⟨rfl, rfl, rfl⟩

theorem Factory.held (factory : Factory crc32 d) : Held crc32 d where
  tidy := fun c cached => by simp [factory.cache] at cached
  placed := by
    intro r stored
    obtain rfl := Option.some.inj (factory.stored.symm.trans stored)
    exact placed_default L
  ready := fun inited => by simp [factory.session, Session.off] at inited

theorem factory_recordStored {w : World L} (image : w.complete L.slot0 = true) (jumps : w.jumps = []) :
    Factory crc32 ⟨w.recordStored crc32 L.defaultRecord, .off L⟩ :=
  ⟨rfl, stored_recordStored crc32 w _, image, rfl, jumps⟩

/-! ## Where a record is stored -/

theorem Held.ready_stored (held : Held crc32 d) (allowed : d.allows call) {r : OtaRecord L.count}
    (stored : d.world.stored crc32 = some r) :
    ∃ s, Ready crc32 d.world s r ∧ call.program crc32 d.session = call.program crc32 s := by
  cases inited : d.session.inited with
  | true =>
    obtain ⟨r', ready⟩ := held.ready inited
    obtain rfl := Option.some.inj (ready.stored.symm.trans stored)
    exact ⟨d.session, ready, rfl⟩
  | false =>
    obtain rfl : call = .init := by simpa [Device.allows, inited] using allowed
    exact ⟨.fresh L, ⟨rfl, stored, held.placed r stored, held.tidy, by simp [Session.fresh]⟩, rfl⟩

theorem Held.left (held : Held crc32 d) (allowed : d.allows call) {r : OtaRecord L.count}
    (stored : d.world.stored crc32 = some r) :
    ∃ r', Left crc32 call r d.world (d.after crc32 call).session (d.after crc32 call).world r' := by
  obtain ⟨s, ready, same⟩ := held.ready_stored allowed stored
  have left := (safe_call ready call).run
  rwa [← same] at left

theorem Held.init_of_blank (held : Held crc32 d) (allowed : d.allows call)
    (blank : d.world.stored crc32 = none) : call = .init := by
  cases inited : d.session.inited with
  | true =>
    obtain ⟨r, ready⟩ := held.ready inited
    simp [ready.stored] at blank
  | false => simpa [Device.allows, inited] using allowed

/-- A record is still missing, or the default one is stored; nothing else is different. -/
structure Defaulted (crc32 : List UInt8 → UInt32) (w t : World L) : Prop where
  stored : ∀ r, t.stored crc32 = some r → r = sealRecord crc32 L.defaultRecord
  complete : t.complete = w.complete
  jumps : t.jumps = w.jumps

theorem safe_init_blank {w : World L} (blank : w.stored crc32 = none) :
    Safe (portHandler L) (Defaulted crc32 w)
      (fun a t => a.2 = .fresh L ∧ t = w.recordStored crc32 L.defaultRecord)
      (otaModuleInit crc32) w := by
  have here : ∀ t : World L, t.complete = w.complete → t.jumps = w.jumps →
      (t.stored crc32 = none ∨ t.stored crc32 = some (sealRecord crc32 L.defaultRecord)) →
      Defaulted crc32 w t := by
    rintro t complete jumps (none | some)
    · exact ⟨by simp [none], complete, jumps⟩
    · exact ⟨by simp [some], complete, jumps⟩
  have done := here (w.recordStored crc32 L.defaultRecord) rfl rfl
    (.inr (stored_recordStored crc32 w _))
  refine (safe_recordLoad crc32 rfl (here w rfl rfl (.inl blank))).bind ?_
  rintro _ t ⟨rfl, same⟩
  subst t
  rw [World.loaded, blank]
  dsimp only
  rw [if_neg (by simp)]
  refine (safe_recordStore crc32 rfl (here w rfl rfl (.inl blank))
    (here w.recordErased rfl rfl (.inl (stored_recordErased crc32 w)))
    (here (w.recordWritten crc32 L.defaultRecord) rfl rfl (stored_recordWritten crc32 w _)) done
    (Q := fun rc t => rc = .ok ∧ t = w.recordStored crc32 L.defaultRecord) ⟨rfl, rfl⟩).bind ?_
  rintro _ _ ⟨rfl, rfl⟩
  exact ⟨done, rfl, rfl⟩

/-! ## Every step -/

theorem Held.after_cases (held : Held crc32 d) (allowed : d.allows call) :
    (∃ r r', d.world.stored crc32 = some r ∧
      Left crc32 call r d.world (d.after crc32 call).session (d.after crc32 call).world r') ∨
    (d.world.stored crc32 = none ∧
      d.after crc32 call = ⟨d.world.recordStored crc32 L.defaultRecord, .fresh L⟩) := by
  cases stored : d.world.stored crc32 with
  | some r =>
    obtain ⟨r', left⟩ := held.left allowed stored
    exact .inl ⟨r, r', rfl, left⟩
  | none =>
    obtain rfl := held.init_of_blank allowed stored
    obtain ⟨session, world⟩ := (safe_init_blank stored).run
    exact .inr ⟨rfl, congrArg₂ Device.mk world session⟩

theorem Held.cut_cases (held : Held crc32 d) (allowed : d.allows call) (operations : ℕ) :
    ∃ t, d.cut crc32 call operations = ⟨t.powerOff, .off L⟩ ∧
      ((∃ r, d.world.stored crc32 = some r ∧
          Cut crc32 call r d.world (d.made crc32 call operations) t) ∨
        (d.world.stored crc32 = none ∧ Defaulted crc32 d.world t)) := by
  refine ⟨_, rfl, ?_⟩
  cases stored : d.world.stored crc32 with
  | some r =>
    obtain ⟨s, ready, same⟩ := held.ready_stored allowed stored
    rw [Device.made, same]
    have cut := (spec_call ready call).runFor operations
    rw [markHandler, runFor_logged] at cut
    exact .inl ⟨r, rfl, cut⟩
  | none =>
    obtain rfl := held.init_of_blank allowed stored
    exact .inr ⟨rfl, (safe_init_blank stored).runFor operations⟩

theorem Held.of_ready {w : World L} {s : Session L} {r : OtaRecord L.count}
    (ready : Ready crc32 w s r) : Held crc32 ⟨w, s⟩ where
  tidy := ready.tidy
  placed := by
    intro r' stored
    obtain rfl := Option.some.inj (ready.stored.symm.trans stored)
    exact ready.placed
  ready := fun _ => ⟨r, ready⟩

theorem Held.off {t : World L} (placed : ∀ r, t.stored crc32 = some r → L.Placed r) :
    Held crc32 ⟨t.powerOff, .off L⟩ :=
  ⟨fun _ cached => by simp [World.powerOff] at cached, placed,
    fun inited => by simp [Session.off] at inited⟩

theorem ready_fresh (w : World L) : Ready crc32 (w.recordStored crc32 L.defaultRecord) (.fresh L)
    (sealRecord crc32 L.defaultRecord) :=
  .of_store rfl (placed_default L) (by simp [Session.fresh])

theorem Held.after (held : Held crc32 d) (allowed : d.allows call) :
    Held crc32 (d.after crc32 call) := by
  obtain ⟨r, r', -, left⟩ | ⟨-, after⟩ := held.after_cases allowed
  · exact .of_ready left.ready
  · rw [after]
    exact .of_ready (ready_fresh d.world)

theorem Held.cut (held : Held crc32 d) (allowed : d.allows call) (operations : ℕ) :
    Held crc32 (d.cut crc32 call operations) := by
  obtain ⟨t, eq, ⟨r, -, cut⟩ | ⟨-, defaulted⟩⟩ := held.cut_cases allowed operations
  · rw [eq]
    exact .off fun r' stored => (cut.record r' stored).1
  · rw [eq]
    refine .off fun r stored => ?_
    rw [defaulted.stored r stored]
    exact placed_default L

theorem step_cases {action : Action} (step : d.step crc32 action = some d') :
    (∃ c, action = .call c ∧ d.allows c ∧ d' = d.after crc32 c) ∨
      ∃ c operations, action = .powerLoss c operations ∧ d.allows c ∧
        d' = d.cut crc32 c operations := by
  cases action with
  | call c =>
    rw [Device.step, Option.ite_none_right_eq_some, Option.some.injEq] at step
    exact .inl ⟨c, rfl, step.1, step.2.symm⟩
  | powerLoss c operations =>
    rw [Device.step, Option.ite_none_right_eq_some, Option.some.injEq] at step
    exact .inr ⟨c, operations, rfl, step.1, step.2.symm⟩

theorem Held.step {action : Action} (held : Held crc32 d) (step : d.step crc32 action = some d') :
    Held crc32 d' := by
  obtain ⟨c, -, allowed, rfl⟩ | ⟨c, operations, -, allowed, rfl⟩ := step_cases step
  · exact held.after allowed
  · exact held.cut allowed operations

/-- Every run from the delivery on, wherever power is lost in it. -/
theorem held_of_run {actions : List Action} (factory : Factory crc32 d)
    (run : actions.foldlM (Device.step crc32) d = some d') : Held crc32 d' :=
  foldlM_inv (Held crc32) (fun _ _ _ held => held.step) factory.held run

end Runs

end NeoRuntime.Ota
