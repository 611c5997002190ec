import NeoRuntime.Ota.PowerLoss

/-!
# The slots over a run without faults

When power is lost only between two calls, the record is always readable, every slot that may run is
complete, and a new image is on trial: it is booted a limited number of times, unless it is verified
before (`Orderly`), and then the old one is booted again (`trial_falls_back`).
-/

namespace NeoRuntime.Ota

/-- Power is not lost inside of the call. -/
def Action.whole : Action → Bool
  | .call _ => true
  | .powerLoss _ operations => operations = 0

/-- The action neither verifies a new image nor starts the next download. -/
def Action.onTrial : Action → Bool
  | .call .markVerified => false
  | .call (.downloadStart _) => false
  | _ => true

def Action.isBoot : Action → Bool
  | .call .bootPreprocess => true
  | _ => false

section Runs

variable {L : Layout} (crc32 : List UInt8 → UInt32)

def Device.jumpsTo (d : Device L) (i : Fin L.count) : ℕ := d.world.jumps.countP (·.slot = i)

/-- What holds of a device at every point of a run, `r` being the record that it stores. -/
structure Orderly (d : Device L) (r : OtaRecord L.count) : Prop where
  stored : d.world.stored crc32 = some r
  complete : ∀ i, (r.apps i).status = .unverified ∨ (r.apps i).status = .active ∨
    (r.apps i).status = .backup → d.world.complete i = true
  one_active : ∀ i j, (r.apps i).status = .active → (r.apps j).status = .active → i = j
  bootable : L.count = 2 → r.chooseBootCandidateOtaSlot.isSome
  /-- With two slots a download never goes into one that runs. -/
  start_spares : L.count = 2 → d.session.inited → ∀ hdr i,
    (r.apps i).status = .active ∨ (r.apps i).status = .unverified →
      let t := (d.after crc32 (.downloadStart hdr)).world
      t.complete i = true ∧ ∀ a, (L.appAddr i).toNat ≤ a →
        a < (L.appAddr i).toNat + L.appSize.toNat → t.flash.mem a = d.world.flash.mem a
  /-- A slot that is unverified from now on is booted so many times and then invalid. -/
  trial : d.session.inited → ∀ i r₁, (r.apps i).status ≠ .unverified →
    let d₁ := d.after crc32 .downloadFinish
    d₁.world.stored crc32 = some r₁ → (r₁.apps i).status = .unverified →
      ∀ (actions : List Action) (d₂ : Device L),
        (∀ action ∈ actions, action.whole ∧ action.onTrial) →
        actions.foldlM (Device.step crc32) d₁ = some d₂ →
          let boots := actions.countP Action.isBoot
          d₂.jumpsTo i = d₁.jumpsTo i + min boots (otaAppMaxVerifyCount.toNat - 1) ∧
            (otaAppMaxVerifyCount.toNat ≤ boots →
              ∃ r₂, d₂.world.stored crc32 = some r₂ ∧ (r₂.apps i).status = .invalid)

structure Settled (d : Device L) (r : OtaRecord L.count) : Prop where
  held : Held crc32 d
  stored : d.world.stored crc32 = some r
  sound : Sound r.apps d.world.complete
  backed : Backed r.apps d.world.complete

variable {crc32} {d d' : Device L} {r : OtaRecord L.count} {call : Call}

theorem Factory.settled (factory : Factory crc32 d) :
    Settled crc32 d (sealRecord crc32 L.defaultRecord) where
  held := factory.held
  stored := factory.stored
  sound := sound_default factory.image
  backed := fun i backup => by cases (status_default backup (by simp)).2

theorem Settled.after (settled : Settled crc32 d r) (allowed : d.allows call) :
    ∃ r', Settled crc32 (d.after crc32 call) r' ∧
      Left crc32 call r d.world (d.after crc32 call).session (d.after crc32 call).world r' := by
  obtain ⟨r', left⟩ := settled.held.left allowed settled.stored
  exact ⟨r', ⟨settled.held.after allowed, left.ready.stored, left.change.sound settled.sound,
    left.change.backed settled.sound settled.backed⟩, left⟩

theorem Settled.reset (settled : Settled crc32 d r) (allowed : d.allows call) :
    Settled crc32 (d.cut crc32 call 0) r := by
  have held := settled.held.cut allowed 0
  rw [Device.cut, Prog.runFor_zero] at held ⊢
  exact ⟨held, settled.stored, settled.sound, settled.backed⟩

theorem whole_step_cases {action : Action} (whole : action.whole)
    (step : d.step crc32 action = some d') :
    (∃ c, action = .call c ∧ d.allows c ∧ d' = d.after crc32 c) ∨
      ∃ c, action = .powerLoss c 0 ∧ d.allows c ∧ d' = d.cut crc32 c 0 := by
  obtain called | ⟨c, operations, rfl, allowed, cut⟩ := step_cases step
  · exact .inl called
  · obtain rfl : operations = 0 := by simpa [Action.whole] using whole
    exact .inr ⟨c, rfl, allowed, cut⟩

theorem Settled.step {action : Action} (settled : Settled crc32 d r) (whole : action.whole)
    (step : d.step crc32 action = some d') : ∃ r', Settled crc32 d' r' := by
  obtain ⟨c, -, allowed, rfl⟩ | ⟨c, -, allowed, rfl⟩ := whole_step_cases whole step
  · exact (settled.after allowed).imp fun _ => And.left
  · exact ⟨r, settled.reset allowed⟩

/-! ## The trial of a new image -/

/-- After `n` boots on trial: the slot is unverified, or has used up its boots. -/
structure Trial (i : Fin L.count) (n : ℕ) (apps : Fin L.count → AppInfo) : Prop where
  counts : n < otaAppMaxVerifyCount.toNat →
    (apps i).status = .unverified ∧ (apps i).verifyCount.toNat = n
  used : otaAppMaxVerifyCount.toNat ≤ n → (apps i).status = .invalid

theorem Sound.others_active {c : Fin L.count → Bool} {apps : Fin L.count → AppInfo}
    (sound : Sound apps c) {i j : Fin L.count} (idle : (apps i).status ≠ .active) (ne : j ≠ i) :
    (apps j).status = .active := by
  have := L.one_or_two
  obtain ⟨k, active⟩ := sound.spare (by omega)
  have : k ≠ i := by
    rintro rfl
    exact idle active
  obtain rfl : j = k := by omega
  exact active

section Trial

variable {i k : Fin L.count} {n : ℕ} {c c' : Fin L.count → Bool} (trial : Trial i n r.apps)
  (sound : Sound r.apps c)

include trial

theorem Trial.status : (r.apps i).status = .unverified ∨ (r.apps i).status = .invalid := by
  by_cases lt : n < otaAppMaxVerifyCount.toNat
  · exact .inl (trial.counts lt).1
  · exact .inr (trial.used (Nat.le_of_not_lt lt))

theorem Trial.not_downloading : (r.apps i).status ≠ .downloading := by
  obtain unverified | invalid := trial.status
  · simp [unverified]
  · simp [invalid]

theorem Trial.count_next (lt : n < otaAppMaxVerifyCount.toNat) :
    ((r.apps i).verifyCount + 1).toNat = n + 1 := by
  have max : otaAppMaxVerifyCount.toNat = 3 := rfl
  rw [UInt32.toNat_add, (trial.counts lt).2, UInt32.toNat_one, Nat.mod_eq_of_lt (by omega)]

include sound

theorem Trial.others (ne : k ≠ i) : (r.apps k).status = .active := by
  refine sound.others_active ?_ ne
  obtain unverified | invalid := trial.status
  · simp [unverified]
  · simp [invalid]

theorem Trial.no_download : (r.apps k).status ≠ .downloading := by
  by_cases eq : k = i
  · exact eq ▸ trial.not_downloading
  · simp [trial.others sound eq]

/-- The only slot that may be unverified is the one on trial. -/
theorem Trial.first (first : r.firstWith .unverified = some k) :
    k = i ∧ n < otaAppMaxVerifyCount.toNat := by
  have unverified := OtaRecord.status_of_firstWith first
  have eq : k = i := by
    by_contra ne
    simp [trial.others sound ne] at unverified
  refine ⟨eq, ?_⟩
  by_contra used
  simp [eq, trial.used (Nat.le_of_not_lt used)] at unverified

theorem Trial.step {apps : Fin L.count → AppInfo} (on : (Action.call call).onTrial)
    (change : Change r c call apps c') :
    Trial i (n + if call = .bootPreprocess then 1 else 0) apps := by
  cases change with
  | keep idle =>
    rw [if_neg idle.1]
    exact trial
  | start target others => cases on
  | accept opened => exact absurd opened (trial.no_download sound)
  | reject opened => exact absurd opened (trial.no_download sound)
  | abort opened => exact absurd opened (trial.no_download sound)
  | promote stores => cases on
  | boot verified =>
    have used : otaAppMaxVerifyCount.toNat ≤ n := by
      by_contra lt
      exact OtaRecord.firstWith_eq_none.mp verified i (trial.counts (Nat.lt_of_not_le lt)).1
    rw [if_pos rfl]
    exact ⟨fun lt => by omega, fun _ => trial.used used⟩
  | count first left =>
    obtain ⟨rfl, lt⟩ := trial.first sound first
    have next := trial.count_next lt
    rw [ge_iff_le, UInt32.not_le, UInt32.lt_iff_toNat_lt, next] at left
    rw [if_pos rfl]
    refine ⟨fun _ => ⟨?_, ?_⟩, fun used => by omega⟩
    · rw [r.status_countBoot]
      exact (trial.counts lt).1
    · simpa [OtaRecord.countBoot] using next
  | exhaust first used =>
    obtain ⟨rfl, lt⟩ := trial.first sound first
    rw [ge_iff_le, UInt32.le_iff_toNat_le, trial.count_next lt] at used
    rw [if_pos rfl]
    exact ⟨fun lt => by omega, fun _ => r.setStatus_self _ _⟩

/-- A record on trial is booted from the slot on trial exactly while it has boots left. -/
theorem Trial.candidate : r.chooseBootCandidateOtaSlot = some i ↔ n < otaAppMaxVerifyCount.toNat := by
  constructor
  · intro candidate
    simp only [OtaRecord.chooseBootCandidateOtaSlot, Option.or_eq_some_iff] at candidate
    have status := trial.status
    obtain first | ⟨-, first | ⟨-, first⟩⟩ := candidate
    · exact (trial.first sound first).2
    · simp [OtaRecord.status_of_firstWith first] at status
    · simp [OtaRecord.status_of_firstWith first] at status
  · intro lt
    cases first : r.firstWith .unverified with
    | none => exact absurd (trial.counts lt).1 (OtaRecord.firstWith_eq_none.mp first i)
    | some k => rw [OtaRecord.chooseBootCandidateOtaSlot, first, (trial.first sound first).1,
        Option.some_or]

end Trial

/-- The bytes of a slot are the same. -/
def Kept (j : Fin L.count) (d d' : Device L) : Prop :=
  ∀ a, (L.appAddr j).toNat ≤ a → a < (L.appAddr j).toNat + L.appSize.toNat →
    d'.world.flash.mem a = d.world.flash.mem a

/-- One step of a trial: it boots from the candidate of the record, and writes to no complete slot. -/
theorem Settled.trial_step {action : Action} {i : Fin L.count} {n : ℕ} (settled : Settled crc32 d r)
    (trial : Trial i n r.apps) (whole : action.whole) (on : action.onTrial)
    (step : d.step crc32 action = some d') :
    ∃ r', Settled crc32 d' r' ∧ Trial i (n + if action.isBoot then 1 else 0) r'.apps ∧
      (∀ j, d.world.complete j = true → d'.world.complete j = true → Kept j d d') ∧
      d'.world.jumps.map Jump.slot = d.world.jumps.map Jump.slot ++
        if action.isBoot then r'.chooseBootCandidateOtaSlot.toList else [] := by
  obtain ⟨c, rfl, allowed, rfl⟩ | ⟨c, rfl, allowed, rfl⟩ := whole_step_cases whole step
  · obtain ⟨r', settled', left⟩ := settled.after allowed
    have trial' := trial.step settled.sound on left.change
    have boot : (Action.call c).isBoot = decide (c = .bootPreprocess) := by cases c <;> rfl
    refine ⟨r', settled', by simpa [boot] using trial', left.bytes, ?_⟩
    obtain ⟨new, eq, -, slots⟩ := left.jumps
    rw [eq, List.map_append, slots, boot]
    simp only [decide_eq_true_eq]
  · exact ⟨r, settled.reset allowed, trial, fun _ _ _ _ _ _ => rfl, (List.append_nil _).symm⟩

/-- The jumps into the slot on trial. -/
theorem Trial.jumpsTo_boot {i : Fin L.count} {n : ℕ} {boots : Bool} {c : Fin L.count → Bool}
    (trial : Trial i (n + if boots then 1 else 0) r.apps) (sound : Sound r.apps c)
    (jumps : d'.world.jumps.map Jump.slot = d.world.jumps.map Jump.slot ++
      if boots then r.chooseBootCandidateOtaSlot.toList else []) :
    d'.jumpsTo i = d.jumpsTo i + if boots ∧ n + 1 < otaAppMaxVerifyCount.toNat then 1 else 0 := by
  have count := congrArg (List.countP (· = i)) jumps
  rw [List.countP_append, List.countP_map, List.countP_map] at count
  refine Eq.trans count (congrArg (d.jumpsTo i + ·) ?_)
  cases boots with
  | false => rfl
  | true =>
    have candidate := trial.candidate sound
    rw [if_pos rfl] at candidate
    cases chosen : r.chooseBootCandidateOtaSlot with
    | none => simp [chosen] at candidate; simp [candidate]
    | some k => simp [chosen] at candidate; simp [candidate]

theorem Settled.trial_run {i : Fin L.count} {actions : List Action} {n : ℕ}
    (settled : Settled crc32 d r) (trial : Trial i n r.apps)
    (on : ∀ action ∈ actions, action.whole ∧ action.onTrial)
    (run : actions.foldlM (Device.step crc32) d = some d') :
    ∃ r', Settled crc32 d' r' ∧ Trial i (n + actions.countP Action.isBoot) r'.apps ∧
      d'.jumpsTo i + min n (otaAppMaxVerifyCount.toNat - 1) = d.jumpsTo i +
        min (n + actions.countP Action.isBoot) (otaAppMaxVerifyCount.toNat - 1) := by
  induction actions generalizing d r n with
  | nil =>
    obtain rfl : d = d' := by simpa using run
    exact ⟨r, settled, trial, rfl⟩
  | cons action actions ih =>
    obtain ⟨m, first, rest⟩ := foldlM_cons_eq_some.1 run
    obtain ⟨whole, onTrial⟩ := on action List.mem_cons_self
    obtain ⟨r₁, settled₁, trial₁, -, slots⟩ := settled.trial_step trial whole onTrial first
    have jumps₁ := trial₁.jumpsTo_boot settled₁.sound slots
    obtain ⟨r', settled', trial', jumps'⟩ :=
      ih settled₁ trial₁ (fun a mem => on a (List.mem_cons_of_mem _ mem)) rest
    refine ⟨r', settled', ?_, ?_⟩
    · rw [List.countP_cons]
      convert trial' using 1
      omega
    · rw [List.countP_cons]
      have max : otaAppMaxVerifyCount.toNat = 3 := rfl
      rw [max] at jumps₁ jumps' ⊢
      cases boot : action.isBoot with
      | true =>
        simp only [boot, if_true, true_and] at jumps₁ jumps' ⊢
        split at jumps₁ <;> omega
      | false =>
        simp only [boot] at jumps₁ jumps' ⊢
        simp at jumps₁ jumps' ⊢
        omega

theorem Settled.trial_start {i : Fin L.count} {r' : OtaRecord L.count} {c' : Fin L.count → Bool}
    (change : Change r d.world.complete .downloadFinish r'.apps c')
    (before : (r.apps i).status ≠ .unverified) (now : (r'.apps i).status = .unverified) :
    Trial i 0 r'.apps := by
  generalize r'.apps = apps at change now
  have changed : ∀ {k status}, ((r.setStatus k status).apps i).status = .unverified →
      i = k ∧ status = .unverified := by
    intro k status now
    by_cases eq : i = k
    · subst eq
      exact ⟨rfl, (r.setStatus_self i status).symm.trans now⟩
    · rw [r.setStatus_ne eq] at now
      exact absurd now before
  cases change with
  | keep idle => exact absurd now before
  | accept opened =>
    obtain ⟨rfl, -⟩ := changed now
    exact ⟨fun _ => ⟨now, by simp [OtaRecord.setStatus]⟩, fun used => absurd used (by decide)⟩
  | reject opened => cases (changed now).2

theorem Change.start_spares {hdr : OtaPackageHeader} {c c' : Fin L.count → Bool} {i : Fin L.count}
    {apps : Fin L.count → AppInfo} (change : Change r c (.downloadStart hdr) apps c')
    (two : L.count ≠ 1) (runs : (r.apps i).status = .active ∨ (r.apps i).status = .unverified) :
    c' i = c i := by
  cases change with
  | keep idle => rfl
  | start target others =>
    refine others i ?_
    rintro rfl
    obtain ⟨verified, idle⟩ := (OtaRecord.status_of_target target).resolve_left two
    exact runs.elim idle verified

theorem Settled.orderly (settled : Settled crc32 d r) : Orderly crc32 d r where
  stored := settled.stored
  complete := by
    rintro i (unverified | active | backup)
    · exact settled.sound.runs i (.inl unverified)
    · exact settled.sound.runs i (.inr active)
    · exact settled.backed i backup
  one_active := settled.sound.one
  bootable := by
    intro two
    obtain ⟨i, active⟩ := settled.sound.spare two
    rw [Option.isSome_iff_ne_none, OtaRecord.chooseBootCandidateOtaSlot, ne_eq, Option.or_eq_none_iff,
      Option.or_eq_none_iff]
    exact fun none => OtaRecord.firstWith_eq_none.mp none.2.1 i active
  start_spares := by
    intro two inited hdr i runs
    have allowed : d.allows (.downloadStart hdr) := by simp [Device.allows, inited]
    obtain ⟨r', -, left⟩ := settled.after allowed
    have before := settled.sound.runs i runs.symm
    have after := (left.change.start_spares (by omega) runs).trans before
    exact ⟨after, left.bytes i before after⟩
  trial := by
    intro inited i r₁ before d₁ stored now actions d₂ on run
    have allowed : d.allows .downloadFinish := by simp [Device.allows, inited]
    obtain ⟨r', settled', left⟩ := settled.after allowed
    obtain rfl := Option.some.inj (settled'.stored.symm.trans stored)
    obtain ⟨r₂, settled₂, trial₂, jumps⟩ :=
      settled'.trial_run (Settled.trial_start left.change before now) on run
    rw [Nat.zero_add] at trial₂ jumps
    exact ⟨by simpa using jumps, fun used => ⟨r₂, settled₂.stored, trial₂.used used⟩⟩

/-- Whatever is called, and whenever the device is reset between two calls. -/
theorem orderly_of_run {actions : List Action} (factory : Factory crc32 d)
    (whole : ∀ action ∈ actions, action.whole)
    (run : actions.foldlM (Device.step crc32) d = some d') : ∃ r, Orderly crc32 d' r := by
  have along : Along (Device.step crc32) (fun _ action => action.whole) d actions :=
    .of_forall fun action mem _ => whole action mem
  obtain ⟨r, settled⟩ := foldlM_inv_along (fun d => ∃ r, Settled crc32 d r)
    (fun _ _ _ ⟨_, settled⟩ => settled.step) ⟨_, factory.settled⟩ along run
  exact ⟨r, settled.orderly⟩

/-! ## After the trial -/

/-- A slot that has used up its boots leaves them to the other one. -/
theorem Trial.fallback {i j : Fin L.count} {n : ℕ} {c : Fin L.count → Bool} (trial : Trial i n r.apps)
    (sound : Sound r.apps c) (used : otaAppMaxVerifyCount.toNat ≤ n) (other : j ≠ i) :
    r.chooseBootCandidateOtaSlot = some j := by
  have active := trial.others sound other
  have unverified : r.firstWith .unverified = none := by
    rw [Option.eq_none_iff_forall_ne_some]
    intro k first
    exact absurd (trial.first sound first).2 (Nat.not_lt.2 used)
  rw [OtaRecord.chooseBootCandidateOtaSlot, unverified, Option.none_or]
  cases first : r.firstWith .active with
  | none => exact absurd active (OtaRecord.firstWith_eq_none.1 first j)
  | some k => rw [sound.one k j (OtaRecord.status_of_firstWith first) active, Option.some_or]

/-- The slot of the boot after `n` others. -/
def trialSlot (i j : Fin L.count) (n : ℕ) : Fin L.count :=
  if n + 1 < otaAppMaxVerifyCount.toNat then i else j

theorem Trial.slot_boot {i j : Fin L.count} {n : ℕ} {c : Fin L.count → Bool}
    (trial : Trial i (n + 1) r.apps) (sound : Sound r.apps c) (other : j ≠ i) :
    r.chooseBootCandidateOtaSlot = some (trialSlot i j n) := by
  rw [trialSlot]
  split_ifs with lt
  · exact (trial.candidate sound).2 lt
  · exact trial.fallback sound (Nat.le_of_not_lt lt) other

theorem Settled.fallback_run {actions : List Action} {i j : Fin L.count} {n : ℕ}
    (settled : Settled crc32 d r) (trial : Trial i n r.apps) (other : j ≠ i)
    (on : ∀ action ∈ actions, action.whole ∧ action.onTrial)
    (run : actions.foldlM (Device.step crc32) d = some d') :
    d'.world.complete j = true ∧ Kept j d d' ∧
      d'.world.jumps.map Jump.slot = d.world.jumps.map Jump.slot ++
        (List.range' n (actions.countP Action.isBoot)).map (trialSlot i j) := by
  have complete := settled.sound.runs j (.inr (trial.others settled.sound other))
  induction actions generalizing d r n with
  | nil =>
    obtain rfl : d = d' := by simpa using run
    exact ⟨complete, fun _ _ _ => rfl, by simp⟩
  | cons action actions ih =>
    obtain ⟨m, first, rest⟩ := foldlM_cons_eq_some.1 run
    obtain ⟨whole, onTrial⟩ := on action List.mem_cons_self
    obtain ⟨r₁, settled₁, trial₁, kept₁, jumps₁⟩ := settled.trial_step trial whole onTrial first
    have complete₁ := settled₁.sound.runs j (.inr (trial₁.others settled₁.sound other))
    obtain ⟨still, kept, jumps⟩ :=
      ih settled₁ trial₁ (fun a mem => on a (List.mem_cons_of_mem _ mem)) rest complete₁
    refine ⟨still, fun a low high => ?_, ?_⟩
    · exact (kept a low high).trans (kept₁ j complete complete₁ a low high)
    · rw [jumps, jumps₁, List.countP_cons]
      cases boots : action.isBoot with
      | false => simp
      | true =>
        rw [boots, if_pos rfl] at trial₁
        simp [List.range'_succ, trial₁.slot_boot settled₁.sound other]

/-- A new image that is never verified is booted as often as it has trials; then every boot is from
the other slot, which is unchanged. -/
theorem trial_falls_back {before trial : List Action} {d₁ d₂ : Device L} {i j : Fin L.count}
    (factory : Factory crc32 d) (whole : ∀ action ∈ before ++ trial, action.whole)
    (started : before.foldlM (Device.step crc32) d = some d₁)
    (stored : d₁.world.stored crc32 = some r) (unverified : (r.apps i).status = .unverified)
    (fresh : (r.apps i).verifyCount = 0) (other : j ≠ i)
    (onTrial : ∀ action ∈ trial, action.onTrial)
    (run : trial.foldlM (Device.step crc32) d₁ = some d₂) :
    d₂.world.complete j = true ∧ Kept j d₁ d₂ ∧
      d₂.world.jumps.map Jump.slot = d₁.world.jumps.map Jump.slot ++
        (List.range (trial.countP Action.isBoot)).map (trialSlot i j) := by
  have along : Along (Device.step crc32) (fun _ action => action.whole) d before :=
    .of_forall fun action mem _ => whole action (List.mem_append_left _ mem)
  obtain ⟨r', settled⟩ := foldlM_inv_along (fun d => ∃ r, Settled crc32 d r)
    (fun _ _ _ ⟨_, settled⟩ => settled.step) ⟨_, factory.settled⟩ along started
  obtain rfl := Option.some.inj (settled.stored.symm.trans stored)
  have start : Trial i 0 r'.apps :=
    ⟨fun _ => ⟨unverified, by simp [fresh]⟩, fun used => absurd used (by decide)⟩
  rw [List.range_eq_range']
  exact settled.fallback_run start other
    (fun action mem => ⟨whole action (List.mem_append_right _ mem), onTrial action mem⟩) run

end Runs

/-! ## On the board -/

def upgradeRun : List Action :=
  [.call .init, .call (.downloadStart smallPackage),
    .call (.download 0 (smallPackage.toBytes ++ .replicate 8 0)), .call .downloadFinish,
    .powerLoss .init 0, .call .init, .call .bootPreprocess]

set_option maxRecDepth 100000 in
theorem upgradeRun_jumps : (upgradeRun.foldlM (Device.step stm32g0xxCrc32) delivered).map (fun d =>
      d.world.jumps.map fun jump => (jump.slot, jump.entry)) =
      some [(Layout.board.slot0, Layout.board.appAddr Layout.board.slot0 + 56)] := by
  decide +kernel

/-- The upgrade is orderly, and boots the new image at its offset. -/
theorem orderly_of_upgrade : ∃ d' r,
    upgradeRun.foldlM (Device.step stm32g0xxCrc32) delivered = some d' ∧
      d'.world.jumps.map (fun jump => (jump.slot, jump.entry)) =
        [(Layout.board.slot0, Layout.board.appAddr Layout.board.slot0 + 56)] ∧
      Orderly stm32g0xxCrc32 d' r := by
  obtain ⟨d', run, jumps⟩ := Option.map_eq_some_iff.mp upgradeRun_jumps
  obtain ⟨r, orderly⟩ := orderly_of_run delivered_factory (by simp [upgradeRun, Action.whole]) run
  exact ⟨d', r, run, jumps, orderly⟩

end NeoRuntime.Ota
