import NeoRuntime.Ota.ModuleProof
import NeoRuntime.Ota.Slots

/-!
# What a call leaves behind

`spec_call` describes every call on an initialised module: what it has done when it returns (`Left`),
and what a loss of power in the middle of it finds, after the operations made so far (`Cut`).
-/

namespace NeoRuntime.Ota

open Prog

section Calls

variable {L : Layout} (crc32 : List UInt8 → UInt32)

/-- The record names the slots as they lie. -/
def Layout.Placed (L : Layout) (r : OtaRecord L.count) : Prop :=
  ∀ i, (r.apps i).flashType = .internal ∧ (r.apps i).flashAddr = L.appAddr i ∧
    (r.apps i).flashSize = L.appSize

/-- A download goes into a slot that is marked so and is not complete; it has not passed its end. -/
structure Opened (r : OtaRecord L.count) (c : Fin L.count → Bool) (dl : Download L) : Prop where
  status : (r.apps dl.target).status = .downloading
  within : dl.downloadedSize.toNat ≤ dl.expectedTotalSize.toNat
  fits : dl.expectedTotalSize.toNat ≤ L.appSize.toNat
  incomplete : dl.expectedTotalSize ≠ 0 → c dl.target = false

theorem Opened.congr {r r' : OtaRecord L.count} {c : Fin L.count → Bool} {dl : Download L}
    (opened : Opened r c dl) (same : (r'.apps dl.target).status = (r.apps dl.target).status) :
    Opened r' c dl :=
  ⟨same.trans opened.status, opened.within, opened.fits, opened.incomplete⟩

/-- Between two calls of an initialised module. -/
structure Ready (w : World L) (s : Session L) (r : OtaRecord L.count) : Prop where
  inited : s.inited = true
  stored : w.stored crc32 = some r
  placed : L.Placed r
  tidy : w.Tidy
  opened : ∀ dl, s.dl = some dl → Opened r w.complete dl

/-- The last operation is an erase in the slot. -/
def LastErased (m : List (Mark L)) (i : Fin L.count) : Prop :=
  ∃ addr size, m.getLast? = some (.erased addr size) ∧ L.meets i addr.toNat size.toNat = true

/-- The record page was erased last, or a record was written of which the end is in the cache. -/
def Unrecorded (m : List (Mark L)) : Prop :=
  m.getLast? = some (.recordErased L) ∨
    m.getLast? = some (.recordWritten L) ∧ L.recordSize % 8 ≠ 0

/-- By what was there before, and by the operations since, slot 0 is complete. -/
def Intact (w : World L) (m : List (Mark L)) : Prop :=
  .crcMatched L.slot0 ∈ m ∨ w.complete L.slot0 = true ∧
    ∀ addr size, .erased addr size ∈ m → L.meets L.slot0 addr.toNat size.toNat = false

/-- The statuses are unchanged; a slot that is now different was erased last and may not run (unless
it is the only one), or has just been downloaded. -/
def Spared (r : OtaRecord L.count) (c : Fin L.count → Bool) (m : List (Mark L))
    (apps : Fin L.count → AppInfo) (c' : Fin L.count → Bool) : Prop :=
  apps = r.apps ∧ ∀ j, c' j = c j ∨ (r.apps j).status = .downloading ∨ LastErased m j ∧
    (L.count = 1 ∨ ((r.apps j).status ≠ .unverified ∧ (r.apps j).status ≠ .active))

/-- The jumps of a call go to the boot candidate of the record it leaves. -/
structure JumpsTo (r : OtaRecord L.count) (c : Fin L.count → Bool) (jump : Jump L) : Prop where
  candidate : r.chooseBootCandidateOtaSlot = some jump.slot
  complete : jump.complete = c jump.slot

/-- What a loss of power finds in the middle of a call that has made the operations `m`. -/
structure Cut (call : Call) (r : OtaRecord L.count) (w : World L) (m : List (Mark L)) (t : World L) :
    Prop where
  record : ∀ r', t.stored crc32 = some r' → L.Placed r' ∧
    (Spared r w.complete m r'.apps t.complete ∨ Change r w.complete call r'.apps t.complete)
  lost : t.stored crc32 = none → Unrecorded m
  intact : Intact w m → t.complete L.slot0 = true
  jumps : ∃ new, t.jumps = w.jumps ++ new ∧ ∀ jump ∈ new, ∃ r', t.stored crc32 = some r' ∧
    Change r w.complete call r'.apps t.complete ∧ JumpsTo r' t.complete jump

/-- What a call has done when it returns and leaves the record `r'`. -/
structure Left (call : Call) (r : OtaRecord L.count) (w : World L) (s : Session L) (t : World L)
    (r' : OtaRecord L.count) : Prop where
  ready : Ready crc32 t s r'
  change : Change r w.complete call r'.apps t.complete
  jumps : ∃ new, t.jumps = w.jumps ++ new ∧ (∀ jump ∈ new, JumpsTo r' t.complete jump) ∧
    new.map Jump.slot = if call = .bootPreprocess then r'.chooseBootCandidateOtaSlot.toList else []
  bytes : ∀ i, w.complete i = true → t.complete i = true → ∀ a, (L.appAddr i).toNat ≤ a →
    a < (L.appAddr i).toNat + L.appSize.toNat → t.flash.mem a = w.flash.mem a

/-- The call is cut when it has returned. -/
def Done (call : Call) (r : OtaRecord L.count) (w : World L) (s : Session L)
    (u : World L × List (Mark L)) : Prop :=
  Cut crc32 call r w u.2 u.1 ∧ ∃ r', Left crc32 call r w s u.1 r'

/-- The program may be cut anywhere, and returns as described, with this session. -/
def Spec {α : Type} (session : α → Session L) (call : Call) (r : OtaRecord L.count) (w : World L) :
    Prog (FlashOp L) α → World L × List (Mark L) → Prop :=
  Safe (markHandler L) (fun u => Cut crc32 call r w u.2 u.1) fun a => Done crc32 call r w (session a)

variable {call : Call} {r r₁ : OtaRecord L.count} {w t : World L} {s s' : Session L}
  {m : List (Mark L)}

theorem World.Same.refl (tidy : w.Tidy) : World.Same crc32 w w := ⟨rfl, rfl, .refl w, tidy⟩

variable {crc32}

theorem Cut.of_same (ready : Ready crc32 w s r) (same : World.Same crc32 w t)
    (marks : .crcMatched L.slot0 ∉ m) : Cut crc32 call r w m t where
  record := by
    intro r' stored
    rw [same.stored, ready.stored] at stored
    obtain rfl := Option.some.inj stored
    exact ⟨ready.placed, .inl ⟨rfl, fun j => .inl (by rw [same.complete])⟩⟩
  lost := fun none => by simp [same.stored, ready.stored] at none
  intact := fun intact => same.complete ▸ (intact.resolve_left marks).1
  jumps := ⟨[], by simp [same.quiet.jumps], by simp⟩

theorem Ready.cut (ready : Ready crc32 w s r) : Cut crc32 call r w [] w :=
  .of_same ready (.refl crc32 ready.tidy) (by simp)

theorem Ready.loaded (ready : Ready crc32 w s r) : w.loaded crc32 = (.ok, r) := by
  rw [World.loaded, ready.stored]

theorem Left.of_same (ready : Ready crc32 w s r) (same : World.Same crc32 w t)
    (idle : call ≠ .bootPreprocess ∧ (call = .markVerified → r.firstWith .unverified = none))
    (inited : s'.inited = true)
    (opened : ∀ dl, s'.dl = some dl → Opened r w.complete dl) : Left crc32 call r w s' t r where
  ready :=
    { inited := inited
      stored := same.stored.trans ready.stored
      placed := ready.placed
      tidy := same.tidy
      opened := same.complete ▸ opened }
  change := same.complete ▸ .keep idle
  jumps := ⟨[], by simp [same.quiet.jumps], by simp, by simp [idle.1]⟩
  bytes := same.quiet.bytes

theorem Done.ret {α : Type} {session : α → Session L} {a : α} {u : World L × List (Mark L)}
    (done : Done crc32 call r w (session a) u) : Spec crc32 session call r w (ret a) u :=
  ⟨done.1, done⟩

theorem Done.of_same (ready : Ready crc32 w s r) (same : World.Same crc32 w t)
    (marks : .crcMatched L.slot0 ∉ m)
    (idle : call ≠ .bootPreprocess ∧ (call = .markVerified → r.firstWith .unverified = none))
    (inited : s'.inited = true) (opened : ∀ dl, s'.dl = some dl → Opened r w.complete dl) :
    Done crc32 call r w s' (t, m) :=
  ⟨.of_same ready same marks, r, .of_same ready same idle inited opened⟩

theorem spec_ret (ready : Ready crc32 w s r)
    (idle : call ≠ .bootPreprocess ∧ (call = .markVerified → r.firstWith .unverified = none))
    (rc : OtaErr) : Spec crc32 Prod.snd call r w (ret (rc, s)) (w, []) :=
  (Done.of_same ready (.refl crc32 ready.tidy) (by simp) idle ready.inited ready.opened).ret

theorem spec_load {f : OtaErr × OtaRecord L.count → Prog (FlashOp L) (OtaErr × Session L)}
    (ready : Ready crc32 w s r) (rest : Spec crc32 Prod.snd call r w (f (.ok, r)) (w, [])) :
    Spec crc32 Prod.snd call r w (recordLoad crc32 s >>= f) (w, []) := by
  refine (marks_recordLoad crc32 ready.inited ready.cut).bind ?_
  rintro _ _ ⟨rfl, rfl⟩
  rwa [ready.loaded]

theorem Intact.of_store {stored : List (Mark L)} (intact : Intact w (m ++ stored))
    (store : stored <+: Mark.store L) : Intact w m := by
  refine intact.imp (fun mem => ?_) fun ⟨complete, apart⟩ =>
    ⟨complete, fun addr size mem => apart addr size (List.mem_append_left _ mem)⟩
  rcases List.mem_append.1 mem with old | new
  · exact old
  · have := store.subset new
    simp [Mark.store, Mark.recordErased, Mark.recordWritten] at this

theorem Cut.of_change {u : World L} {stored : List (Mark L)} (here : Cut crc32 call r w m t)
    (jumps : u.jumps = w.jumps) (same : u.complete = t.complete) (placed : L.Placed r₁)
    (change : Change r w.complete call r₁.apps t.complete) (store : stored <+: Mark.store L)
    (record : u.stored crc32 = some (sealRecord crc32 r₁) ∨
      u.stored crc32 = none ∧ Unrecorded (m ++ stored)) :
    Cut crc32 call r w (m ++ stored) u where
  record := by
    intro r' eq
    rcases record with some | ⟨none, -⟩
    · rw [some] at eq
      obtain rfl := Option.some.inj eq
      exact ⟨placed, .inr (same ▸ change)⟩
    · rw [none] at eq
      cases eq
  lost := fun none => (record.resolve_left (by simp [none])).2
  intact := fun intact => same ▸ here.intact (intact.of_store store)
  jumps := ⟨[], by simp [jumps], by simp⟩

theorem marks_store (inited : s.inited = true) (here : Cut crc32 call r w m t)
    (jumps : t.jumps = w.jumps) (placed : L.Placed r₁)
    (change : Change r w.complete call r₁.apps t.complete) :
    Safe (markHandler L) (fun u => Cut crc32 call r w u.2 u.1)
      (fun rc u => rc = .ok ∧ u.1 = t.recordStored crc32 r₁ ∧ Cut crc32 call r w u.2 u.1)
      (recordStore crc32 s r₁) (t, m) := by
  have erased : Unrecorded (m ++ [.recordErased L]) := .inl (by simp)
  have written (none : (t.recordWritten crc32 r₁).stored crc32 = none) :
      Unrecorded (m ++ [.recordErased L, .recordWritten L]) := by
    refine .inr ⟨by simp, fun words => ?_⟩
    rw [recordWritten_of_words crc32 words, stored_recordStored] at none
    cases none
  have done : Cut crc32 call r w (m ++ Mark.store L) (t.recordStored crc32 r₁) :=
    here.of_change jumps rfl placed change List.prefix_rfl (.inl (stored_recordStored crc32 t r₁))
  refine marks_recordStore crc32 inited here ?_ ?_ done ⟨rfl, rfl, done⟩
  · exact here.of_change jumps rfl placed change ⟨_, rfl⟩ (.inr ⟨stored_recordErased crc32 t, erased⟩)
  · refine here.of_change jumps rfl placed change ⟨_, rfl⟩ ?_
    exact (stored_recordWritten crc32 t r₁).symm.imp_right fun none => ⟨none, written none⟩

theorem Ready.of_store (inited : s.inited = true) (placed : L.Placed r₁)
    (opened : ∀ dl, s.dl = some dl → Opened r₁ t.complete dl) :
    Ready crc32 (t.recordStored crc32 r₁) s (sealRecord crc32 r₁) where
  inited := inited
  stored := stored_recordStored crc32 t r₁
  placed := placed
  tidy := fun _ cached => by cases cached
  opened := fun dl eq => (opened dl eq).congr rfl

theorem Left.of_store (inited : s.inited = true) (other : call ≠ .bootPreprocess)
    (quiet : w.Quiet t) (placed : L.Placed r₁)
    (change : Change r w.complete call r₁.apps t.complete)
    (opened : ∀ dl, s.dl = some dl → Opened r₁ t.complete dl) :
    Left crc32 call r w s (t.recordStored crc32 r₁) (sealRecord crc32 r₁) where
  ready := .of_store inited placed opened
  change := change
  jumps := ⟨[], quiet.jumps.trans (List.append_nil _).symm, by simp, by simp [other]⟩
  bytes := (quiet.recordStored crc32 r₁).bytes

theorem spec_store (s' : Session L) {f : OtaErr → Prog (FlashOp L) (OtaErr × Session L)} {rc : OtaErr}
    (inited : s.inited = true) (inited' : s'.inited = true) (other : call ≠ .bootPreprocess)
    (here : Cut crc32 call r w m t) (quiet : w.Quiet t) (placed : L.Placed r₁)
    (change : Change r w.complete call r₁.apps t.complete)
    (opened : ∀ dl, s'.dl = some dl → Opened r₁ t.complete dl) (rest : f .ok = ret (rc, s')) :
    Spec crc32 Prod.snd call r w (recordStore crc32 s r₁ >>= f) (t, m) := by
  refine (marks_store inited here quiet.jumps placed change).bind ?_
  rintro _ ⟨u, m'⟩ ⟨rfl, rfl, cut⟩
  rw [rest]
  exact Done.ret ⟨cut, _, .of_store inited' other quiet placed change opened⟩

theorem Layout.Placed.setStatus (placed : L.Placed r) (i : Fin L.count) (status : AppStatus) :
    L.Placed (r.setStatus i status) := by
  intro j
  by_cases eq : j = i
  · subst eq
    simpa [OtaRecord.setStatus] using placed j
  · rw [OtaRecord.setStatus_ne r eq]
    exact placed j

theorem Layout.Placed.countBoot (placed : L.Placed r) (i : Fin L.count) :
    L.Placed (r.countBoot i) := by
  intro j
  simp only [OtaRecord.countBoot]
  split
  · next eq => exact eq ▸ placed i
  · exact placed j

/-! ## The calls -/

theorem spec_init (ready : Ready crc32 w s r) :
    Spec crc32 Prod.snd .init r w (otaModuleInit crc32) (w, []) := by
  have fresh : Ready crc32 w { inited := true, dl := none } r :=
    ⟨rfl, ready.stored, ready.placed, ready.tidy, by simp⟩
  refine spec_load fresh ?_
  exact spec_ret fresh (by simp) .ok

theorem spec_downloadAbort (ready : Ready crc32 w s r) :
    Spec crc32 Prod.snd .downloadAbort r w (otaModuleOtaDownloadAbort crc32 s) (w, []) := by
  rw [otaModuleOtaDownloadAbort, if_neg (by simp [ready.inited])]
  refine spec_load ready ?_
  dsimp only
  split
  · exact spec_ret ready (by simp) .slotUnavailable
  · next i eq =>
    have target : (r.apps i).status = .downloading := by
      split at eq
      · next dl opened =>
        cases eq
        exact (ready.opened dl opened).status
      · exact OtaRecord.status_of_firstWith eq
    exact spec_store { s with dl := none } ready.inited ready.inited (by simp) ready.cut
      (.refl w) (ready.placed.setStatus i .invalid) (.abort target) (by simp) (if_neg (by simp))

theorem spec_setBootYmodemFlag (ready : Ready crc32 w s r) (flag : UInt32) :
    Spec crc32 Prod.snd (.setBootYmodemFlag flag) r w
      ((Call.setBootYmodemFlag flag).program crc32 s) (w, []) := by
  rw [Call.program, otaModuleSetBootYmodemFlag, if_neg (by simp [ready.inited]), Prog.bind_assoc]
  refine spec_load ready ?_
  exact spec_store s ready.inited ready.inited (by simp) ready.cut (.refl w) ready.placed
    (.keep (by simp)) (fun dl eq => (ready.opened dl eq).congr rfl) rfl

theorem spec_markVerified (ready : Ready crc32 w s r) :
    Spec crc32 Prod.snd .markVerified r w (Call.markVerified.program crc32 s) (w, []) := by
  rw [Call.program, otaModuleAppMarkVerified, if_neg (by simp [ready.inited]), Prog.bind_assoc]
  refine spec_load ready ?_
  simp only [ne_eq, not_true_eq_false, if_false]
  cases stores : r.markVerifiedPromoteUnverifiedOtaSlot with
  | unchanged => exact spec_ret ready ⟨by simp, fun _ => r.verified_of_promotion (by simp [stores])⟩ .ok
  | error =>
    exact spec_ret ready ⟨by simp, fun _ => r.verified_of_promotion (by simp [stores])⟩ .appStatus
  | store r' =>
    obtain ⟨uv, first, -, others⟩ := OtaRecord.promoted stores
    rw [Prog.bind_assoc]
    refine spec_store s ready.inited ready.inited (by simp) ready.cut (.refl w) ?_ (.promote stores) ?_
      rfl
    · intro j
      obtain ⟨type, addr, size⟩ := OtaRecord.promoted_place stores j
      rw [type, addr, size]
      exact ready.placed j
    · intro dl eq
      have opened := ready.opened dl eq
      refine opened.congr ?_
      have ne : dl.target ≠ uv := by
        intro same
        have unverified := OtaRecord.status_of_firstWith first
        rw [← same, opened.status] at unverified
        cases unverified
      obtain ⟨ran, -⟩ | ⟨same, -⟩ := others dl.target ne
      · simp [opened.status] at ran
      · rw [same]

section Boot

variable {r' : OtaRecord L.count} (ready : Ready crc32 t s r')
  (change : Change r w.complete .bootPreprocess r'.apps t.complete) (quiet : w.Quiet t)
  (here : Cut crc32 .bootPreprocess r w m t)

include ready change quiet here

theorem spec_jumpToSlot {i : Fin L.count} (candidate : r'.chooseBootCandidateOtaSlot = some i)
    (r₁ : OtaRecord L.count) :
    Spec crc32 (fun _ => s) .bootPreprocess r w (jumpToSlot crc32 r₁ i) (t, m) := by
  have done : ∀ entry, let u := { t with jumps := t.jumps ++ [⟨i, entry, t.complete i⟩] }
      Done crc32 .bootPreprocess r w s (u, m) := by
    intro entry u
    have goes : ∀ jump ∈ [(⟨i, entry, t.complete i⟩ : Jump L)], JumpsTo r' u.complete jump := by
      intro jump mem
      obtain rfl := List.mem_singleton.mp mem
      exact ⟨candidate, rfl⟩
    have new : u.jumps = w.jumps ++ [⟨i, entry, t.complete i⟩] := by rw [← quiet.jumps]
    refine ⟨⟨here.record, here.lost, here.intact, _, new, fun jump mem =>
      ⟨r', ready.stored, change, goes jump mem⟩⟩, r', ?_⟩
    refine ⟨⟨ready.inited, ready.stored, ready.placed, ready.tidy, ready.opened⟩, change,
      ⟨_, new, goes, by simp [candidate]⟩, quiet.bytes⟩
  refine (marks_otaCalcEntryAddrFromHeader crc32 here _).bind ?_
  rintro entry _ rfl
  have jump : markHandler L _ (.jump i entry) (t, m) =
      (decide (entry ≠ 0), { t with jumps := t.jumps ++ [⟨i, entry, t.complete i⟩] }, m) := by
    rw [markHandler_eq]
    simp [mark, portHandler]
  rw [safe_perform_bind, jump]
  refine ⟨here, ?_⟩
  split
  · exact (done entry).ret
  · exact (done entry).ret

theorem spec_bootCandidate {r₁ : OtaRecord L.count} (same : r₁.apps = r'.apps) :
    Spec crc32 (fun _ => s) .bootPreprocess r w (bootCandidate crc32 r₁) (t, m) := by
  have choice : r₁.chooseBootCandidateOtaSlot = r'.chooseBootCandidateOtaSlot := by
    simp only [OtaRecord.chooseBootCandidateOtaSlot, OtaRecord.firstWith, same]
  unfold bootCandidate
  rw [choice]
  cases candidate : r'.chooseBootCandidateOtaSlot with
  | some i => exact spec_jumpToSlot ready change quiet here candidate r₁
  | none =>
    exact Done.ret ⟨here, r', ready, change,
      ⟨[], by simp [quiet.jumps], by simp, by simp [candidate]⟩, quiet.bytes⟩

end Boot

variable (ready : Ready crc32 w s r)

include ready

/-- `ota_module_boot_preprocess` stores the record before it jumps. -/
theorem spec_bootStore {boot : Prog (FlashOp L) OtaErr}
    (placed : L.Placed r₁) (change : Change r w.complete .bootPreprocess r₁.apps w.complete)
    (kept : ∀ j, (r.apps j).status = .downloading → (r₁.apps j).status = .downloading)
    (next : ∀ t m, Ready crc32 t s (sealRecord crc32 r₁) → t.complete = w.complete → w.Quiet t →
      Cut crc32 .bootPreprocess r w m t →
        Spec crc32 (fun _ => s) .bootPreprocess r w boot (t, m)) :
    Spec crc32 Prod.snd .bootPreprocess r w (recordStore crc32 s r₁ >>= fun rc =>
      (if rc ≠ .ok then ret rc else boot) >>= fun rc => ret (rc, s)) (w, []) := by
  refine (marks_store ready.inited ready.cut rfl placed change).bind ?_
  rintro _ ⟨_, m⟩ ⟨rfl, rfl, cut⟩
  rw [if_neg (by simp)]
  refine (next _ m (.of_store ready.inited placed fun dl eq => ?_) rfl
    ((World.Quiet.refl w).recordStored crc32 r₁) cut).bind fun rc u done => Done.ret done
  have opened := ready.opened dl eq
  exact opened.congr ((kept _ opened.status).trans opened.status.symm)

theorem spec_bootPreprocess :
    Spec crc32 Prod.snd .bootPreprocess r w (Call.bootPreprocess.program crc32 s) (w, []) := by
  rw [Call.program, otaModuleBootPreprocess, Prog.bind_assoc]
  refine spec_load ready ?_
  dsimp only
  cases first : r.firstWith .unverified with
  | none =>
    exact (spec_bootCandidate ready (.boot first) (.refl w) ready.cut rfl).bind
      fun rc u done => Done.ret done
  | some uv =>
    have unverified := OtaRecord.status_of_firstWith first
    dsimp only
    by_cases used : (r.apps uv).verifyCount + 1 ≥ otaAppMaxVerifyCount
    · rw [if_pos used, Prog.bind_assoc]
      have change : Change r w.complete .bootPreprocess (r.setStatus uv .invalid).apps w.complete :=
        .exhaust first used
      refine spec_bootStore ready (ready.placed.setStatus uv .invalid) change ?_ ?_
      · intro j opened
        rwa [OtaRecord.setStatus_ne r]
        rintro rfl
        simp [unverified] at opened
      · intro t m ready' complete quiet cut
        exact spec_bootCandidate ready' (complete ▸ change) quiet cut rfl
    · rw [if_neg used, Prog.bind_assoc]
      have change : Change r w.complete .bootPreprocess (r.countBoot uv).apps w.complete :=
        .count first used
      refine spec_bootStore ready (ready.placed.countBoot uv) change ?_ ?_
      · intro j opened
        rwa [r.status_countBoot]
      · intro t m ready' complete quiet cut
        refine spec_jumpToSlot ready' (complete ▸ change) quiet cut ?_ _
        -- counting a boot changes no status, so that the slot is still the first choice
        have still : (sealRecord crc32 (r.countBoot uv)).firstWith .unverified = some uv := by
          rw [← first]
          exact congrArg (List.find? · _) (funext fun j => by rw [← r.status_countBoot uv j]; rfl)
        rw [OtaRecord.chooseBootCandidateOtaSlot, still, Option.some_or]

omit ready in
theorem toNat_le_of_not_gt {a b : UInt32} (le : ¬ a > b) : a.toNat ≤ b.toNat :=
  UInt32.le_iff_toNat_le.mp (UInt32.not_lt.mp le)

omit ready in
theorem Layout.toNat_appEnd (L : Layout) (i : Fin L.count) :
    (L.appAddr i + L.appSize).toNat = (L.appAddr i).toNat + L.appSize.toNat := by
  have := L.app_end i
  have := L.sector_pos
  rw [UInt32.toNat_add, Nat.mod_eq_of_lt (by omega)]

theorem spec_downloadInto {hdr : OtaPackageHeader} {i : Fin L.count}
    (target : r.chooseTargetOtaSlot = some i) :
    Spec crc32 Prod.snd (.downloadStart hdr) r w (downloadInto crc32 s hdr r i) (w, []) := by
  obtain ⟨type, addr, size⟩ := ready.placed i
  unfold downloadInto
  rw [type, addr, size]
  split
  · exact spec_ret ready (by simp) .flashSize
  · split
    · exact spec_ret ready (by simp) .flashSize
    · next fits =>
      have le := toNat_le_of_not_gt fits
      have others : ∀ j, j ≠ i → (w.slotErased i hdr.total).complete j = w.complete j :=
        fun j ne => complete_slotErased_ne le ne
      have stored := (stored_slotErased crc32 le (w := w) (i := i)).trans ready.stored
      have erased : Cut crc32 (.downloadStart hdr) r w
          [.erased (L.appAddr i) (alignUp hdr.total L.sectorSize)] (w.slotErased i hdr.total) := by
        refine ⟨fun r' stored' => ?_, fun none => by simp [stored] at none, fun intact => ?_, [],
          by simp [World.slotErased], by simp⟩
        · obtain rfl := Option.some.inj (stored.symm.trans stored')
          refine ⟨ready.placed, .inl ⟨rfl, fun j => ?_⟩⟩
          cases meets : L.meets j (L.appAddr i).toNat (alignUp hdr.total L.sectorSize).toNat with
          | false => exact .inl (by simp [complete_slotErased le, meets])
          | true =>
            by_cases eq : j = i
            · exact .inr (.inr ⟨⟨_, _, rfl, meets⟩, eq ▸ OtaRecord.status_of_target target⟩)
            · exact .inl (others j eq)
        · obtain ⟨complete, apart⟩ := intact.resolve_left (by simp)
          rw [complete_slotErased le, complete, apart _ _ (List.mem_singleton_self _)]
          rfl
      split
      · exact spec_ret ready (by simp) .flashSize
      · refine (marks_eraseSlot ready.cut erased).bind ?_
        rintro _ _ ⟨rfl, rfl⟩
        rw [if_neg (by simp)]
        refine spec_store { s with dl := some (.start i hdr) } ready.inited ready.inited
          (by simp) erased (World.quiet_slotErased le) (ready.placed.setStatus i .downloading) (.start target others) ?_
          (if_neg (by simp))
        rintro dl ⟨⟩
        exact ⟨r.setStatus_self i _, Nat.zero_le _, le, complete_slotErased_self le⟩

theorem spec_downloadStart (hdr : OtaPackageHeader) :
    Spec crc32 Prod.snd (.downloadStart hdr) r w (otaModuleOtaDownloadStart crc32 s hdr) (w, []) := by
  rw [otaModuleOtaDownloadStart, if_neg (by simp [ready.inited])]
  split
  · exact spec_ret ready (by simp) _
  · split
    · exact spec_ret ready (by simp) _
    · split
      · exact spec_ret ready (by simp) _
      · refine spec_load ready ?_
        dsimp only
        cases target : r.chooseTargetOtaSlot with
        | none => exact spec_ret ready (by simp) _
        | some i => exact spec_downloadInto ready target

theorem spec_downloadChunk {dl : Download L} (eq : s.dl = some dl)
    (offset : UInt32) (data : List UInt8) :
    Spec crc32 Prod.snd (.download offset data) r w
      (downloadChunk s dl (r.apps dl.target) offset data) (w, []) := by
  obtain ⟨type, addr, size⟩ := ready.placed dl.target
  have opened := ready.opened dl eq
  simp only [downloadChunk]
  rw [type, addr, size]
  split
  · exact spec_ret ready (by simp) _
  · split
    · exact spec_ret ready (by simp) _
    · next next =>
      split
      · exact spec_ret ready (by simp) _
      · next most =>
        split
        · exact spec_ret ready (by simp) _
        · next some =>
          split
          · exact spec_ret ready (by simp) _
          · next inside =>
            obtain rfl := not_not.mp next
            have same : World.Same crc32 w (portHandler L _ (.write .internal
                (L.appAddr dl.target + dl.downloadedSize) data) w).2 := by
              refine same_download crc32 ready.tidy ?_ (opened.within.trans opened.fits) ?_
              · refine opened.incomplete fun zero => some ?_
                have within := opened.within
                rw [zero, UInt32.toNat_zero, Nat.le_zero] at within
                have le := toNat_le_of_not_gt most
                rw [UInt32.toNat_inj.mp (within.trans UInt32.toNat_zero.symm), zero, UInt32.zero_add,
                  UInt32.toNat_zero, Nat.le_zero] at le
                exact UInt32.toNat_inj.mp le
              · exact (toNat_le_of_not_gt inside).trans (L.toNat_appEnd dl.target).le
            rw [Spec, safe_perform_bind, markHandler_eq]
            refine ⟨ready.cut, ?_⟩
            have marks : .crcMatched L.slot0 ∉ [] ++ (mark (L := L) _ (.write .internal
                (L.appAddr dl.target + dl.downloadedSize) data)).toList := by
              simp only [mark]
              split <;> simp
            split
            · refine Done.ret (.of_same ready same marks (by simp) ready.inited ?_)
              rintro _ ⟨⟩
              exact ⟨opened.status, toNat_le_of_not_gt most, opened.fits, opened.incomplete⟩
            · exact Done.ret (.of_same ready same marks (by simp) ready.inited ready.opened)

theorem spec_download (offset : UInt32) (data : List UInt8) :
    Spec crc32 Prod.snd (.download offset data) r w (otaModuleOtaDownload crc32 s offset data)
      (w, []) := by
  rw [otaModuleOtaDownload, if_neg (by simp [ready.inited])]
  cases eq : s.dl with
  | none => exact spec_ret ready (by simp) _
  | some dl =>
    refine spec_load ready ?_
    exact spec_downloadChunk ready eq offset data

omit ready in
theorem complete_crcMatched (t : World L) (i : Fin L.count) :
    (portHandler L _ (.crcMatched i) t).2.complete = fun j => j = i || t.complete j := rfl

omit ready in
theorem quiet_crcMatched (same : World.Same crc32 w t) (i : Fin L.count) :
    w.Quiet (portHandler L _ (.crcMatched i) t).2 :=
  ⟨same.quiet.jumps, fun j before _ => same.quiet.bytes j before (same.complete ▸ before)⟩

/-- An image is complete, and its slot is still marked as downloading. -/
theorem cut_crcMatched {i : Fin L.count} (same : World.Same crc32 w t)
    (opened : (r.apps i).status = .downloading) :
    Cut crc32 call r w [.flushed, .crcMatched i] (portHandler L _ (.crcMatched i) t).2 where
  record := by
    intro r' stored
    obtain rfl := Option.some.inj ((stored.symm.trans same.stored).trans ready.stored)
    refine ⟨ready.placed, .inl ⟨rfl, fun j => ?_⟩⟩
    rw [complete_crcMatched, same.complete]
    by_cases eq : j = i
    · exact .inr (.inl (eq ▸ opened))
    · exact .inl (by simp [eq])
  lost := fun none => by cases (same.stored.trans ready.stored).symm.trans none
  intact := by
    rw [complete_crcMatched, same.complete]
    rintro (now | ⟨before, -⟩)
    · simp_all
    · simp [before]
  jumps := ⟨[], same.quiet.jumps.trans (List.append_nil _).symm, by simp⟩

theorem spec_finishDownload {dl : Download L} (eq : s.dl = some dl) :
    Spec crc32 Prod.snd .downloadFinish r w (finishDownload crc32 s dl r) (w, []) := by
  have opened := ready.opened dl eq
  unfold finishDownload
  rw [(ready.placed dl.target).1]
  split
  · exact spec_ret ready (by simp) _
  · split
    · exact spec_ret ready (by simp) _
    · rw [Spec, safe_perform_bind, markHandler_eq]
      refine ⟨ready.cut, ?_⟩
      have same : World.Same crc32 w (portHandler L _ (.write .internal 0 []) w).2 :=
        same_flush crc32 ready.tidy
      generalize (portHandler L _ (.write .internal 0 []) w).2 = t at same ⊢
      have here : Cut crc32 .downloadFinish r w [.flushed] t := .of_same ready same (by simp)
      refine (marks_flashCrc32AppBody crc32 here _ _).bind ?_
      rintro crc _ rfl
      cases crc with
      | error rc =>
        exact Done.ret (.of_same ready same (by simp [mark]) (by simp) ready.inited ready.opened)
      | ok crc =>
        dsimp only
        split
        · exact spec_store { s with dl := none } ready.inited ready.inited (by simp)
            here same.quiet (ready.placed.setStatus dl.target .invalid)
            (same.complete ▸ .reject opened.status) (by simp) (if_neg (by simp))
        · refine safe_perform_bind.mpr ⟨here, ?_⟩
          exact spec_store { s with dl := none } ready.inited ready.inited (by simp)
            (cut_crcMatched ready same opened.status) (quiet_crcMatched same _)
            (ready.placed.setStatus dl.target .unverified)
            (by
              rw [complete_crcMatched, same.complete]
              exact .accept opened.status) (by simp) (if_neg (by simp))

theorem spec_downloadFinish :
    Spec crc32 Prod.snd .downloadFinish r w (otaModuleOtaDownloadFinish crc32 s) (w, []) := by
  rw [otaModuleOtaDownloadFinish, if_neg (by simp [ready.inited])]
  cases eq : s.dl with
  | none => exact spec_ret ready (by simp) _
  | some dl =>
    refine spec_load ready ?_
    exact spec_finishDownload ready eq

theorem spec_call (call : Call) : Spec crc32 Prod.snd call r w (call.program crc32 s) (w, []) := by
  cases call with
  | init => exact spec_init ready
  | downloadStart hdr => exact spec_downloadStart ready hdr
  | download offset data => exact spec_download ready offset data
  | downloadFinish => exact spec_downloadFinish ready
  | downloadAbort => exact spec_downloadAbort ready
  | markVerified => exact spec_markVerified ready
  | setBootYmodemFlag flag => exact spec_setBootYmodemFlag ready flag
  | bootPreprocess => exact spec_bootPreprocess ready

theorem safe_call (call : Call) :
    Safe (portHandler L) (fun _ => True) (fun a t => ∃ r', Left crc32 call r w a.2 t r')
      (call.program crc32 s) w :=
  Safe.unlogged ((spec_call ready call).mono (fun _ _ => trivial) fun _ _ done => done.2)

end Calls

end NeoRuntime.Ota
