import NeoRuntime.Ota.Device

/-!
# What a call does to the slots

Seen from the slots, a call does one of a few things (`Change`): it sets the status of one slot,
counts a boot, or promotes a slot that has run well.  What is needed of the slots for a safe boot
(`Sound`) is kept by all of them.
-/

namespace NeoRuntime.Ota

section FirstWith

variable {n : ℕ} {r : OtaRecord n} {status : AppStatus} {i : Fin n}

theorem OtaRecord.status_of_firstWith (first : r.firstWith status = some i) :
    (r.apps i).status = status := by
  simpa using List.find?_some first

theorem OtaRecord.firstWith_eq_none :
    r.firstWith status = none ↔ ∀ i, (r.apps i).status ≠ status := by
  simp [OtaRecord.firstWith]

end FirstWith

/-- The changes that a call may make to the statuses and to the completeness `c` of the slots. -/
inductive Change {n : ℕ} (r : OtaRecord n) (c : Fin n → Bool) :
    Call → (Fin n → AppInfo) → (Fin n → Bool) → Prop where
  | keep {call : Call} (idle : call ≠ .bootPreprocess ∧
      (call = .markVerified → r.firstWith .unverified = none)) : Change r c call r.apps c
  | start {hdr : OtaPackageHeader} {i : Fin n} {c' : Fin n → Bool}
      (target : r.chooseTargetOtaSlot = some i) (others : ∀ j, j ≠ i → c' j = c j) :
      Change r c (.downloadStart hdr) (r.setStatus i .downloading).apps c'
  | accept {i : Fin n} (opened : (r.apps i).status = .downloading) :
      Change r c .downloadFinish (r.setStatus i .unverified).apps fun j => j = i || c j
  | reject {i : Fin n} (opened : (r.apps i).status = .downloading) :
      Change r c .downloadFinish (r.setStatus i .invalid).apps c
  | abort {i : Fin n} (opened : (r.apps i).status = .downloading) :
      Change r c .downloadAbort (r.setStatus i .invalid).apps c
  | promote {r' : OtaRecord n} (stores : r.markVerifiedPromoteUnverifiedOtaSlot = .store r') :
      Change r c .markVerified r'.apps c
  | boot (verified : r.firstWith .unverified = none) : Change r c .bootPreprocess r.apps c
  | count {i : Fin n} (first : r.firstWith .unverified = some i)
      (left : ¬ (r.apps i).verifyCount + 1 ≥ otaAppMaxVerifyCount) :
      Change r c .bootPreprocess (r.countBoot i).apps c
  | exhaust {i : Fin n} (first : r.firstWith .unverified = some i)
      (used : (r.apps i).verifyCount + 1 ≥ otaAppMaxVerifyCount) :
      Change r c .bootPreprocess (r.setStatus i .invalid).apps c

/-- A slot that may be booted is complete; a backup need not be as long as it is not the only
choice, and with two slots one is active. -/
structure Sound {n : ℕ} (apps : Fin n → AppInfo) (c : Fin n → Bool) : Prop where
  runs : ∀ i, (apps i).status = .unverified ∨ (apps i).status = .active → c i = true
  backs : ∀ i, (apps i).status = .backup → c i = true ∨ ∃ j, (apps j).status = .active
  one : ∀ i j, (apps i).status = .active → (apps j).status = .active → i = j
  spare : n = 2 → ∃ j, (apps j).status = .active

section Sound

variable {n : ℕ} {r : OtaRecord n} {c c' : Fin n → Bool} {i : Fin n}

theorem OtaRecord.setStatus_self (r : OtaRecord n) (i : Fin n) (status : AppStatus) :
    ((r.setStatus i status).apps i).status = status := by
  simp [setStatus]

theorem OtaRecord.setStatus_ne (r : OtaRecord n) {i j : Fin n} (ne : j ≠ i) (status : AppStatus) :
    (r.setStatus i status).apps j = r.apps j := by
  simp [setStatus, ne]

theorem Sound.complete_of_candidate (sound : Sound r.apps c)
    (candidate : r.chooseBootCandidateOtaSlot = some i) : c i = true := by
  simp only [OtaRecord.chooseBootCandidateOtaSlot, Option.or_eq_some_iff] at candidate
  obtain unverified | ⟨-, active | ⟨inactive, backup⟩⟩ := candidate
  · exact sound.runs i (.inl (OtaRecord.status_of_firstWith unverified))
  · exact sound.runs i (.inr (OtaRecord.status_of_firstWith active))
  · obtain complete | ⟨j, active⟩ := sound.backs i (OtaRecord.status_of_firstWith backup)
    · exact complete
    · exact absurd active (OtaRecord.firstWith_eq_none.mp inactive j)

theorem OtaRecord.status_of_target (target : r.chooseTargetOtaSlot = some i) :
    n = 1 ∨ ((r.apps i).status ≠ .unverified ∧ (r.apps i).status ≠ .active) := by
  simp only [chooseTargetOtaSlot, Option.or_eq_some_iff] at target
  obtain first | ⟨-, first | ⟨-, first | ⟨-, first⟩⟩⟩ := target
  · simp [status_of_firstWith first]
  · simp [status_of_firstWith first]
  · simp [status_of_firstWith first]
  · split at first
    · next single => exact .inl single
    · cases first

theorem Sound.retire (sound : Sound r.apps c) {status : AppStatus}
    (out : status = .downloading ∨ status = .invalid)
    (spare : n = 1 ∨ (r.apps i).status ≠ .active) (others : ∀ j, j ≠ i → c' j = c j) :
    Sound (r.setStatus i status).apps c' := by
  have dead : ∀ s, s = .unverified ∨ s = .active ∨ s = .backup →
      ((r.setStatus i status).apps i).status ≠ s := by
    rintro s live rfl
    rw [OtaRecord.setStatus_self] at live
    obtain rfl | rfl := out <;> simp at live
  have alive : ∀ {j s}, s = .unverified ∨ s = .active ∨ s = .backup →
      ((r.setStatus i status).apps j).status = s → j ≠ i ∧ (r.apps j).status = s := by
    intro j s live eq
    have ne : j ≠ i := by
      rintro rfl
      exact dead s live eq
    exact ⟨ne, by rwa [OtaRecord.setStatus_ne r ne] at eq⟩
  have stays : (∃ j, (r.apps j).status = .active) → n ≠ 1 →
      ∃ j, ((r.setStatus i status).apps j).status = .active := by
    rintro ⟨j, active⟩ two
    have ne : j ≠ i := by
      rintro rfl
      exact spare.resolve_left two active
    exact ⟨j, by rwa [OtaRecord.setStatus_ne r ne]⟩
  refine ⟨?_, ?_, ?_, ?_⟩
  · intro j runs
    have ⟨ne, runs⟩ : j ≠ i ∧ ((r.apps j).status = .unverified ∨ (r.apps j).status = .active) := by
      obtain unverified | active := runs
      · exact (alive (by simp) unverified).imp id .inl
      · exact (alive (by simp) active).imp id .inr
    rw [others j ne]
    exact sound.runs j runs
  · intro j backup
    obtain ⟨ne, backup⟩ := alive (by simp) backup
    rw [others j ne]
    -- two different slots, so that the active one is not the one taken out
    exact (sound.backs j backup).imp id fun active => stays active (by omega)
  · intro j k activeJ activeK
    exact sound.one j k (alive (by simp) activeJ).2 (alive (by simp) activeK).2
  · intro two
    exact stays (sound.spare two) (by omega)

theorem Sound.accept (sound : Sound r.apps c) (opened : (r.apps i).status = .downloading) :
    Sound (r.setStatus i .unverified).apps fun j => j = i || c j := by
  have others : ∀ {j s}, s ≠ .unverified → ((r.setStatus i .unverified).apps j).status = s →
      j ≠ i ∧ (r.apps j).status = s := by
    intro j s other eq
    have ne : j ≠ i := by
      rintro rfl
      rw [OtaRecord.setStatus_self] at eq
      exact other eq.symm
    exact ⟨ne, by rwa [OtaRecord.setStatus_ne r ne] at eq⟩
  have stays : (∃ j, (r.apps j).status = .active) →
      ∃ j, ((r.setStatus i .unverified).apps j).status = .active := by
    rintro ⟨j, active⟩
    have ne : j ≠ i := by
      rintro rfl
      rw [active] at opened
      cases opened
    exact ⟨j, by rwa [OtaRecord.setStatus_ne r ne]⟩
  refine ⟨?_, ?_, ?_, ?_⟩
  · intro j runs
    by_cases eq : j = i
    · simp [eq]
    · rw [OtaRecord.setStatus_ne r eq] at runs
      simp [sound.runs j runs]
  · intro j backup
    obtain ⟨ne, backup⟩ := others (by simp) backup
    obtain complete | active := sound.backs j backup
    · exact .inl (by simp [complete])
    · exact .inr (stays active)
  · intro j k activeJ activeK
    exact sound.one j k (others (by simp) activeJ).2 (others (by simp) activeK).2
  · exact fun two => stays (sound.spare two)

/-- What the promotion of a slot does: it becomes active, and what ran before is a backup. -/
theorem OtaRecord.promoted {r' : OtaRecord n}
    (stores : r.markVerifiedPromoteUnverifiedOtaSlot = .store r') :
    ∃ uv, r.firstWith .unverified = some uv ∧ (r'.apps uv).status = .active ∧ ∀ j, j ≠ uv →
      (((r.apps j).status = .active ∨ (r.apps j).status = .unverified) ∧
          (r'.apps j).status = .backup) ∨
        (r'.apps j = r.apps j ∧
          ¬ ((r.apps j).status = .active ∨ (r.apps j).status = .unverified)) := by
  unfold markVerifiedPromoteUnverifiedOtaSlot at stores
  split at stores
  · split at stores <;> cases stores
  · next uv first =>
    cases stores
    refine ⟨uv, first, by simp, fun j ne => ?_⟩
    by_cases ran : (r.apps j).status = .active ∨ (r.apps j).status = .unverified
    · exact .inl ⟨ran, by simp [ne, ran]⟩
    · exact .inr ⟨by simp [ne, ran], ran⟩

theorem OtaRecord.verified_of_promotion (r : OtaRecord n)
    (kept : ∀ r', r.markVerifiedPromoteUnverifiedOtaSlot ≠ .store r') :
    r.firstWith .unverified = none := by
  unfold markVerifiedPromoteUnverifiedOtaSlot at kept
  split at kept
  · assumption
  · exact absurd rfl (kept _)

theorem OtaRecord.promoted_place {r' : OtaRecord n}
    (stores : r.markVerifiedPromoteUnverifiedOtaSlot = .store r') (j : Fin n) :
    (r'.apps j).flashType = (r.apps j).flashType ∧ (r'.apps j).flashAddr = (r.apps j).flashAddr ∧
      (r'.apps j).flashSize = (r.apps j).flashSize := by
  unfold markVerifiedPromoteUnverifiedOtaSlot at stores
  split at stores
  · split at stores <;> cases stores
  · cases stores
    dsimp only
    split
    · exact ⟨rfl, rfl, rfl⟩
    · split <;> exact ⟨rfl, rfl, rfl⟩

theorem Sound.promote (sound : Sound r.apps c) {r' : OtaRecord n}
    (stores : r.markVerifiedPromoteUnverifiedOtaSlot = .store r') : Sound r'.apps c := by
  obtain ⟨uv, first, self, others⟩ := OtaRecord.promoted stores
  have only : ∀ j, (r'.apps j).status = .unverified ∨ (r'.apps j).status = .active → j = uv := by
    intro j runs
    by_contra ne
    obtain ⟨-, backup⟩ | ⟨same, idle⟩ := others j ne
    · simp [backup] at runs
    · rw [same] at runs
      exact idle runs.symm
  refine ⟨?_, fun j _ => .inr ⟨uv, self⟩, ?_, fun _ => ⟨uv, self⟩⟩
  · intro j runs
    rw [only j runs]
    exact sound.runs uv (.inl (OtaRecord.status_of_firstWith first))
  · intro j k activeJ activeK
    rw [only j (.inr activeJ), only k (.inr activeK)]

theorem OtaRecord.status_countBoot (r : OtaRecord n) (i j : Fin n) :
    ((r.countBoot i).apps j).status = (r.apps j).status := by
  simp only [countBoot]
  split
  · next eq => rw [eq]
  · rfl

theorem Sound.congr {apps apps' : Fin n → AppInfo} (sound : Sound apps c)
    (same : ∀ j, (apps' j).status = (apps j).status) : Sound apps' c := by
  refine ⟨?_, ?_, ?_, ?_⟩ <;> simp only [same]
  · exact sound.runs
  · exact sound.backs
  · exact sound.one
  · exact sound.spare

theorem Change.sound {call : Call} {apps : Fin n → AppInfo} (change : Change r c call apps c')
    (sound : Sound r.apps c) : Sound apps c' := by
  cases change with
  | keep idle => exact sound
  | start target others =>
    exact sound.retire (.inl rfl) ((OtaRecord.status_of_target target).imp id And.right) others
  | accept opened => exact sound.accept opened
  | reject opened => exact sound.retire (.inr rfl) (.inr (by simp [opened])) fun _ _ => rfl
  | abort opened => exact sound.retire (.inr rfl) (.inr (by simp [opened])) fun _ _ => rfl
  | promote stores => exact sound.promote stores
  | boot verified => exact sound
  | count first left => exact sound.congr (r.status_countBoot _)
  | exhaust first used =>
    have unverified := OtaRecord.status_of_firstWith first
    exact sound.retire (.inr rfl) (.inr (by simp [unverified])) fun _ _ => rfl

/-- The backups are complete; this is lost while a download into a backup is being started. -/
def Backed (apps : Fin n → AppInfo) (c : Fin n → Bool) : Prop :=
  ∀ i, (apps i).status = .backup → c i = true

theorem Backed.setStatus (backed : Backed r.apps c) {status : AppStatus} (other : status ≠ .backup)
    (others : ∀ j, j ≠ i → c j = true → c' j = true) : Backed (r.setStatus i status).apps c' := by
  intro j backup
  have ne : j ≠ i := by
    rintro rfl
    rw [OtaRecord.setStatus_self] at backup
    exact other backup
  rw [OtaRecord.setStatus_ne r ne] at backup
  exact others j ne (backed j backup)

theorem Change.backed {call : Call} {apps : Fin n → AppInfo} (change : Change r c call apps c')
    (sound : Sound r.apps c) (backed : Backed r.apps c) : Backed apps c' := by
  cases change with
  | keep idle => exact backed
  | start target others =>
    exact backed.setStatus (by simp) fun j ne complete => by rw [others j ne, complete]
  | accept opened => exact backed.setStatus (by simp) fun j _ complete => by simp [complete]
  | reject opened => exact backed.setStatus (by simp) fun _ _ complete => complete
  | abort opened => exact backed.setStatus (by simp) fun _ _ complete => complete
  | promote stores =>
    obtain ⟨uv, -, self, others⟩ := OtaRecord.promoted stores
    intro j backup
    have ne : j ≠ uv := by
      rintro rfl
      simp [self] at backup
    obtain ⟨ran, -⟩ | ⟨same, -⟩ := others j ne
    · exact sound.runs j ran.symm
    · exact backed j (same ▸ backup)
  | boot verified => exact backed
  | count first left =>
    intro j backup
    rw [r.status_countBoot] at backup
    exact backed j backup
  | exhaust first used => exact backed.setStatus (by simp) fun _ _ complete => complete

end Sound

end NeoRuntime.Ota
