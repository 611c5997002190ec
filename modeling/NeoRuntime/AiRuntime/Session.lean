import Mathlib.Data.Int.Notation
import NeoRuntime.Lib.Dict
import NeoRuntime.Lib.Run

/-!
# The session table

`SessionManager` (platform/ai-runtime/src/session_manager.cpp) has sessions under ids that it makes itself
(`createSession`) and under ids that the caller chooses (`createNamedSession`).
-/

namespace NeoRuntime.AiRuntime

structure SessionConfig where
  appId : String
  streamId : String
  modelId : String
  fpsLimit : UInt32
  maxQps : UInt32
  priority : UInt32
  deriving DecidableEq

/-- `Session`; times are in milliseconds. -/
structure Session extends SessionConfig where
  id : String
  created : ℤ
  lastInfer : ℤ
  inferCount : ℕ
  running : Bool
  deriving DecidableEq

structure Sessions where
  sessions : Dict String Session
  nextSessionId : UInt64

def Sessions.start : Sessions := ⟨∅, 1⟩

def maxIdentifierBytes : ℕ := 128

def maxSessionsTotal : ℕ := 1024

def maxSessionsPerApp : ℕ := 128

def validIdentifier (id : String) : Bool :=
  id.utf8ByteSize ≤ maxIdentifierBytes &&
    id.toList.all fun c =>
      ('a' ≤ c ∧ c ≤ 'z') ∨ ('A' ≤ c ∧ c ≤ 'Z') ∨ ('0' ≤ c ∧ c ≤ '9') ∨ c = '_' ∨ c = '-' ∨ c = '.'

section

variable (t : Sessions)

def Sessions.ofApp (appId : String) : ℕ :=
  (Dict.values t.sessions).countP fun s => s.appId = appId

def withinLimits (appId : String) : Bool :=
  t.sessions.entries.length < maxSessionsTotal && t.ofApp appId < maxSessionsPerApp

def newSession (id : String) (config : SessionConfig) (now : ℤ) : Session :=
  { config with id, created := now, lastInfer := now - 1000, inferCount := 0, running := false }

/-- The id that `create_session` makes from a number. -/
def generatedId (config : SessionConfig) (sequence : UInt64) : String :=
  config.appId ++ "-" ++ config.streamId ++ "-" ++ config.modelId ++ "-" ++ toString sequence.toNat

/-- The check of the length of a generated id. -/
def tooLong (id : String) : Bool := 4 * maxIdentifierBytes + 24 < id.utf8ByteSize

/-- `emplace`: inserts a session unless the key is taken. -/
def Sessions.emplace (session : Session) : Option Sessions :=
  match t.sessions.lookup session.id with
  | some _ => none
  | none => some { t with sessions := t.sessions.insert session.id session }

def Sessions.counted : Sessions := { t with nextSessionId := t.nextSessionId + 1 }

/-- The second attempt of `create_session`, with a new number. -/
def retrySession (config : SessionConfig) (now : ℤ) : Sessions × String :=
  let id := generatedId config t.nextSessionId
  if tooLong id then (t.counted, "")
  else
    match t.counted.emplace (newSession id config now) with
    | some t' => (t', id)
    | none => (t.counted, "")

/-- `create_session`; an empty id is a refusal. -/
def createSession (config : SessionConfig) (now : ℤ) : Sessions × String :=
  if !validIdentifier config.appId || !validIdentifier config.streamId ||
      !validIdentifier config.modelId then (t, "")
  else
    let id := generatedId config t.nextSessionId
    if tooLong id then (t.counted, "")
    else if !withinLimits t.counted config.appId then (t.counted, "")
    else
      match t.counted.emplace (newSession id config now) with
      | some t' => (t', id)
      | none => retrySession t.counted config now

def createNamedSession (id : String) (config : SessionConfig) (now : ℤ) : Sessions × String :=
  if id = "" || !validIdentifier id || !validIdentifier config.appId ||
      !validIdentifier config.streamId || !validIdentifier config.modelId then (t, "")
  else
    match t.sessions.lookup id with
    | some session => if session.toSessionConfig = config then (t, id) else (t, "")
    | none =>
      if !withinLimits t config.appId then (t, "")
      else ({ t with sessions := t.sessions.insert id (newSession id config now) }, id)

def destroySession (id : String) : Sessions × Bool :=
  ({ t with sessions := t.sessions.erase id }, (t.sessions.lookup id).isSome)

/-- The loop of `destroy_sessions_by_model` and `destroy_sessions_by_app`. -/
def destroySessions (doomed : Session → Bool) : Sessions × ℕ :=
  t.sessions.entries.foldl
    (fun acc entry =>
      if doomed entry.2 then ({ acc.1 with sessions := acc.1.sessions.erase entry.1 }, acc.2 + 1) else acc)
    (t, 0)

def destroySessionsByModel (modelId : String) : Sessions × ℕ :=
  destroySessions t fun s => s.modelId = modelId

def destroySessionsByApp (appId : String) : Sessions × ℕ :=
  destroySessions t fun s => s.appId = appId

/-! ## Calls -/

inductive SessionCall
  | create (config : SessionConfig) (now : ℤ)
  | createNamed (id : String) (config : SessionConfig) (now : ℤ)
  | destroy (id : String)
  | destroyByModel (modelId : String)
  | destroyByApp (appId : String)

def sessionCall : SessionCall → Sessions × Option String
  | .create config now => ((createSession t config now).1, some (createSession t config now).2)
  | .createNamed id config now =>
    ((createNamedSession t id config now).1, some (createNamedSession t id config now).2)
  | .destroy id => ((destroySession t id).1, none)
  | .destroyByModel modelId => ((destroySessionsByModel t modelId).1, none)
  | .destroyByApp appId => ((destroySessionsByApp t appId).1, none)

end

/-! ## The invariant -/

structure Sessions.Sound (t : Sessions) : Prop where
  total : t.sessions.entries.length ≤ maxSessionsTotal
  perApp : ∀ appId, t.ofApp appId ≤ maxSessionsPerApp
  own : ∀ id session, t.sessions.lookup id = some session → session.id = id
  /-- The empty id stands for a refusal. -/
  nonempty : t.sessions.lookup "" = none

theorem sessions_start_sound : Sessions.start.Sound :=
  ⟨Nat.zero_le _, fun _ => Nat.zero_le _, by simp [Sessions.start], rfl⟩

variable {t t' : Sessions} {id : String} {config : SessionConfig} {now : ℤ}

theorem Sessions.Sound.sublist (sound : t.Sound)
    (fewer : t'.sessions.entries.Sublist t.sessions.entries) : t'.Sound := by
  have kept : ∀ id session, t'.sessions.lookup id = some session → t.sessions.lookup id = some session :=
    fun id session found => AList.mem_lookup_iff.2 (fewer.subset (AList.mem_lookup_iff.1 found))
  refine ⟨Nat.le_trans fewer.length_le sound.total, fun appId => ?_,
    fun id session found => sound.own id session (kept id session found), ?_⟩
  · exact Nat.le_trans (fewer.map _).countP_le (sound.perApp appId)
  · refine Option.eq_none_iff_forall_ne_some.2 fun session found => ?_
    have none_ := sound.nonempty
    rw [kept _ _ found] at none_
    cases none_

/-- A session comes under a free id, within the limits. -/
theorem Sessions.Sound.insert (sound : t.Sound) {session : Session}
    (limits : withinLimits t session.appId = true) (free : t.sessions.lookup session.id = none)
    (named : session.id ≠ "") (inserted : t'.sessions = t.sessions.insert session.id session) : t'.Sound := by
  rw [withinLimits, Bool.and_eq_true, decide_eq_true_eq, decide_eq_true_eq] at limits
  have entries : t'.sessions.entries = ⟨session.id, session⟩ :: t.sessions.entries := by
    rw [inserted, Dict.entries_insert, Dict.entries_erase_of_lookup free]
  refine ⟨?_, fun appId => ?_, fun id other found => ?_, ?_⟩
  · rw [entries, List.length_cons]
    exact limits.1
  · have count : t'.ofApp appId = t.ofApp appId + if session.appId = appId then 1 else 0 := by
      simp only [Sessions.ofApp, Dict.values, entries, List.map_cons, List.countP_cons,
        decide_eq_true_eq]
    rw [count]
    split_ifs with same
    · rw [← same]
      exact limits.2
    · exact sound.perApp appId
  · rw [inserted, Dict.lookup_insert_eq] at found
    split_ifs at found with same
    · obtain rfl := Option.some.inj found
      exact same.symm
    · exact sound.own id other found
  · rw [inserted, Dict.lookup_insert_eq, if_neg (Ne.symm named)]
    exact sound.nonempty

theorem destroySessions_sublist (t : Sessions) (doomed : Session → Bool) :
    (destroySessions t doomed).1.sessions.entries.Sublist t.sessions.entries := by
  refine foldl_inv (fun acc : Sessions × ℕ => acc.1.sessions.entries.Sublist t.sessions.entries)
    (fun acc entry fewer => ?_) (List.Sublist.refl _) t.sessions.entries
  split_ifs
  · exact (List.kerase_sublist _ _).trans fewer
  · exact fewer

/-! ## What the calls return -/

/-- The outcome of a creation: refused, or a session under an id that was free. -/
inductive Created (t t' : Sessions) (config : SessionConfig) (now : ℤ) (id : String) : Prop
  | refused (empty : id = "") (same : t'.sessions = t.sessions)
  | created (named : id ≠ "") (free : t.sessions.lookup id = none)
      (limits : withinLimits t config.appId = true)
      (inserted : t'.sessions = t.sessions.insert id (newSession id config now))

theorem Created.sound (created : Created t t' config now id) (sound : t.Sound) : t'.Sound := by
  cases created with
  | refused _ same => exact sound.sublist (same ▸ List.Sublist.refl _)
  | created named free limits inserted =>
    exact @Sessions.Sound.insert t t' sound (newSession id config now) limits free named inserted

theorem generatedId_ne (config : SessionConfig) (sequence : UInt64) : generatedId config sequence ≠ "" := by
  intro empty
  have size := congrArg String.utf8ByteSize empty
  simp [generatedId] at size

theorem emplace_created (limits : withinLimits t config.appId = true) (named : id ≠ "")
    (emplaced : t.emplace (newSession id config now) = some t') : Created t t' config now id := by
  unfold Sessions.emplace at emplaced
  split at emplaced
  · cases emplaced
  · rename_i free
    obtain rfl := Option.some.inj emplaced
    exact .created named free limits rfl

theorem Created.counted (created : Created t.counted t' config now id) : Created t t' config now id := by
  cases created with
  | refused empty same => exact .refused empty same
  | created named free limits inserted => exact .created named free limits inserted

theorem retrySession_created (limits : withinLimits t config.appId = true) :
    Created t (retrySession t config now).1 config now (retrySession t config now).2 := by
  unfold retrySession
  dsimp only
  split_ifs with long
  · exact .refused rfl rfl
  · split
    · rename_i t' emplaced
      have limits' : withinLimits t.counted config.appId = true := limits
      exact (emplace_created limits' (generatedId_ne _ _) emplaced).counted
    · exact .refused rfl rfl

theorem createSession_created (t : Sessions) (config : SessionConfig) (now : ℤ) :
    Created t (createSession t config now).1 config now (createSession t config now).2 := by
  unfold createSession
  dsimp only
  split_ifs with invalid long full
  · exact .refused rfl rfl
  · exact .refused rfl rfl
  · exact .refused rfl rfl
  · have limits : withinLimits t.counted config.appId = true := by simpa using full
    split
    · rename_i t' emplaced
      exact (emplace_created limits (generatedId_ne _ _) emplaced).counted
    · exact (retrySession_created limits).counted

/-- A named session is created, or one with the same configuration is there. -/
theorem createNamedSession_created (t : Sessions) (id : String) (config : SessionConfig) (now : ℤ) :
    Created t (createNamedSession t id config now).1 config now (createNamedSession t id config now).2 ∨
    ∃ session, t.sessions.lookup id = some session ∧ session.toSessionConfig = config ∧
      createNamedSession t id config now = (t, id) ∧ id ≠ "" := by
  unfold createNamedSession
  split
  · exact .inl (.refused rfl rfl)
  · rename_i valid
    have named : id ≠ "" := fun empty => valid (by simp [empty])
    cases found : t.sessions.lookup id with
    | some session =>
      dsimp only
      split_ifs with same
      · exact .inr ⟨session, rfl, same, rfl, named⟩
      · exact .inl (.refused rfl rfl)
    | none =>
      dsimp only
      split_ifs with full
      · exact .inl (.refused rfl rfl)
      · exact .inl (.created named found (by simpa using full) rfl)

theorem Sessions.Sound.call (sound : t.Sound) (call : SessionCall) : (sessionCall t call).1.Sound := by
  cases call with
  | create config now => exact (createSession_created t config now).sound sound
  | createNamed id config now =>
    obtain created | ⟨session, -, -, same, -⟩ := createNamedSession_created t id config now
    · exact created.sound sound
    · rw [sessionCall, same]
      exact sound
  | destroy id => exact sound.sublist (List.kerase_sublist _ _)
  | destroyByModel modelId => exact sound.sublist (destroySessions_sublist t _)
  | destroyByApp appId => exact sound.sublist (destroySessions_sublist t _)

theorem sessionCall_refused (call : SessionCall) (refused : (sessionCall t call).2 = some "") :
    (sessionCall t call).1.sessions = t.sessions := by
  cases call with
  | create config now =>
    cases createSession_created t config now with
    | refused _ same => exact same
    | created named _ _ _ => exact absurd (Option.some.inj refused) named
  | createNamed id config now =>
    obtain created | ⟨session, -, -, same, -⟩ := createNamedSession_created t id config now
    · cases created with
      | refused _ same => exact same
      | created named _ _ _ => exact absurd (Option.some.inj refused) named
    · rw [sessionCall, same]
  | destroy id => cases refused
  | destroyByModel modelId => cases refused
  | destroyByApp appId => cases refused

def sessionsAfter (calls : List SessionCall) : Sessions :=
  calls.foldl (fun t call => (sessionCall t call).1) Sessions.start

/-- The caps hold and every session is under its id; an id that is returned next was free or had the
same configuration, and a refusal changes no session. -/
theorem sessions_run (calls : List SessionCall) : (sessionsAfter calls).Sound ∧ (∀ config now,
      (sessionsAfter calls).sessions.lookup (createSession (sessionsAfter calls) config now).2 = none) ∧
    (∀ id config now session,
      (sessionsAfter calls).sessions.lookup (createNamedSession (sessionsAfter calls) id config now).2 =
        some session → session.toSessionConfig = config) ∧
    ∀ call, (sessionCall (sessionsAfter calls) call).2 = some "" →
      (sessionCall (sessionsAfter calls) call).1.sessions = (sessionsAfter calls).sessions := by
  have sound : (sessionsAfter calls).Sound :=
    foldl_inv Sessions.Sound (fun _ call sound => sound.call call) sessions_start_sound calls
  refine ⟨sound, fun config now => ?_, fun id config now session found => ?_,
    fun call => sessionCall_refused call⟩
  · cases createSession_created (sessionsAfter calls) config now with
    | refused empty _ =>
      rw [empty]
      exact sound.nonempty
    | created _ free _ _ => exact free
  · obtain created | ⟨other, there, same, eq, -⟩ :=
      createNamedSession_created (sessionsAfter calls) id config now
    · cases created with
      | refused empty _ =>
        rw [empty, sound.nonempty] at found
        cases found
      | created _ free _ _ =>
        rw [free] at found
        cases found
    · rw [eq, there] at found
      rw [← Option.some.inj found]
      exact same

end NeoRuntime.AiRuntime
