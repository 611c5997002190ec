import Mathlib.Algebra.Group.Nat.Defs
import NeoRuntime.Lib.Dict
import NeoRuntime.Lib.Run

/-!
# Admission of streams

`StreamAdmissionController` (platform/ai-runtime/src/stream_infer_utils.cpp) counts the permits of
streams, in total, for each peer and each stream, and those of work, in total and for each RPC.  The
counter of an RPC is changed outside the lock.  Every allocation may fail.
-/

namespace NeoRuntime.AiRuntime

/-- The limits, of which 0 is none. -/
structure AdmissionLimits where
  maxActiveRpcs : ℕ
  maxActiveRpcsPerPeer : ℕ
  maxSubscribersPerStream : ℕ
  maxInFlightTotal : ℕ
  maxInFlightPerRpc : ℕ

/-- What locking a `std::mutex` again does; the standard leaves it open. -/
inductive Relock
  | hangs
  | throws
  deriving DecidableEq

structure Admission where
  activeRpcs : ℕ
  inFlightTotal : ℕ
  activeByPeer : Dict String ℕ
  activeByStream : Dict String ℕ
  rpcInFlight : ℕ → ℕ
  /-- A thread holds the mutex for ever. -/
  hung : Bool
  /-- The peers and streams of the live permits. -/
  rpcPermits : List (String × String)
  workPermits : List ℕ
  /-- The RPCs of acquisitions that have not locked the mutex yet. -/
  reserved : List ℕ
  /-- The RPCs of permits whose destructor has unlocked the mutex. -/
  dying : List ℕ

def Admission.start : Admission :=
  ⟨0, 0, ∅, ∅, fun _ => 0, false, [], [], [], []⟩

/-- `++` on a `uint32_t`. -/
def plusOne (n : ℕ) : ℕ := (n + 1) % 2 ^ 32

/-- `--` on a `uint32_t`. -/
def minusOne (n : ℕ) : ℕ := (n + (2 ^ 32 - 1)) % 2 ^ 32

def reached (limit count : ℕ) : Bool := 0 < limit && limit ≤ count

/-- The allocation of `try_acquire_rpc` that fails. -/
inductive RpcFault
  | none
  | permit
  | controlBlock
  | peerNode
  | streamNode
  deriving DecidableEq

/-- The allocation of `try_acquire_work` that fails. -/
inductive WorkFault
  | none
  | permit
  | controlBlock
  deriving DecidableEq

/-- `try_emplace` of a counter. -/
def tryEmplace (m : Dict String ℕ) (key : String) (count : ℕ) : Dict String ℕ :=
  match m.lookup key with
  | some _ => m
  | none => m.insert key count

/-- The handler of a stream node that could not be allocated. -/
def undoEmplace (m : Dict String ℕ) (key : String) : Dict String ℕ :=
  if m.lookup key = some 0 then m.erase key else m

section

variable (limits : AdmissionLimits)

section

variable (s : Admission)

/-- `try_acquire_rpc`.  A permit that is destroyed before it is armed counts nothing. -/
def tryAcquireRpc (peer stream : String) (fault : RpcFault) : Admission :=
  let peerCount := (s.activeByPeer.lookup peer).getD 0
  let streamCount := (s.activeByStream.lookup stream).getD 0
  if reached limits.maxActiveRpcs s.activeRpcs || reached limits.maxActiveRpcsPerPeer peerCount ||
      reached limits.maxSubscribersPerStream streamCount then s
  else if fault = .permit || fault = .controlBlock then s
  else if fault = .peerNode && (s.activeByPeer.lookup peer).isNone then s
  else
    let byPeer := tryEmplace s.activeByPeer peer peerCount
    if fault = .streamNode && (s.activeByStream.lookup stream).isNone then
      { s with activeByPeer := undoEmplace byPeer peer }
    else
      let byStream := tryEmplace s.activeByStream stream streamCount
      { s with
        activeByPeer := byPeer.insert peer (plusOne peerCount)
        activeByStream := byStream.insert stream (plusOne streamCount)
        activeRpcs := plusOne s.activeRpcs
        rpcPermits := (peer, stream) :: s.rpcPermits }

/-- `~RpcPermit`, of an armed permit. -/
def destroyRpc (peer stream : String) : Admission :=
  { s with
    activeRpcs := if 0 < s.activeRpcs then s.activeRpcs - 1 else s.activeRpcs
    activeByPeer := s.activeByPeer.decrement peer
    activeByStream := s.activeByStream.decrement stream
    rpcPermits := s.rpcPermits.erase (peer, stream) }

def Admission.setRpc (rpc count : ℕ) : Admission :=
  { s with rpcInFlight := Function.update s.rpcInFlight rpc count }

/-- The first part of `try_acquire_work`, without the lock. -/
def reserveWork (rpc : ℕ) : Admission :=
  if reached limits.maxInFlightPerRpc (s.rpcInFlight rpc) then s
  else { s.setRpc rpc (plusOne (s.rpcInFlight rpc)) with reserved := rpc :: s.reserved }

/-- The second part, with the lock.  Without a control block the permit is destroyed at once, and
its destructor locks the mutex again. -/
def tryAcquireWork (relock : Relock) (s : Admission) (rpc : ℕ) (fault : WorkFault) : Admission :=
  let given := { s.setRpc rpc (minusOne (s.rpcInFlight rpc)) with reserved := s.reserved.erase rpc }
  if reached limits.maxInFlightTotal s.inFlightTotal then given
  else
    match fault with
    | .permit => given
    | .controlBlock =>
      match relock with
      | .hangs => { s with hung := true }
      -- the destructor and the handler both give back
      | .throws => given.setRpc rpc (minusOne (given.rpcInFlight rpc))
    | .none =>
      { s with
        inFlightTotal := plusOne s.inFlightTotal
        workPermits := rpc :: s.workPermits
        reserved := s.reserved.erase rpc }

/-- The part of `~WorkPermit` with the lock. -/
def destroyWork (rpc : ℕ) : Admission :=
  { s with
    inFlightTotal := if 0 < s.inFlightTotal then s.inFlightTotal - 1 else s.inFlightTotal
    workPermits := s.workPermits.erase rpc
    dying := rpc :: s.dying }

/-- The part of `~WorkPermit` after it. -/
def giveBack (rpc : ℕ) : Admission :=
  { s.setRpc rpc (minusOne (s.rpcInFlight rpc)) with dying := s.dying.erase rpc }

end

inductive AdmissionEvent
  | acquireRpc (peer stream : String) (fault : RpcFault)
  | destroyRpc (peer stream : String)
  | reserveWork (rpc : ℕ)
  | acquireWork (rpc : ℕ) (fault : WorkFault)
  | destroyWork (rpc : ℕ)
  | giveBack (rpc : ℕ)

/-- One step of a thread; those that lock the mutex wait for it. -/
def admissionStep (relock : Relock) (s : Admission) : AdmissionEvent → Option Admission
  | .acquireRpc peer stream fault =>
    if s.hung then none else some (tryAcquireRpc limits s peer stream fault)
  | .destroyRpc peer stream =>
    if s.hung ∨ (peer, stream) ∉ s.rpcPermits then none else some (destroyRpc s peer stream)
  | .reserveWork rpc => some (reserveWork limits s rpc)
  | .acquireWork rpc fault =>
    if s.hung ∨ rpc ∉ s.reserved then none else some (tryAcquireWork limits relock s rpc fault)
  | .destroyWork rpc =>
    if s.hung ∨ rpc ∉ s.workPermits then none else some (destroyWork s rpc)
  | .giveBack rpc => if rpc ∈ s.dying then some (giveBack s rpc) else none

end

/-! ## The invariant -/

/-- A map counts the permits of each key, with a limit for each. -/
structure Counted (limit : ℕ) (m : Dict String ℕ) (keys : List String) : Prop where
  tally : Dict.Tally m keys
  limited : 0 < limit → ∀ key, keys.count key ≤ limit

/-- The RPCs of the work permits, with those that are being made or destroyed. -/
def Admission.working (s : Admission) : List ℕ := s.workPermits ++ s.reserved ++ s.dying

structure Admission.Sound (limits : AdmissionLimits) (s : Admission) : Prop where
  active : s.activeRpcs = s.rpcPermits.length
  activeLimit : 0 < limits.maxActiveRpcs → s.activeRpcs ≤ limits.maxActiveRpcs
  peers : Counted limits.maxActiveRpcsPerPeer s.activeByPeer (s.rpcPermits.map Prod.fst)
  streams : Counted limits.maxSubscribersPerStream s.activeByStream (s.rpcPermits.map Prod.snd)
  total : s.inFlightTotal = s.workPermits.length
  totalLimit : 0 < limits.maxInFlightTotal → s.inFlightTotal ≤ limits.maxInFlightTotal
  rpcs : ∀ rpc, s.rpcInFlight rpc = s.working.count rpc
  rpcLimit : 0 < limits.maxInFlightPerRpc → ∀ rpc, s.rpcInFlight rpc ≤ limits.maxInFlightPerRpc
  small : ∀ rpc, s.rpcInFlight rpc < 2 ^ 32
  free : s.hung = false

/-- The control block of a work permit can be allocated, and the counters do not overflow. -/
def AdmissionFits (s : Admission) : AdmissionEvent → Prop
  | .acquireRpc _ _ _ => s.rpcPermits.length + 1 < 2 ^ 32
  | .reserveWork rpc => s.rpcInFlight rpc + 1 < 2 ^ 32
  | .acquireWork _ fault => fault ≠ .controlBlock ∧ s.workPermits.length + 1 < 2 ^ 32
  | _ => True

instance (s : Admission) (event : AdmissionEvent) : Decidable (AdmissionFits s event) := by
  cases event <;> unfold AdmissionFits <;> infer_instance

variable {limits : AdmissionLimits} {relock : Relock} {s s' : Admission}

theorem admission_start_sound (limits : AdmissionLimits) : Admission.start.Sound limits :=
  ⟨rfl, fun _ => Nat.zero_le _, ⟨Dict.tally_nil, fun _ _ => Nat.zero_le _⟩,
    ⟨Dict.tally_nil, fun _ _ => Nat.zero_le _⟩, rfl, fun _ => Nat.zero_le _, fun _ => rfl,
    fun _ _ => Nat.zero_le _, fun _ => Nat.two_pow_pos 32, rfl⟩

theorem plusOne_eq {n : ℕ} (small : n + 1 < 2 ^ 32) : plusOne n = n + 1 := Nat.mod_eq_of_lt small

theorem minusOne_succ {n : ℕ} (small : n < 2 ^ 32) : minusOne (n + 1) = n := by
  rw [minusOne]
  omega

theorem not_reached {limit count : ℕ} (below : reached limit count = false) (limited : 0 < limit) :
    count < limit := by
  simpa [reached, limited] using below

/-! ## Permits of streams -/

section Counted

variable {limit : ℕ} {m : Dict String ℕ} {keys rest : List String} {key : String}

theorem lookup_tryEmplace_insert (m : Dict String ℕ) (key other : String) (count value : ℕ) :
    ((tryEmplace m key count).insert key value).lookup other = (m.insert key value).lookup other := by
  unfold tryEmplace
  split
  · rfl
  · rw [Dict.lookup_insert_eq, Dict.lookup_insert_eq, Dict.lookup_insert_eq]
    split_ifs <;> rfl

theorem Counted.enter (counted : Counted limit m keys) {count : ℕ}
    (below : reached limit ((m.lookup key).getD 0) = false) (small : keys.length + 1 < 2 ^ 32) :
    Counted limit ((tryEmplace m key count).insert key (plusOne ((m.lookup key).getD 0))) (key :: keys) := by
  rw [counted.tally.getD] at below ⊢
  have fits : keys.count key + 1 < 2 ^ 32 := by
    have := @List.count_le_length _ _ key keys
    omega
  rw [plusOne_eq fits]
  refine ⟨(counted.tally.insert key).congr fun other => lookup_tryEmplace_insert _ _ _ _ _,
    fun limited other => ?_⟩
  have room := not_reached below limited
  have old := counted.limited limited other
  by_cases same : key = other
  · rw [← same, List.count_cons_self]
    exact room
  · rwa [List.count_cons_of_ne same]

theorem Counted.undo (counted : Counted limit m keys) :
    Counted limit (undoEmplace (tryEmplace m key ((m.lookup key).getD 0)) key) keys := by
  refine ⟨counted.tally.congr fun other => ?_, counted.limited⟩
  have nonzero := counted.tally.lookup_ne key
  unfold undoEmplace tryEmplace
  cases found : m.lookup key with
  | some count =>
    dsimp only
    rw [if_neg nonzero]
  | none =>
    dsimp only
    rw [Dict.lookup_insert_eq, if_pos rfl, Option.getD_none, if_pos rfl, Dict.erase_insert,
      Dict.lookup_erase_eq]
    split_ifs with same
    · rw [same, found]
    · rfl

theorem Counted.remove (counted : Counted limit m keys) (perm : keys.Perm (key :: rest)) :
    Counted limit (m.decrement key) rest := by
  refine ⟨(counted.tally.perm perm).decrement, fun limited other => ?_⟩
  have old := counted.limited limited other
  rw [perm.count_eq] at old
  exact Nat.le_trans (List.count_le_count_cons) old

end Counted

section

variable (sound : s.Sound limits)

include sound

theorem Admission.Sound.acquireRpc (peer stream : String) (fault : RpcFault)
    (small : s.rpcPermits.length + 1 < 2 ^ 32) : (tryAcquireRpc limits s peer stream fault).Sound limits := by
  unfold tryAcquireRpc
  dsimp only
  split_ifs with full failed noPeer noStream
  · exact sound
  · exact sound
  · exact sound
  · exact { sound with peers := sound.peers.undo }
  · simp only [Bool.or_eq_true, not_or, Bool.not_eq_true] at full
    obtain ⟨⟨active, ofPeer⟩, ofStream⟩ := full
    have count : plusOne s.activeRpcs = s.rpcPermits.length + 1 := by
      rw [sound.active]
      exact plusOne_eq small
    refine { sound with
      active := count
      activeLimit := fun limited => ?_
      peers := sound.peers.enter ofPeer (by rwa [List.length_map])
      streams := sound.streams.enter ofStream (by rwa [List.length_map]) }
    rw [count, ← sound.active]
    exact not_reached active limited

theorem Admission.Sound.destroyRpc {peer stream : String}
    (live : (peer, stream) ∈ s.rpcPermits) : (destroyRpc s peer stream).Sound limits := by
  have perm := List.perm_cons_erase live
  have length : s.activeRpcs = (s.rpcPermits.erase (peer, stream)).length + 1 := by
    rw [sound.active, perm.length_eq, List.length_cons]
  have count : (if 0 < s.activeRpcs then s.activeRpcs - 1 else s.activeRpcs) =
      (s.rpcPermits.erase (peer, stream)).length := by
    rw [if_pos (by omega)]
    omega
  refine { sound with
    active := count
    activeLimit := fun limited => ?_
    peers := sound.peers.remove (perm.map Prod.fst)
    streams := sound.streams.remove (perm.map Prod.snd) }
  have old := sound.activeLimit limited
  dsimp only [AiRuntime.destroyRpc]
  omega

/-! ## Permits of work -/

theorem Admission.Sound.setPlus {rpc : ℕ} {reserved : List ℕ}
    (below : reached limits.maxInFlightPerRpc (s.rpcInFlight rpc) = false)
    (small : s.rpcInFlight rpc + 1 < 2 ^ 32)
    (perm : (s.workPermits ++ reserved ++ s.dying).Perm (rpc :: s.working)) :
    Admission.Sound limits { s.setRpc rpc (plusOne (s.rpcInFlight rpc)) with reserved } := by
  rw [plusOne_eq small]
  refine { sound with rpcs := fun other => ?_, rpcLimit := fun limited other => ?_, small := fun other => ?_ }
  all_goals dsimp only [Admission.setRpc, Admission.working]; rw [Function.update_apply]
  · rw [perm.count_eq]
    split_ifs with same
    · rw [same, List.count_cons_self, sound.rpcs]
    · rw [List.count_cons_of_ne (Ne.symm same), sound.rpcs]
  · split_ifs
    · exact not_reached below limited
    · exact sound.rpcLimit limited other
  · split_ifs
    · exact small
    · exact sound.small other

theorem Admission.Sound.setMinus {rpc : ℕ} {reserved dying : List ℕ}
    (perm : s.working.Perm (rpc :: (s.workPermits ++ reserved ++ dying))) :
    Admission.Sound limits { s.setRpc rpc (minusOne (s.rpcInFlight rpc)) with reserved, dying } := by
  have counts : ∀ other, s.rpcInFlight other = (rpc :: (s.workPermits ++ reserved ++ dying)).count other :=
    fun other => by rw [sound.rpcs, perm.count_eq]
  have own : s.rpcInFlight rpc = (s.workPermits ++ reserved ++ dying).count rpc + 1 := by
    rw [counts, List.count_cons_self]
  have below := sound.small rpc
  rw [own] at below ⊢
  rw [minusOne_succ (by omega)]
  refine { sound with rpcs := fun other => ?_, rpcLimit := fun limited other => ?_, small := fun other => ?_ }
  all_goals dsimp only [Admission.setRpc, Admission.working]; rw [Function.update_apply]
  · split_ifs with same
    · rw [same]
    · rw [counts, List.count_cons_of_ne (Ne.symm same)]
  · have old := sound.rpcLimit limited rpc
    split_ifs
    · omega
    · exact sound.rpcLimit limited other
  · split_ifs
    · omega
    · exact sound.small other

theorem Admission.Sound.reserveWork {rpc : ℕ}
    (small : s.rpcInFlight rpc + 1 < 2 ^ 32) : (reserveWork limits s rpc).Sound limits := by
  unfold AiRuntime.reserveWork
  split_ifs with full
  · exact sound
  · refine sound.setPlus (eq_false_of_ne_true full) small ?_
    rw [Admission.working, List.append_assoc, List.append_assoc, List.cons_append]
    exact List.perm_middle

theorem Admission.Sound.acquireWork {rpc : ℕ} {fault : WorkFault}
    (held : rpc ∈ s.reserved) (block : fault ≠ .controlBlock) (small : s.workPermits.length + 1 < 2 ^ 32) :
    (tryAcquireWork limits relock s rpc fault).Sound limits := by
  have given : Admission.Sound limits
      { s.setRpc rpc (minusOne (s.rpcInFlight rpc)) with reserved := s.reserved.erase rpc } := by
    refine sound.setMinus ?_
    rw [Admission.working, List.append_assoc, List.append_assoc]
    refine ((List.perm_cons_erase held).append_right s.dying).append_left s.workPermits |>.trans ?_
    exact List.perm_middle
  unfold tryAcquireWork
  dsimp only
  split_ifs with full
  · exact given
  · cases fault with
    | permit => exact given
    | controlBlock => exact absurd rfl block
    | none =>
      have count : plusOne s.inFlightTotal = s.workPermits.length + 1 := by
        rw [sound.total]
        exact plusOne_eq small
      refine { sound with
        total := count
        totalLimit := fun limited => ?_
        rpcs := fun other => ?_ }
      · dsimp only
        rw [count, ← sound.total]
        exact not_reached (eq_false_of_ne_true full) limited
      · rw [sound.rpcs]
        refine List.Perm.count_eq ?_ other
        dsimp only [Admission.working]
        rw [List.append_assoc, List.append_assoc, List.cons_append]
        refine ((List.perm_cons_erase held).append_right s.dying).append_left s.workPermits |>.trans ?_
        exact List.perm_middle

theorem Admission.Sound.destroyWork {rpc : ℕ} (live : rpc ∈ s.workPermits) :
    (destroyWork s rpc).Sound limits := by
  have perm := List.perm_cons_erase live
  have length : s.inFlightTotal = (s.workPermits.erase rpc).length + 1 := by
    rw [sound.total, perm.length_eq, List.length_cons]
  have count : (if 0 < s.inFlightTotal then s.inFlightTotal - 1 else s.inFlightTotal) =
      (s.workPermits.erase rpc).length := by
    rw [if_pos (by omega)]
    omega
  refine { sound with
    total := count
    totalLimit := fun limited => ?_
    rpcs := fun other => ?_ }
  · have old := sound.totalLimit limited
    dsimp only [AiRuntime.destroyWork]
    omega
  · rw [show (AiRuntime.destroyWork s rpc).rpcInFlight other = s.rpcInFlight other from rfl, sound.rpcs]
    refine List.Perm.count_eq ?_ other
    dsimp only [Admission.working, AiRuntime.destroyWork]
    refine ((perm.append_right s.reserved).append_right s.dying).trans ?_
    rw [List.cons_append, List.cons_append]
    exact List.perm_middle.symm

theorem Admission.Sound.giveBack {rpc : ℕ} (dead : rpc ∈ s.dying) :
    (giveBack s rpc).Sound limits := by
  refine sound.setMinus ?_
  rw [Admission.working]
  exact ((List.perm_cons_erase dead).append_left _).trans List.perm_middle

/-! ## Runs -/

theorem admissionStep_sound {event : AdmissionEvent} (fits : AdmissionFits s event)
    (step : admissionStep limits relock s event = some s') : s'.Sound limits := by
  cases event with
  | acquireRpc peer stream fault =>
    rw [admissionStep, sound.free] at step
    obtain rfl := Option.some.inj step
    exact sound.acquireRpc peer stream fault fits
  | destroyRpc peer stream =>
    rw [admissionStep] at step
    split_ifs at step with blocked
    obtain rfl := Option.some.inj step
    exact sound.destroyRpc (Decidable.not_not.1 fun dead => blocked (.inr dead))
  | reserveWork rpc =>
    obtain rfl := Option.some.inj step
    exact sound.reserveWork fits
  | acquireWork rpc fault =>
    rw [admissionStep] at step
    split_ifs at step with blocked
    obtain rfl := Option.some.inj step
    exact sound.acquireWork (Decidable.not_not.1 fun dead => blocked (.inr dead)) fits.1 fits.2
  | destroyWork rpc =>
    rw [admissionStep] at step
    split_ifs at step with blocked
    obtain rfl := Option.some.inj step
    exact sound.destroyWork (Decidable.not_not.1 fun dead => blocked (.inr dead))
  | giveBack rpc =>
    rw [admissionStep] at step
    split_ifs at step with dead
    obtain rfl := Option.some.inj step
    exact sound.giveBack dead

end

/-- If no control block of a work permit is missing, the counters are the numbers of live permits,
the limits hold and the maps have no zero entry. -/
theorem permits_counted {events : List AdmissionEvent}
    (fits : Along (admissionStep limits relock) AdmissionFits Admission.start events)
    (run : events.foldlM (admissionStep limits relock) Admission.start = some s) :
    s.Sound limits ∧
    (s.reserved = [] → s.dying = [] → ∀ rpc, s.rpcInFlight rpc = s.workPermits.count rpc) := by
  have sound := foldlM_inv_along (Admission.Sound limits)
    (fun _ _ _ sound fit step => admissionStep_sound sound fit step) (admission_start_sound limits) fits run
  refine ⟨sound, fun reserved dying rpc => ?_⟩
  rw [sound.rpcs, Admission.working, reserved, dying, List.append_nil, List.append_nil]

def onlyOne : AdmissionLimits := ⟨1, 1, 1, 1, 1⟩

def admissionAfter (relock : Relock) (events : List AdmissionEvent) : Admission :=
  (events.foldlM (admissionStep onlyOne relock) Admission.start).getD Admission.start

theorem run_admissionAfter {events : List AdmissionEvent}
    (accepted : (events.foldlM (admissionStep onlyOne relock) Admission.start).isSome = true) :
    events.foldlM (admissionStep onlyOne relock) Admission.start = some (admissionAfter relock events) := by
  obtain ⟨s, run⟩ := Option.isSome_iff_exists.1 accepted
  rw [admissionAfter, run, Option.getD_some]

/-- One piece of work, while the stream node of another cannot be allocated. -/
def oneStream : List AdmissionEvent :=
  [.acquireRpc "peer" "stream" .streamNode, .acquireRpc "peer" "stream" .none, .reserveWork 0,
    .acquireWork 0 .none, .acquireRpc "other" "stream" .none, .destroyWork 0, .giveBack 0]

theorem permits_counted_oneStream : (admissionAfter .hangs oneStream).Sound onlyOne :=
  (permits_counted (by decide +kernel) (run_admissionAfter (by decide +kernel))).1

def noControlBlock : List AdmissionEvent := [.reserveWork 0, .acquireWork 0 .controlBlock]

/-- Either locking the mutex again is reported and the counter wraps, or the thread keeps the mutex
for ever. -/
theorem control_block_missing :
    noControlBlock.foldlM (admissionStep onlyOne .throws) Admission.start =
      some (admissionAfter .throws noControlBlock) ∧
    (admissionAfter .throws noControlBlock).workPermits = [] ∧
    (admissionAfter .throws noControlBlock).reserved = [] ∧
    (admissionAfter .throws noControlBlock).dying = [] ∧
    (admissionAfter .throws noControlBlock).rpcInFlight 0 = 4294967295 ∧
    noControlBlock.foldlM (admissionStep onlyOne .hangs) Admission.start =
      some (admissionAfter .hangs noControlBlock) ∧
    (∀ peer stream fault, admissionStep onlyOne .hangs (admissionAfter .hangs noControlBlock)
      (.acquireRpc peer stream fault) = none) ∧
    ∀ rpc fault, admissionStep onlyOne .hangs (admissionAfter .hangs noControlBlock)
      (.acquireWork rpc fault) = none := by
  have hung : (admissionAfter .hangs noControlBlock).hung = true := by decide +kernel
  refine ⟨run_admissionAfter (by decide +kernel), by decide +kernel, by decide +kernel, by decide +kernel,
    by decide +kernel, run_admissionAfter (by decide +kernel), fun peer stream fault => ?_,
    fun rpc fault => ?_⟩
  · rw [admissionStep, if_pos hung]
  · rw [admissionStep, if_pos (.inl hung)]

end NeoRuntime.AiRuntime
