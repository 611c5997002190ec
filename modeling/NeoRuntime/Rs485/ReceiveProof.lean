import NeoRuntime.Rs485.Driver

/-!
# What a receive call tells its caller

Calls return the frames of the task once and in order (`taken_run`).  A time-out is not always one,
and an answer is not always newer than the request: a frame that comes while nobody waits leaves its
bit, or itself, to a later call.  Both are true if a frame is received only by a call that has found
the mailbox empty (`Orderly`).  Then a reception goes through fixed stages (`Busy`), and leaves
nothing behind (`Quiet`).
-/

namespace NeoRuntime.Rs485

variable {s : Driver} {e : Event}

/-! ## Frames are returned once and in order -/

/-- The data are of some of the frames, in their order, cut to the room of each call. -/
def Taken (frames : List Frame) (returned : List (ℕ × List UInt8)) : Prop :=
  ∃ picked, picked.Sublist frames ∧
    List.Forall₂ (fun f d => d.2 = f.bytes.take d.1) picked returned

theorem Taken.mono {frames frames' : List Frame} {returned : List (ℕ × List UInt8)}
    (taken : Taken frames returned) (sub : frames.Sublist frames') : Taken frames' returned := by
  obtain ⟨picked, some, same⟩ := taken
  exact ⟨picked, some.trans sub, same⟩

theorem Taken.cons {frames : List Frame} {returned : List (ℕ × List UInt8)} (f : Frame) (n : ℕ)
    (taken : Taken frames returned) : Taken (f :: frames) ((n, f.bytes.take n) :: returned) := by
  obtain ⟨picked, some, same⟩ := taken
  exact ⟨f :: picked, some.cons_cons f, .cons rfl same⟩

/-- The step leaves the mailbox, fills it, or empties it for a call. -/
inductive MailStep (before after : Option Frame) (log : List Output) : Prop
  | leaves (same : after = before) (stored : storedFrames log = []) (returned : returnedData log = [])
  | fills (f : Frame) (mail : after = some f) (log : log = [.stored f])
  | empties (r : Request) (f : Frame) (t : Option ℕ) (mail : before = some f) (empty : after = none)
      (log : log = [.ok r f (f.bytes.take r.dataLen) t])

theorem taskStep_mailbox (s : Driver) (armed : Bool) :
    MailStep s.mailbox (taskStep s armed).1.mailbox (taskStep s armed).2 := by
  cases task : s.task with
  | store n received =>
    simp only [taskStep, task]
    exact .fills _ rfl rfl
  | start =>
    simp only [taskStep, task]
    cases armed <;> exact .leaves rfl rfl rfl
  | loop =>
    simp only [taskStep, task]
    split_ifs <;> exact .leaves rfl rfl rfl
  | woken ev =>
    simp only [taskStep, task]
    split_ifs <;> exact .leaves rfl rfl rfl
  | waiting | announce =>
    simp only [taskStep, task]
    exact .leaves rfl rfl rfl

theorem callerStep_mailbox (s : Driver) (started : Bool) :
    MailStep s.mailbox (callerStep s started).1.mailbox (callerStep s started).2 := by
  cases caller : s.caller with
  | look r | take r =>
    cases mail : s.mailbox with
    | none =>
      simp only [callerStep, caller, mail]
      exact .leaves (by first | rfl | exact mail) rfl rfl
    | some f =>
      simp only [callerStep, caller, mail]
      exact .empties r f _ rfl rfl rfl
  | woken r w ev =>
    cases w <;> simp only [callerStep, caller, recvStart, timeout] <;> split_ifs <;>
      exact .leaves rfl rfl rfl
  | transmit r | wait r w =>
    simp only [callerStep, caller]
    split_ifs <;> exact .leaves rfl rfl rfl
  | idle | blocked r w =>
    simp only [callerStep, caller]
    exact .leaves rfl rfl rfl

theorem step_mailbox (s : Driver) (e : Event) :
    MailStep s.mailbox (step s e).1.mailbox (step s e).2 := by
  cases e with
  | task armed => exact taskStep_mailbox s armed
  | caller started => exact callerStep_mailbox s started
  | receive | lineError => exact .leaves rfl rfl rfl
  | sent =>
    rw [step]
    split_ifs <;> exact .leaves rfl rfl rfl
  | timer | expire =>
    simp only [step]
    split <;> exact .leaves rfl rfl rfl
  | recv dataLen | txrx txLen dataLen =>
    simp only [step, recvStart]
    split_ifs <;> exact .leaves rfl rfl rfl

theorem taken_run (s : Driver) (events : List Event) :
    Taken (s.mailbox.toList ++ storedFrames (runLog step s events).2)
      (returnedData (runLog step s events).2) := by
  induction events generalizing s with
  | nil => exact ⟨[], List.nil_sublist _, .nil⟩
  | cons e events ih =>
    have rest := ih (step s e).1
    rw [runLog_cons, storedFrames, returnedData, List.filterMap_append, List.filterMap_append,
      ← storedFrames, ← storedFrames, ← returnedData, ← returnedData]
    cases step_mailbox s e with
    | leaves same stored returned =>
      rw [same] at rest
      rwa [stored, returned]
    | fills f mail log =>
      rw [mail] at rest
      rw [log]
      exact rest.mono (List.sublist_append_right _ _)
    | empties r f t mail empty log =>
      rw [empty] at rest
      rw [mail, log]
      exact rest.cons f r.dataLen

/-! ## The stages of a reception -/

/-- The task is on no reception, and can be told of one. -/
@[grind] def RxTask.Free : RxTask → Prop
  | .loop => True
  | .waiting => True
  | .woken ev => .rxNotify ∉ ev
  | _ => False

def Caller.Waits : Caller → Wait → Prop
  | .wait _ w', w => w' = w
  | .blocked _ w', w => w' = w
  | _, _ => False

instance : DecidablePred RxTask.Free := fun task => by
  cases task <;> unfold RxTask.Free <;> infer_instance

instance (c : Caller) (w : Wait) : Decidable (c.Waits w) := by
  cases c <;> unfold Caller.Waits <;> infer_instance

@[grind =] theorem Caller.waits_iff {c : Caller} {w : Wait} :
    c.Waits w ↔ ∃ r, c = .wait r w ∨ c = .blocked r w := by
  cases c <;> simp [Caller.Waits]

def Receiving (s : Driver) : Prop :=
  .rxNotify ∈ s.deferred ∨ .rxNotify ∈ s.bits ∨ ¬ (s.task = .start ∨ s.task.Free) ∨
    s.mailbox ≠ none

instance : DecidablePred Receiving := fun s =>
  inferInstanceAs (Decidable (_ ∨ _ ∨ ¬ (s.task = .start ∨ s.task.Free) ∨ s.mailbox ≠ none))

/-- A frame is received while the caller waits for one, with no bits pending and no error, and is
taken before the wait expires; and a transmission ends while the caller waits for that. -/
def Orderly (s : Driver) : Event → Prop
  | .receive _ _ => ¬ Receiving s ∧ s.deferred = [] ∧ .rxError ∉ s.bits ∧ s.task ≠ .start ∧
      s.caller.Waits .frame
  | .lineError => ¬ Receiving s
  | .sent => s.caller.Waits .transmission
  | .expire => ¬ Receiving s ∧ s.deferred = []
  | _ => True

instance (s : Driver) : DecidablePred (Orderly s) := fun event => by
  cases event <;> unfold Orderly <;> infer_instance

/-- The reception with this number is later than the last transmission. -/
@[grind] def After (s : Driver) (k : ℕ) : Prop := ∀ t, s.sentAt = some t → t < k

/-- The caller waits, and the mailbox is empty. -/
structure Waiting (s : Driver) : Prop where
  mailbox : s.mailbox = none
  caller : s.caller.Waits .frame
  frame : .rxFrame ∉ s.bits
  error : .rxError ∉ s.bits

/-- The mailbox has a frame for the caller. -/
structure Filled (s : Driver) (f : Frame) : Prop where
  mailbox : s.mailbox = some f
  deferred : s.deferred = []
  notify : .rxNotify ∉ s.bits
  error : .rxError ∉ s.bits
  after : After s f.received

/-- Where a reception is, from the interrupt to the call that takes the frame. -/
inductive Busy (s : Driver) : Prop
  | deferred (wait : Waiting s) (only : s.deferred = [.rxNotify]) (notify : .rxNotify ∉ s.bits)
      (free : s.task.Free) (after : After s s.receptions)
  | posted (wait : Waiting s) (empty : s.deferred = []) (notify : .rxNotify ∈ s.bits)
      (free : s.task.Free) (after : After s s.receptions)
  | woken (wait : Waiting s) (empty : s.deferred = []) (notify : .rxNotify ∉ s.bits)
      {ev : Finset EventBit} (task : s.task = .woken ev) (bit : .rxNotify ∈ ev)
      (sound : .rxError ∉ ev) (after : After s s.receptions)
  | store (wait : Waiting s) (empty : s.deferred = []) (notify : .rxNotify ∉ s.bits)
      {n k : ℕ} (task : s.task = .store n k) (after : After s k)
  | announce {f : Frame} (filled : Filled s f) (task : s.task = .announce)
      (frame : .rxFrame ∉ s.bits) (waits : s.caller.Waits .frame)
  | told {f : Frame} (filled : Filled s f) (free : s.task.Free) (frame : .rxFrame ∈ s.bits)
      {r : Request} (about : s.caller = .wait r .frame)
  | heard {f : Frame} (filled : Filled s f) (free : s.task.Free) (frame : .rxFrame ∉ s.bits)
      {r : Request} {ev : Finset EventBit} (woken : s.caller = .woken r .frame ev)
      (bit : .rxFrame ∈ ev) (sound : .rxError ∉ ev)
  | take {f : Frame} (filled : Filled s f) (free : s.task.Free) (frame : .rxFrame ∉ s.bits)
      {r : Request} (take : s.caller = .take r)

/-- Nothing is left of a reception. -/
structure Quiet (s : Driver) : Prop where
  deferred : .rxNotify ∉ s.deferred ∧ .rxFrame ∉ s.deferred
  bits : .rxNotify ∉ s.bits ∧ .rxFrame ∉ s.bits
  task : s.task = .start ∨ s.task.Free
  mailbox : s.mailbox = none
  take : ∀ r, s.caller ≠ .take r
  woken : ∀ r ev, s.caller = .woken r .frame ev → .rxFrame ∉ ev

theorem Busy.receiving (busy : Busy s) : Receiving s := by
  cases busy with
  | deferred wait only => exact .inl (by simp [only])
  | posted _ _ notify => exact .inr (.inl notify)
  | woken _ _ _ task bit | store _ _ _ task => exact .inr (.inr (.inl (by grind)))
  | announce filled | told filled | heard filled | take filled =>
    exact .inr (.inr (.inr (by simp [filled.mailbox])))

theorem Busy.expects (busy : Busy s) : s.caller ≠ .idle ∧ ¬ s.caller.Waits .transmission := by
  cases busy with
  | deferred wait | posted wait | woken wait | store wait =>
    have waits := wait.caller
    grind
  | _ => grind

/-! ## One step of a reception -/

theorem step_timer_nil (empty : s.deferred = []) : step s .timer = (s, []) := by
  simp [step, empty]

theorem RxTask.Free.wake {task : RxTask} {bits : Finset EventBit} (free : task.Free)
    (notify : .rxNotify ∉ bits) : (task.wake bits).Free := by
  cases task <;> grind

/-- Only the bit of the interrupt itself is set meanwhile. -/
theorem Busy.timer (busy : Busy s) : Busy (step s .timer).1 := by
  have same (empty : s.deferred = []) : Busy (step s .timer).1 := by
    rwa [step_timer_nil empty]
  cases busy with
  | deferred wait only notify free after =>
    obtain ⟨mailbox, caller, frame, error⟩ := wait
    simp only [step, only]
    cases task : s.task with
    | waiting =>
      exact .woken ⟨mailbox, by grind, by grind, by grind⟩ rfl (by grind)
        (show _ = RxTask.woken (s.bits ∪ {.rxNotify}) by grind) (by grind) (by grind) after
    | _ => exact .posted ⟨mailbox, by grind, by grind, by grind⟩ rfl (by grind) (by grind) after
  | posted _ empty => exact same empty
  | woken _ empty => exact same empty
  | store _ empty => exact same empty
  | announce filled => exact same filled.deferred
  | told filled => exact same filled.deferred
  | heard filled => exact same filled.deferred
  | take filled => exact same filled.deferred

theorem taskStep_free (free : s.task.Free) (notify : .rxNotify ∉ s.bits)
    (error : .rxError ∉ s.bits) (armed : Bool) :
    ∃ task, task.Free ∧ (taskStep s armed).1 = { s with task } := by
  cases task : s.task with
  | loop => exact ⟨.waiting, trivial, by grind [taskStep]⟩
  | waiting =>
    refine ⟨s.task, free, ?_⟩
    simp only [taskStep, task]
    rw [← task]
  | woken ev => exact ⟨.loop, trivial, by grind [taskStep]⟩
  | _ => grind

theorem Busy.task (busy : Busy s) (armed : Bool) : Busy (step s (.task armed)).1 := by
  rw [step]
  cases busy with
  | deferred wait only notify free after =>
    obtain ⟨mailbox, caller, frame, error⟩ := wait
    obtain ⟨task, free, same⟩ := taskStep_free free notify error armed
    rw [same]
    exact .deferred ⟨mailbox, caller, frame, error⟩ only notify free after
  | posted wait empty notify free after =>
    obtain ⟨mailbox, caller, frame, error⟩ := wait
    cases task : s.task with
    | loop =>
      simp only [taskStep, task]
      rw [if_pos (by grind)]
      exact .woken ⟨mailbox, caller, by grind, by grind⟩ empty (by grind) rfl notify error after
    | waiting =>
      simp only [taskStep, task]
      exact .posted ⟨mailbox, caller, frame, error⟩ empty notify free after
    | woken ev =>
      have same : (taskStep s armed).1 = { s with task := .loop } := by grind [taskStep]
      rw [same]
      exact .posted ⟨mailbox, caller, frame, error⟩ empty notify trivial after
    | _ => grind
  | woken wait empty notify task bit sound after =>
    obtain ⟨mailbox, caller, frame, error⟩ := wait
    simp only [taskStep, task]
    rw [if_neg sound, if_pos bit]
    exact .store ⟨mailbox, caller, frame, error⟩ empty notify rfl after
  | store wait empty notify task after =>
    simp only [taskStep, task]
    exact .announce ⟨rfl, empty, notify, wait.error, after⟩ rfl wait.frame wait.caller
  | announce filled task frame waits =>
    obtain ⟨mailbox, deferred, notify, error, after⟩ := filled
    simp only [taskStep, task]
    obtain ⟨r, about | blocked⟩ := Caller.waits_iff.1 waits
    · exact .told ⟨mailbox, deferred, by grind, by grind, after⟩ trivial (by grind)
        (show _ = Caller.wait r .frame by grind)
    · exact .heard ⟨mailbox, deferred, by grind, by grind, after⟩ trivial (by grind)
        (show _ = Caller.woken r .frame (s.bits ∪ {.rxFrame, .rxComplete}) by grind)
        (by grind) (by grind)
  | told filled free frame about =>
    obtain ⟨mailbox, deferred, notify, error, after⟩ := filled
    obtain ⟨task, free, same⟩ := taskStep_free free notify error armed
    rw [same]
    exact .told ⟨mailbox, deferred, notify, error, after⟩ free frame about
  | heard filled free frame woken bit sound =>
    obtain ⟨mailbox, deferred, notify, error, after⟩ := filled
    obtain ⟨task, free, same⟩ := taskStep_free free notify error armed
    rw [same]
    exact .heard ⟨mailbox, deferred, notify, error, after⟩ free frame woken bit sound
  | take filled free frame take =>
    obtain ⟨mailbox, deferred, notify, error, after⟩ := filled
    obtain ⟨task, free, same⟩ := taskStep_free free notify error armed
    rw [same]
    exact .take ⟨mailbox, deferred, notify, error, after⟩ free frame take

theorem callerStep_waits (waits : s.caller.Waits .frame) (frame : .rxFrame ∉ s.bits)
    (error : .rxError ∉ s.bits) (started : Bool) :
    ∃ caller expired storedInWait, caller.Waits .frame ∧
      (callerStep s started).1 = { s with caller, expired, storedInWait } := by
  obtain ⟨r, about | blocked⟩ := Caller.waits_iff.1 waits
  · exact ⟨.blocked r .frame, false, false, rfl, by grind [callerStep]⟩
  · refine ⟨s.caller, s.expired, s.storedInWait, waits, ?_⟩
    simp only [callerStep, blocked]
    rw [← blocked]

theorem Busy.waits (busy : Busy s) (waits : s.caller.Waits .frame) (frame : .rxFrame ∉ s.bits)
    {caller : Caller} (waits' : caller.Waits .frame) (expired storedInWait : Bool) :
    Busy { s with caller, expired, storedInWait } := by
  cases busy with
  | deferred wait only notify free after =>
    exact .deferred ⟨wait.mailbox, waits', frame, wait.error⟩ only notify free after
  | posted wait empty notify free after =>
    exact .posted ⟨wait.mailbox, waits', frame, wait.error⟩ empty notify free after
  | woken wait empty notify task bit sound after =>
    exact .woken ⟨wait.mailbox, waits', frame, wait.error⟩ empty notify task bit sound after
  | store wait empty notify task after =>
    exact .store ⟨wait.mailbox, waits', frame, wait.error⟩ empty notify task after
  | announce filled task =>
    obtain ⟨mailbox, deferred, notify, error, after⟩ := filled
    exact .announce ⟨mailbox, deferred, notify, error, after⟩ task frame waits'
  | told _ _ set => exact absurd set frame
  | heard | take => grind

theorem Busy.caller (busy : Busy s) (started : Bool) :
    Busy (step s (.caller started)).1 ∨ Quiet (step s (.caller started)).1 := by
  have goesOn (waits : s.caller.Waits .frame) (frame : .rxFrame ∉ s.bits)
      (error : .rxError ∉ s.bits) : Busy (callerStep s started).1 := by
    obtain ⟨caller, expired, storedInWait, waits', same⟩ :=
      callerStep_waits waits frame error started
    rw [same]
    exact busy.waits waits frame waits' expired storedInWait
  rw [step]
  cases busy with
  | deferred wait | posted wait | woken wait | store wait =>
    exact .inl (goesOn wait.caller wait.frame wait.error)
  | announce filled _ frame waits => exact .inl (goesOn waits frame filled.error)
  | told filled free frame about =>
    obtain ⟨mailbox, deferred, notify, error, after⟩ := filled
    simp only [callerStep, about]
    rw [if_pos (by grind)]
    exact .inl (.heard ⟨mailbox, deferred, by grind, by grind, after⟩ free (by grind) rfl frame
      error)
  | heard filled free frame woken bit sound =>
    obtain ⟨mailbox, deferred, notify, error, after⟩ := filled
    simp only [callerStep, woken]
    rw [if_neg sound, if_pos bit]
    exact .inl (.take ⟨mailbox, deferred, notify, error, after⟩ free frame rfl)
  | take filled free frame take =>
    simp only [callerStep, take, filled.mailbox]
    exact .inr ⟨by simp [deliver, filled.deferred], ⟨filled.notify, frame⟩, .inr free, rfl, nofun,
      nofun⟩

theorem Busy.kept (busy : Busy s) (orderly : Orderly s e) :
    Busy (step s e).1 ∨ Quiet (step s e).1 := by
  cases e with
  | receive => exact absurd busy.receiving orderly.1
  | lineError => exact absurd busy.receiving orderly
  | expire => exact absurd busy.receiving orderly.1
  | sent => exact absurd orderly busy.expects.2
  | timer => exact .inl busy.timer
  | task armed => exact .inl (busy.task armed)
  | caller started => exact busy.caller started
  | recv | txrx =>
    rw [step, if_neg busy.expects.1]
    exact .inl busy

/-! ## The transmission -/

/-- The request is on its way, or the caller knows that it is sent. -/
structure Sending (s : Driver) : Prop where
  going : s.sentAt = none → s.caller.Waits .transmission ∨
    ∃ r ev, s.caller = .woken r .transmission ev ∧ .txComplete ∉ ev
  once : s.deferred.count .txComplete + (if .txComplete ∈ s.bits then 1 else 0) ≤ 1
  told : .txComplete ∈ s.deferred ∨ .txComplete ∈ s.bits →
    s.caller.Waits .transmission ∧ s.sentAt ≠ none
  past : ∀ t, s.sentAt = some t → t ≤ s.receptions

theorem Sending.kept (sending : Sending s) (orderly : Orderly s e) : Sending (step s e).1 := by
  obtain ⟨going, once, told, past⟩ := sending
  cases e with
  | sent =>
    have waits : s.caller.Waits .transmission := orderly
    constructor <;> grind [step]
  | expire =>
    -- With nothing deferred the bit cannot come after the wait.
    have empty : s.deferred = [] := orderly.2
    constructor <;> grind [step]
  | receive | lineError | recv | txrx => constructor <;> grind [step, recvStart]
  | timer => constructor <;> grind [step]
  | task armed =>
    cases task : s.task <;> constructor <;> simp only [step, taskStep, task] <;> grind
  | caller started =>
    cases caller : s.caller with
    | woken r w ev =>
      have aborted : s.sentAt.getD s.receptions ≤ s.receptions := by
        cases sent : s.sentAt with
        | none => exact le_rfl
        | some t => exact past t sent
      cases w <;> constructor <;> simp only [step, callerStep, caller, recvStart, timeout] <;> grind
    | _ => constructor <;> simp only [step, callerStep, caller, deliver, timeout] <;> grind

theorem Quiet.kept (quiet : Quiet s) (sending : Sending s) (orderly : Orderly s e) :
    Busy (step s e).1 ∨ Quiet (step s e).1 := by
  obtain ⟨⟨notifyLater, frameLater⟩, ⟨notify, frame⟩, task, mailbox, take, woken⟩ := quiet
  cases e with
  | receive buf size =>
    obtain ⟨-, empty, error, started, waits⟩ := orderly
    refine .inl (.deferred ⟨mailbox, waits, frame, error⟩ ?_ notify (task.resolve_left started) ?_)
    · simp [step, empty]
    · exact fun t sent => Nat.lt_succ_of_le (sending.past t sent)
  | sent =>
    rw [step]
    split_ifs
    · exact .inr ⟨by simp [notifyLater, frameLater], ⟨notify, frame⟩, task, mailbox, take, woken⟩
    · exact .inr ⟨⟨notifyLater, frameLater⟩, ⟨notify, frame⟩, task, mailbox, take, woken⟩
  | lineError =>
    exact .inr ⟨by simp [step, notifyLater, frameLater], ⟨notify, frame⟩, task, mailbox, take,
      woken⟩
  | timer =>
    refine .inr ?_
    cases deferred : s.deferred with
    | nil =>
      rw [step_timer_nil deferred]
      exact ⟨⟨notifyLater, frameLater⟩, ⟨notify, frame⟩, task, mailbox, take, woken⟩
    | cons b rest =>
      simp only [step, deferred]
      have notify : .rxNotify ∉ s.bits ∪ {b} := by grind
      have frame : .rxFrame ∉ s.bits ∪ {b} := by grind
      refine ⟨by grind, by grind, ?_, mailbox, by grind, by grind⟩
      exact task.imp (fun start => by grind) (·.wake notify)
  | expire => exact .inr (by constructor <;> grind [step])
  | task armed => exact .inr (by constructor <;> grind [step, taskStep])
  | recv | txrx => exact .inr (by constructor <;> grind [step, recvStart])
  | caller started =>
    exact .inr (by constructor <;> grind [step, callerStep, recvStart, deliver, timeout])

/-- A wait that ended without a bit expired, and no frame was stored meanwhile. -/
structure Honest (s : Driver) : Prop where
  woken : ∀ r w ev, s.caller = .woken r w ev → ¬ Meets ev w.mask →
    s.expired = true ∧ s.storedInWait = false
  blocked : ∀ r w, s.caller = .blocked r w → s.storedInWait = true → s.mailbox ≠ none

/-- A frame is stored only while the caller waits for one. -/
theorem waits_of_store {n k : ℕ} (stage : Busy s ∨ Quiet s) (task : s.task = .store n k) :
    s.caller.Waits .frame := by
  obtain busy | quiet := stage
  · cases busy with
    | store wait => exact wait.caller
    | _ => grind
  · have free := quiet.task
    grind

theorem Honest.kept (honest : Honest s) (stage : Busy s ∨ Quiet s) (orderly : Orderly s e) :
    Honest (step s e).1 := by
  obtain ⟨woken, blocked⟩ := honest
  cases e with
  | expire =>
    have empty : s.mailbox = none := by grind [Orderly, Receiving]
    constructor <;> grind [step]
  | task armed =>
    cases task : s.task with
    | store n k =>
      have waits := waits_of_store stage task
      simp only [step, taskStep, task]
      constructor <;> grind
    | _ => constructor <;> grind [step, taskStep]
  | caller started => constructor <;> grind [step, callerStep, recvStart, deliver, timeout]
  | _ => constructor <;> grind [step, recvStart]

/-! ## Runs -/

/-- A wait that timed out expired with no frame stored meanwhile, and an answer was received after
its request was sent. -/
def Truthful : Output → Prop
  | .timeout expired storedInWait => expired = true ∧ storedInWait = false
  | .ok r f _ sentAt => r.transmits = true → ∃ t ∈ sentAt, t < f.received
  | _ => True

structure Inv (s : Driver) : Prop where
  stage : Busy s ∨ Quiet s
  sending : Sending s
  honest : Honest s

theorem Inv.kept (inv : Inv s) (orderly : Orderly s e) : Inv (step s e).1 where
  stage := inv.stage.elim (·.kept orderly) (·.kept inv.sending orderly)
  sending := inv.sending.kept orderly
  honest := inv.honest.kept inv.stage orderly

theorem inv_init : Inv {} where
  stage := .inr ⟨by simp, by simp, .inl rfl, rfl, nofun, nofun⟩
  sending := ⟨nofun, by simp, by simp, by simp⟩
  honest := ⟨nofun, nofun⟩

theorem Inv.truthful (inv : Inv s) : ∀ o ∈ (step s e).2, Truthful o := by
  cases e with
  | task armed => cases task : s.task <;> grind [step, taskStep, Truthful]
  | caller started =>
    obtain ⟨stage, sending, honest⟩ := inv
    have going := sending.going
    cases caller : s.caller with
    | woken r w ev =>
      have expired := honest.woken r w ev caller
      cases w <;> grind [step, callerStep, recvStart, timeout, Truthful]
    | look r =>
      -- No frame is there: it would have come before the caller looked.
      have empty : s.mailbox = none := by
        obtain busy | quiet := stage
        · cases busy with
          | deferred wait | posted wait | woken wait | store wait => exact wait.mailbox
          | _ => grind
        · exact quiet.mailbox
      simp [step, callerStep, caller, empty]
    | take r =>
      obtain ⟨f, filled⟩ : ∃ f, Filled s f := by
        obtain busy | quiet := stage
        · cases busy with
          | take filled => exact ⟨_, filled⟩
          | deferred wait | posted wait | woken wait | store wait =>
            have waits := wait.caller
            grind
          | _ => grind
        · exact absurd caller (quiet.take r)
      obtain ⟨t, sent⟩ : ∃ t, s.sentAt = some t := Option.ne_none_iff_exists'.1 (by grind)
      simp [step, callerStep, caller, filled.mailbox, deliver, Truthful, sent, filled.after t sent]
    | _ => grind [step, callerStep, Truthful]
  | _ => grind [step, recvStart, Truthful]

/-- Frames are returned once and in order; in orderly runs the time-outs are true and the answers
are newer than the requests. -/
theorem receive_truthful (events : List Event) :
    Taken (storedFrames (runLog step {} events).2) (returnedData (runLog step {} events).2) ∧
    (AlongLog step Orderly {} events → ∀ o ∈ (runLog step {} events).2, Truthful o) :=
  ⟨taken_run {} events, fun along => along.forall_mem Inv (fun _ _ inv _ => inv.truthful)
    (fun _ _ inv orderly => inv.kept orderly) inv_init⟩

def startTask : List Event := [.task true, .task true]

def receiveFrame : List Event :=
  [.receive [7, 8] 2, .timer, .task true, .task true, .task true]

def sendRequest : List Event :=
  [.txrx 4 1, .caller true, .caller true, .sent, .timer, .caller true]

def requestRun : List Event :=
  startTask ++ sendRequest ++ [.caller true, .caller true] ++ receiveFrame ++
    [.caller true, .caller true, .recv 8, .caller true, .caller true, .expire, .caller true]

theorem receive_truthful_requestRun :
    (runLog step {} requestRun).2 = [.stored ⟨[7, 8], 1⟩, .ok ⟨true, 1⟩ ⟨[7, 8], 1⟩ [7] (some 0),
      .timeout true false] ∧ ∀ o ∈ (runLog step {} requestRun).2, Truthful o :=
  ⟨by decide, (receive_truthful requestRun).2 (by decide)⟩

/-- A frame comes before the first call; the second call then times out at once. -/
def earlyRun : List Event :=
  startTask ++ receiveFrame ++
    [.recv 8, .caller true, .recv 8, .caller true, .caller true, .caller true, .caller true]

def staleRun : List Event := startTask ++ receiveFrame ++ sendRequest ++ [.caller true]

theorem frame_outlives_call : (runLog step {} earlyRun).2 =
      [.stored ⟨[7, 8], 1⟩, .ok ⟨false, 8⟩ ⟨[7, 8], 1⟩ [7, 8] (some 0), .timeout false false] ∧
    (runLog step {} staleRun).2 =
      [.stored ⟨[7, 8], 1⟩, .ok ⟨true, 1⟩ ⟨[7, 8], 1⟩ [7] (some 1)] ∧
    (¬ ∀ o ∈ (runLog step {} earlyRun).2, Truthful o) ∧
    ¬ ∀ o ∈ (runLog step {} staleRun).2, Truthful o := by
  have early : (runLog step {} earlyRun).2 = [.stored ⟨[7, 8], 1⟩,
      .ok ⟨false, 8⟩ ⟨[7, 8], 1⟩ [7, 8] (some 0), .timeout false false] := by decide
  have stale : (runLog step {} staleRun).2 = [.stored ⟨[7, 8], 1⟩,
      .ok ⟨true, 1⟩ ⟨[7, 8], 1⟩ [7] (some 1)] := by decide
  refine ⟨early, stale, ?_, ?_⟩
  · rw [early]
    simp [Truthful]
  · rw [stale]
    simp [Truthful]

end NeoRuntime.Rs485
