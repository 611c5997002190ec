import NeoRuntime.HostLink.Framer

/-!
# Resynchronisation of the framer

Whatever the framer holds, it takes at most 526 more bytes before it hunts for the sync bytes again
(`owed`).  In a stream of frames whose sync bytes stand only at frame starts it then finds the next
frame start, so that every frame further on is handed on.
-/

namespace NeoRuntime.HostLink.Framer

def syncPair : List UInt8 := [0x48, 0x4C]

def Hunting (held : List UInt8) : Prop := held = [] ∨ held = [0x48]

/-- How many bytes the frame in progress can still take. -/
def owed (held : List UInt8) : ℕ :=
  if held.length < 2 then 0
  else if held.length < hostLinkHeaderWireLen then hostLinkCfgMaxPayload + 16 - held.length
  else lenOf held + 16 - held.length

section Owed

variable {held : List UInt8}

theorem owed_of_header (two : 2 ≤ held.length) (short : held.length < hostLinkHeaderWireLen) :
    owed held = hostLinkCfgMaxPayload + 16 - held.length := by
  rw [owed, if_neg (by omega), if_pos short]

theorem owed_of_body (long : hostLinkHeaderWireLen ≤ held.length) :
    owed held = lenOf held + 16 - held.length := by
  have := long
  rw [hostLinkHeaderWireLen] at this
  rw [owed, if_neg (by omega), if_neg (by omega)]

theorem owed_le (holds : Held held) : owed held ≤ 526 := by
  cases holds with
  | nothing | half => simp [owed]
  | started started =>
    have two := started.two_le
    rcases Nat.lt_or_ge held.length hostLinkHeaderWireLen with short | long
    · rw [owed_of_header two short, hostLinkCfgMaxPayload]
      omega
    · have le_max := started.le_max long
      rw [owed_of_body long]
      rw [hostLinkCfgMaxPayload] at le_max
      omega

theorem owed_pos (started : Started held) : 0 < owed held := by
  rcases Nat.lt_or_ge held.length hostLinkHeaderWireLen with short | long
  · have := short
    rw [hostLinkHeaderWireLen] at this
    rw [owed_of_header started.two_le short, hostLinkCfgMaxPayload]
    omega
  · have := started.short long
    rw [owed_of_body long]
    omega

/-- Every byte is taken from what is owed, or ends the frame in progress. -/
theorem step_owed (started : Started held) (input : UInt8 × Bool) : (step held input).1 = [] ∨
      Started (step held input).1 ∧ owed (step held input).1 + 1 ≤ owed held := by
  obtain ⟨b, ok⟩ := input
  have two := started.two_le
  have grown : (held ++ [b]).length = held.length + 1 := by simp
  have kept (fewer : owed (held ++ [b]) + 1 ≤ owed held)
      (same : step held (b, ok) = (held ++ [b], [])) :
      (step held (b, ok)).1 = [] ∨
        Started (step held (b, ok)).1 ∧ owed (step held (b, ok)).1 + 1 ≤ owed held := by
    have holds := step_held (.started started) (b, ok)
    rw [same] at holds ⊢
    refine .inr ⟨?_, fewer⟩
    generalize raw : held ++ [b] = next at holds grown
    cases holds with
    | nothing => simp at grown
    | half =>
      simp only [List.length_singleton] at grown
      omega
    | started started => exact started
  rcases Nat.lt_trichotomy (held.length + 1) hostLinkHeaderWireLen with short | last | more
  · refine kept ?_ (step_header two short)
    rw [owed_of_header two (by omega), owed_of_header (by omega) (by omega), grown,
      hostLinkCfgMaxPayload]
    rw [hostLinkHeaderWireLen] at short
    omega
  · have step_eq := @step_headerEnd held b ok last
    split_ifs at step_eq with fits
    · refine kept ?_ step_eq
      rw [owed_of_header two (by omega), owed_of_body (by omega), grown]
      rw [hostLinkHeaderWireLen] at last
      omega
    · exact .inl (by rw [step_eq])
  · have long : hostLinkHeaderWireLen ≤ held.length := by omega
    rcases Nat.lt_or_ge (held.length + 1) (lenOf held + 16) with short | last
    · refine kept ?_ (step_body long short)
      rw [owed_of_body long, owed_of_body (by omega), grown, lenOf_append long]
      omega
    · exact .inl (by rw [step_bodyEnd long last])

end Owed

/-! ## Hunting through bytes without sync pair -/

variable {held : List UInt8} {inputs : List (UInt8 × Bool)}

theorem run_hunting (hunting : Hunting held)
    (clean : ¬ syncPair <:+: held ++ inputs.map Prod.fst) : Hunting (run held inputs).1 := by
  induction inputs generalizing held with
  | nil => exact hunting
  | cons input inputs ih =>
    obtain ⟨b, ok⟩ := input
    have next : Hunting (step held (b, ok)).1 ∧
        (step held (b, ok)).1 ++ inputs.map Prod.fst <:+ held ++ b :: inputs.map Prod.fst := by
      rcases hunting with rfl | rfl
      · rw [step_nothing]
        split_ifs with h48
        · exact ⟨.inr rfl, by simp [h48]⟩
        · exact ⟨.inl rfl, List.suffix_cons ..⟩
      · rw [step_half]
        split_ifs with h4c h48
        · exact absurd ⟨[], inputs.map Prod.fst, by simp [syncPair, h4c]⟩ clean
        · exact ⟨.inr rfl, by simp [h48]⟩
        · refine ⟨.inl rfl, ?_⟩
          exact (List.suffix_cons b _).trans (List.suffix_cons _ _)
    rw [run, runLog_cons]
    exact ih next.1 fun pair => clean (pair.trans next.2.isInfix)

/-- A frame in progress swallows bytes of the stream; when it ends, the framer hunts on. -/
theorem run_swallow (started : Started held) (input : UInt8 × Bool)
    (clean : ¬ syncPair <:+: inputs.map Prod.fst) :
    Hunting (run held (input :: inputs)).1 ∨
      Started (run held (input :: inputs)).1 ∧
        owed (run held (input :: inputs)).1 + (inputs.length + 1) ≤ owed held := by
  induction inputs generalizing held input with
  | nil =>
    rcases step_owed started input with ended | ⟨more, fewer⟩
    · exact .inl (.inl ended)
    · exact .inr ⟨more, fewer⟩
  | cons next inputs ih =>
    rw [run, runLog_cons]
    rcases step_owed started input with ended | ⟨more, fewer⟩
    · left
      rw [ended]
      exact run_hunting (.inl rfl) clean
    · have clean' : ¬ syncPair <:+: inputs.map Prod.fst := fun pair =>
        clean (pair.trans (List.suffix_cons next.1 _).isInfix)
      rcases ih more next clean' with hunting | ⟨started, fewer'⟩
      · exact .inl hunting
      · refine .inr ⟨started, ?_⟩
        rw [run] at fewer'
        simp only [List.length_cons]
        omega

/-- A frame found at its start ends with its last byte, if not earlier for want of memory. -/
theorem run_sync {f : HostLinkFrame} (sized : f.Sized)
    (split : f.wire = held ++ inputs.map Prod.fst)
    (two : 2 ≤ held.length) (more : inputs ≠ [])
    (clean : ¬ syncPair <:+: inputs.map Prod.fst) : Hunting (run held inputs).1 := by
  have full : f.wire.length = lenOf f.wire + 16 := by
    rw [f.length_wire, lenOf_wire, sized.length_payload]
  induction inputs generalizing held with
  | nil => exact absurd rfl more
  | cons input inputs ih =>
    obtain ⟨b, ok⟩ := input
    have split' : f.wire = (held ++ [b]) ++ inputs.map Prod.fst := by simp [split]
    have total : f.wire.length = held.length + 1 + inputs.length := by
      simp only [split', List.length_append, List.length_singleton, List.length_map]
    have clean' : ¬ syncPair <:+: inputs.map Prod.fst := fun pair =>
      clean (pair.trans (List.suffix_cons b _).isInfix)
    have grown : 2 ≤ (held ++ [b]).length := by
      rw [List.length_append]
      omega
    have collected (rest : 0 < inputs.length) (same : (step held (b, ok)).1 = held ++ [b]) :
        Hunting (run held ((b, ok) :: inputs)).1 := by
      rw [run, runLog_cons, same]
      exact ih split' grown (List.length_pos_iff.1 rest) clean'
    have dropped (same : (step held (b, ok)).1 = []) :
        Hunting (run held ((b, ok) :: inputs)).1 := by
      rw [run, runLog_cons, same]
      exact run_hunting (.inl rfl) clean'
    rcases Nat.lt_trichotomy (held.length + 1) hostLinkHeaderWireLen with short | last | long
    · rw [hostLinkHeaderWireLen] at short
      exact collected (by omega) (by rw [step_header two short])
    · have step_eq := @step_headerEnd held b ok last
      rw [hostLinkHeaderWireLen] at last
      split_ifs at step_eq
      · exact collected (by omega) (by rw [step_eq])
      · exact dropped (by rw [step_eq])
    · have long : hostLinkHeaderWireLen ≤ held.length := by omega
      have same : lenOf held = lenOf f.wire := by rw [split, lenOf_append long]
      rcases Nat.lt_or_ge (held.length + 1) (lenOf held + 16) with short | last
      · exact collected (by omega) (by rw [step_body long short])
      · exact dropped (by rw [step_bodyEnd long last])

/-! ## A stream of frames -/

/-- After `k` bytes of the stream, what is left of the garbage ends within the first 526 bytes. -/
def Near (k : ℕ) (held : List UInt8) : Prop :=
  Hunting held ∨ Started held ∧ k + owed held ≤ 526

theorem near_of_held (holds : Held held) : Near 0 held := by
  have le := owed_le holds
  cases holds with
  | nothing => exact .inl (.inl rfl)
  | half => exact .inl (.inr rfl)
  | started started => exact .inr ⟨started, by omega⟩

theorem Near.hunting {k : ℕ} (near : Near k held) (far : 526 ≤ k) : Hunting held := by
  rcases near with hunting | ⟨started, within⟩
  · exact hunting
  · have := owed_pos started
    omega

/-- One frame of the stream, with or without memory for it. -/
theorem run_frame_near {f : HostLinkFrame} (checked : Checked f)
    (clean : ¬ syncPair <:+: f.wire.tail) {k : ℕ} (near : Near k held)
    (wire : inputs.map Prod.fst = f.wire) :
    Near (k + f.wire.length) (run held inputs).1 := by
  obtain ⟨rest, sync⟩ := checked.sync
  simp only [List.cons_append, List.nil_append] at sync
  rw [← sync] at wire clean
  obtain ⟨⟨b₀, ok₀⟩, inputs₁, rfl, rfl, wire₁⟩ := List.map_eq_cons_iff.1 wire
  rw [List.tail_cons, ← wire₁] at clean
  rcases near with hunting | ⟨started, within⟩
  · left
    obtain ⟨⟨b₁, ok₁⟩, inputs₂, rfl, rfl, wire₂⟩ := List.map_eq_cons_iff.1 wire₁
    have first : (step held (0x48, ok₀)).1 = [0x48] := by
      rcases hunting with rfl | rfl
      · simp [step_nothing]
      · simp [step_half]
    have second : (step [0x48] (0x4C, ok₁)).1 = [0x48, 0x4C] := by simp [step_half]
    rw [run, runLog_cons, runLog_cons, first, second]
    refine run_sync checked.toSized (by simp [← sync, wire₂]) le_rfl ?_ fun pair =>
      clean (pair.trans (List.suffix_cons 0x4C _).isInfix)
    rintro rfl
    have := f.length_wire
    simp [← sync, ← wire₂] at this
  · have size : f.wire.length = inputs₁.length + 1 := by
      rw [← sync, ← wire]
      simp
    rcases run_swallow started (0x48, ok₀) clean with hunting | ⟨more, fewer⟩
    · exact .inl hunting
    · exact .inr ⟨more, by omega⟩

theorem run_frames_near {fs : List HostLinkFrame} (checked : ∀ f ∈ fs, Checked f)
    (clean : ∀ f ∈ fs, ¬ syncPair <:+: f.wire.tail) {k : ℕ}
    (near : Near k held)
    (wire : inputs.map Prod.fst = fs.flatMap HostLinkFrame.wire) :
    Near (k + (fs.flatMap HostLinkFrame.wire).length) (run held inputs).1 := by
  induction fs generalizing k held inputs with
  | nil =>
    obtain rfl := List.map_eq_nil_iff.1 wire
    exact near
  | cons f fs ih =>
    rw [List.flatMap_cons] at wire ⊢
    obtain ⟨first, rest, rfl, wire₁, wire₂⟩ := List.map_eq_append_iff.1 wire
    have here := run_frame_near (checked f (by simp)) (clean f (by simp)) near wire₁
    have there := ih (fun g mem => checked g (List.mem_cons_of_mem f mem))
      (fun g mem => clean g (List.mem_cons_of_mem f mem)) here wire₂
    rw [run, runLog_append, List.length_append, ← add_assoc]
    exact there

theorem run_resync (pre : List HostLinkFrame) {f : HostLinkFrame}
    (checked : ∀ g ∈ pre, Checked g) (clean : ∀ g ∈ pre, ¬ syncPair <:+: g.wire.tail)
    (far : 526 ≤ (pre.flatMap HostLinkFrame.wire).length) (last : Checked f)
    (holds : Held held) {before : List (UInt8 × Bool)}
    (wire : before.map Prod.fst = pre.flatMap HostLinkFrame.wire)
    (wire' : inputs.map Prod.fst = f.wire) (memory : ∀ i ∈ inputs, i.2 = true) :
    run (run held before).1 inputs = ([], [f]) := by
  have near := run_frames_near checked clean (near_of_held holds) wire
  exact run_frame last (near.hunting (by omega)) wire' memory

end NeoRuntime.HostLink.Framer
