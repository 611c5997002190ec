import NeoRuntime.Hal.FactoryFormatProof

/-!
# Sequences of factory updates

Every call of `hal_factory_format_set` may meet failing reads and a failing write.  A slot that
cannot be read counts as invalid, so a call that cannot read the active slot starts from the older
one (`update_from_older_slot`).  `updates_keep_newer` states what a call must find to replace its
field alone.
-/

namespace NeoRuntime.Hal

/-- A call of `hal_factory_format_set`. -/
structure SetCall where
  field : FactoryField
  value : List UInt8
  faults : SetFaults := {}

structure SetLog where
  before : Eeprom
  call : SetCall
  after : Eeprom
  outcome : SetOutcome

section

variable (parseMac : List UInt8 → Option (Vector UInt8 6))

def setStep (e : Eeprom) (call : SetCall) : Eeprom × List SetLog :=
  let result := setField parseMac e call.field call.value call.faults
  (result.1, [⟨e, call, result.1, result.2⟩])

/-- The texts of the record; all are empty when there is none. -/
def readTexts (e : Eeprom) : FactoryTexts :=
  match readAll e with
  | .ok info => info.texts
  | .error _ => fun _ => []

/-- A call that answers 0 has replaced its field, and one that fails before its write has changed
nothing. -/
def UpdateKept (log : SetLog) : Prop :=
  (log.outcome = .done → ∃ info, readAll log.after = .ok info ∧
    info.texts = Function.update (readTexts log.before) log.call.field
      (givenText parseMac log.call.value log.call.field)) ∧
  ∀ err, log.outcome = .refused err → readAll log.after = readAll log.before

def SetFaults.read (faults : SetFaults) : Letter → Bool
  | .a => faults.readA
  | .b => faults.readB

/-- The active slot is read and not the last in sequence, its flags agree with its address unless
that is replaced, and the field can hold the value. -/
def UpdateSafe (e : Eeprom) (call : SetCall) : Prop :=
  keptText parseMac call.value call.field = givenText parseMac call.value call.field ∧
  ∀ letter, readActive e false false = .ok letter →
    call.faults.read letter = false ∧ (e.slot letter).seq.toNat < 2 ^ 32 - 1 ∧
      (call.field = .mac ∨ (e.slot letter).flagsAgree)

end

/-! ## Reading with faults -/

theorem readActive_of_read {e : Eeprom} {letter : Letter} {faults : SetFaults}
    (active : readActive e false false = .ok letter) (read : faults.read letter = false) :
    readActive e faults.readA faults.readB = .ok letter := by
  have valid := readActive_valid active
  cases letter with
  | a =>
    have read : faults.readA = false := read
    cases other : faults.readB with
    | false => rwa [read]
    | true => simp_all [readActive, Eeprom.slot]
  | b =>
    have read : faults.readB = false := read
    cases other : faults.readA with
    | false => rwa [read]
    | true => simp_all [readActive, Eeprom.slot]

theorem invalid_of_error {e : Eeprom} {err : FactoryError}
    (none : readActive e false false = .error err) (letter : Letter) :
    (e.slot letter).valid = false := by
  by_contra valid
  rw [readActive_of_valid _ (by simpa using valid)] at none
  cases none

theorem readActive_of_error {e : Eeprom} {err : FactoryError}
    (none : readActive e false false = .error err) (faults : SetFaults) :
    ∃ err', readActive e faults.readA faults.readB = .error err' := by
  have a : e.a.valid = false := invalid_of_error none .a
  have b : e.b.valid = false := invalid_of_error none .b
  unfold readActive
  rw [a, b]
  split_ifs <;> simp_all

/-! ## One call -/

theorem writeSlot_done {e : Eeprom} {target : Letter} {new : Slot} {faults : SetFaults}
    (done : (writeSlot e target new faults).2 = .done) :
    (writeSlot e target new faults).1 = e.write target new := by
  unfold writeSlot at done ⊢
  cases write : faults.write with
  | some k =>
    rw [write] at done
    cases done
  | none =>
    dsimp only
    split_ifs <;> rfl

theorem writeSlot_not_refused (e : Eeprom) (target : Letter) (new : Slot) (faults : SetFaults)
    (err : FactoryError) : (writeSlot e target new faults).2 ≠ .refused err := by
  unfold writeSlot
  cases faults.write with
  | some k => simp
  | none =>
    dsimp only
    split_ifs <;> simp

section

variable {parseMac : List UInt8 → Option (Vector UInt8 6)} {e : Eeprom} {call : SetCall}

theorem setField_refused {err : FactoryError}
    (refused : (setField parseMac e call.field call.value call.faults).2 = .refused err) :
    (setField parseMac e call.field call.value call.faults).1 = e := by
  unfold setField at refused ⊢
  split
  · rfl
  · rename_i raw accepted
    rw [accepted] at refused
    dsimp only at refused
    split
    · rename_i letter active
      rw [active] at refused
      exact absurd refused (writeSlot_not_refused _ _ _ _ _)
    · rename_i active
      rw [active] at refused
      exact absurd refused (writeSlot_not_refused _ _ _ _ _)
    · rfl

theorem setField_done {field : FactoryField} {value : List UInt8} {faults : SetFaults}
    (done : (setField parseMac e field value faults).2 = .done) :
    ∃ raw : FieldRaw field, encodeField parseMac value field = .ok raw ∧
      (setField parseMac e field value faults).1 =
        match readActive e faults.readA faults.readB with
        | .ok letter => e.write letter.other ((e.slot letter).next field raw)
        | .error _ => e.write .a (image (replaceField blankPayload field raw) 1) := by
  unfold setField at done ⊢
  cases accepted : encodeField parseMac value field with
  | error err =>
    rw [accepted] at done
    cases done
  | ok raw =>
    rw [accepted] at done
    refine ⟨raw, rfl, ?_⟩
    dsimp only at done ⊢
    split at done <;> rename_i active <;> rw [active]
    · exact writeSlot_done done
    · exact writeSlot_done done
    · cases done

/-- Without a fault of the write or of the check the call answers 0. -/
theorem setField_written {field : FactoryField} {value : List UInt8} {faults : SetFaults}
    {letter : Letter} {raw : FieldRaw field}
    (active : readActive e faults.readA faults.readB = .ok letter)
    (accepted : encodeField parseMac value field = .ok raw) (write : faults.write = none)
    (verify : faults.verify = false) :
    setField parseMac e field value faults =
      (e.write letter.other ((e.slot letter).next field raw), .done) := by
  have valid : ((e.slot letter).next field raw).valid = true := image_valid _ _
  simp [setField, accepted, active, writeSlot, write, verify, valid]

theorem readActive_unread {faults : SetFaults} (readA : faults.readA = false)
    (readB : faults.readB = true) (valid : e.a.valid = true) :
    readActive e faults.readA faults.readB = .ok .a := by
  simp [readActive, readA, readB, valid]

theorem blank_texts {field : FactoryField} (raw : FieldRaw field) :
    (image (replaceField blankPayload field raw) 1).texts =
      Function.update (fun _ => []) field (storedText field raw.1) := by
  have empty : fieldText (newFlags blankPayload) blankPayload.1 = fun _ => [] := by
    funext field'
    cases field' <;> decide
  rw [Slot.texts, image_flags, image_payload, fieldText_replaceField, empty]

theorem refused_unchanged : ∀ log ∈ (setStep parseMac e call).2, ∀ err, log.outcome = .refused err →
      readAll log.after = readAll log.before := by
  intro log mem err refused
  rw [setStep, List.mem_singleton] at mem
  subst mem
  dsimp only at refused ⊢
  rw [setField_refused refused]

theorem UpdateSafe.kept (safe : UpdateSafe parseMac e call) :
    ∀ log ∈ (setStep parseMac e call).2, UpdateKept parseMac log := by
  rintro log mem
  refine ⟨?_, refused_unchanged log mem⟩
  rw [setStep, List.mem_singleton] at mem
  subst mem
  intro done
  dsimp only at done ⊢
  cases active : readActive e false false with
  | ok letter =>
    obtain ⟨read, room, flags⟩ := safe.2 letter active
    obtain ⟨raw, accepted, written⟩ := setField_done done
    rw [readActive_of_read active read] at written
    obtain ⟨info, shown, texts⟩ := readAll_write_other _ (readActive_valid active)
      ((e.slot letter).next call.field raw)
    rw [written]
    refine ⟨info, shown, ?_⟩
    rw [texts, shownTexts_complete room, next_texts_of_agree raw flags,
      encodeField_stored accepted, safe.1, readTexts, readAll_of_active active]
  | error err =>
    obtain ⟨raw, accepted, written⟩ := setField_done done
    obtain ⟨err', unread⟩ := readActive_of_error active call.faults
    rw [unread] at written
    have other : (e.slot .b).valid = false := invalid_of_error active .b
    have now : readActive (e.write .a (image (replaceField blankPayload call.field raw) 1))
        false false = .ok .a := by
      rw [readActive_of_valid .a (by rw [Eeprom.slot_write, image_valid])]
      have still : ((e.write .a (image (replaceField blankPayload call.field raw) 1)).slot
          Letter.a.other).valid = false := other
      rw [still]
      rfl
    rw [written]
    refine ⟨_, readAll_of_active now, ?_⟩
    dsimp only
    rw [Eeprom.slot_write, blank_texts, encodeField_stored accepted, safe.1, readTexts, readAll,
      active]

end

/-- In a run of safe calls, a successful call replaces its field alone, and one that fails before
its write changes nothing. -/
theorem updates_keep_newer (parseMac : List UInt8 → Option (Vector UInt8 6)) (e : Eeprom)
    (calls : List SetCall) :
    (∀ log ∈ (runLog (setStep parseMac) e calls).2, ∀ err, log.outcome = .refused err →
      readAll log.after = readAll log.before) ∧
    (AlongLog (setStep parseMac) (UpdateSafe parseMac) e calls →
      ∀ log ∈ (runLog (setStep parseMac) e calls).2, UpdateKept parseMac log) := by
  refine ⟨?_, fun safe => ?_⟩
  · exact AlongLog.forall_mem (fun _ => True) (fun _ _ _ _ => refused_unchanged)
      (fun _ _ _ _ => trivial) trivial (AlongLog.of_forall fun _ _ _ => trivial)
  · exact AlongLog.forall_mem (fun _ => True) (fun _ _ _ safe => safe.kept)
      (fun _ _ _ _ => trivial) trivial safe

/-! ## Two calls -/

def updatedBoard : Eeprom := ⟨image (samplePayload 0x41) 1, image (samplePayload 0x42) 2⟩

theorem updatedBoard_active : readActive updatedBoard false false = .ok .b := by
  rw [readActive_of_valid (e := updatedBoard) .b (image_valid _ _)]
  simp [updatedBoard, Eeprom.slot, Letter.other, image_seq, Letter.beats]

def batchCall (faults : SetFaults) : SetCall := ⟨.batch, [0x31], faults⟩

def batchRaw : FieldRaw .batch := ⟨0x31 :: List.replicate 7 0xFF, rfl⟩

/-- The board after a call that could not read the older slot. -/
def renewedBoard : Eeprom := updatedBoard.write .a (updatedBoard.b.next .batch batchRaw)

theorem renewedBoard_result :
    setField (fun _ => none) updatedBoard .batch [0x31] { readA := true } = (renewedBoard, .done) :=
  setField_written (readActive_of_read updatedBoard_active rfl) rfl rfl rfl

theorem renewedBoard_active : readActive renewedBoard false false = .ok .a := by
  rw [readActive_of_valid (e := renewedBoard) .a (image_valid _ _)]
  simp [renewedBoard, updatedBoard, Eeprom.slot, Eeprom.write, Letter.other, Slot.next,
    image_seq, Letter.beats]

/-- The older slot cannot be read, and then the write fails after 20 bytes. -/
theorem updates_keep_newer_faults :
    let calls := [batchCall { readA := true }, batchCall { write := some 20 }]
    (runLog (setStep fun _ => none) updatedBoard calls).2.length = 2 ∧
    ∀ log ∈ (runLog (setStep fun _ => none) updatedBoard calls).2, UpdateKept (fun _ => none) log := by
  refine ⟨rfl, (updates_keep_newer (fun _ => none) updatedBoard _).2 ⟨⟨by decide, ?_⟩, ?_⟩⟩
  · intro letter active
    rw [updatedBoard_active] at active
    cases active
    refine ⟨rfl, ?_, .inr (by decide +kernel)⟩
    simp [updatedBoard, Eeprom.slot, image_seq]
  · rw [setStep, batchCall, renewedBoard_result]
    refine ⟨⟨by decide, fun letter active => ?_⟩, trivial⟩
    rw [renewedBoard_active] at active
    cases active
    refine ⟨rfl, ?_, .inr (by decide +kernel)⟩
    simp [renewedBoard, updatedBoard, Eeprom.slot, Eeprom.write, Slot.next, image_seq]

def revertedBoard : Eeprom := updatedBoard.write .b (updatedBoard.a.next .batch batchRaw)

theorem revertedBoard_result :
    setField (fun _ => none) updatedBoard .batch [0x31] { readB := true } =
      (revertedBoard, .done) := by
  have valid : updatedBoard.a.valid = true := image_valid _ _
  have accepted : encodeField (fun _ => none) [0x31] .batch = .ok batchRaw := rfl
  exact setField_written (readActive_unread rfl rfl valid) accepted rfl rfl

theorem revertedBoard_active : readActive revertedBoard false false = .ok .b := by
  rw [readActive_of_valid (e := revertedBoard) .a (image_valid _ _)]
  simp [revertedBoard, updatedBoard, Eeprom.slot, Eeprom.write, Letter.other, Slot.next,
    image_valid, image_seq, Letter.beats]

/-- A call that cannot read the newer slot writes the older record over it. -/
theorem update_from_older_slot :
    setField (fun _ => none) updatedBoard .batch [0x31] { readB := true } =
      (revertedBoard, .done) ∧
    readTexts updatedBoard .sn = [0x42] ∧ readTexts revertedBoard .sn = [0x41] ∧
    ¬ UpdateKept (fun _ => none)
      ⟨updatedBoard, batchCall { readB := true }, revertedBoard, .done⟩ := by
  have before : readTexts updatedBoard .sn = [0x42] := by
    rw [readTexts, readAll_of_active updatedBoard_active]
    decide +kernel
  have after : readTexts revertedBoard .sn = [0x41] := by
    rw [readTexts, readAll_of_active revertedBoard_active]
    decide +kernel
  refine ⟨revertedBoard_result, before, after, fun kept => ?_⟩
  obtain ⟨info, found, texts⟩ := kept.1 rfl
  have found : readAll revertedBoard = .ok info := found
  have other := congrFun texts .sn
  rw [Function.update_of_ne (by decide), before] at other
  rw [readTexts, found] at after
  exact absurd (other.symm.trans after) (by decide)

end NeoRuntime.Hal
