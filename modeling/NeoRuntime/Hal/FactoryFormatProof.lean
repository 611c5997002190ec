import NeoRuntime.Hal.FactoryFormat

/-!
# Power loss while the factory record is written

`hal_factory_format_set` writes the slot that is not active, from its first byte to its last.  Once
the CRC is written the slot counts only with its complete payload (`shownTexts_late`).  Before that
its payload and sequence number are the old ones (`shownTexts_early`), which the first five bytes of
the new header can make valid.
-/

namespace NeoRuntime.Hal

/-! ## Torn slots -/

theorem getElem?_tear (k : ℕ) (new old : Slot) (i : ℕ) :
    (tear k new old).bytes[i]? = if i < k then new.bytes[i]? else old.bytes[i]? := by
  have sizes : new.bytes.length = 128 ∧ old.bytes.length = 128 := ⟨new.size, old.size⟩
  simp only [tear, List.getElem?_append, List.getElem?_take, List.getElem?_drop, List.length_take]
  split_ifs with inside before before
  · rfl
  · omega
  · rw [List.getElem?_eq_none (by omega), List.getElem?_eq_none (by omega)]
  · by_cases short : k ≤ 128
    · congr 1
      omega
    · rw [List.getElem?_eq_none (by omega), List.getElem?_eq_none (by omega)]

theorem getD_tear (k : ℕ) (new old : Slot) (i : ℕ) : (tear k new old).bytes.getD i 0 =
      if i < k then new.bytes.getD i 0 else old.bytes.getD i 0 := by
  simp only [List.getD_eq_getElem?_getD, getElem?_tear]
  split_ifs <;> rfl

theorem slice_tear_written {k off len : ℕ} (within : off + len ≤ k) (new old : Slot) :
    (tear k new old).slice off len = new.slice off len := by
  apply List.ext_getElem?
  intro i
  simp only [Slot.slice, List.getElem?_take, List.getElem?_drop, getElem?_tear]
  split_ifs <;> first | rfl | omega

theorem slice_tear_old {k off : ℕ} (past : k ≤ off) (len : ℕ) (new old : Slot) :
    (tear k new old).slice off len = old.slice off len := by
  apply List.ext_getElem?
  intro i
  simp only [Slot.slice, List.getElem?_take, List.getElem?_drop, getElem?_tear]
  split_ifs <;> first | rfl | omega

theorem getElem?_tear_payload (k : ℕ) (new old : Slot) (i : ℕ) :
    (tear k new old).payload[i]? = if 16 + i < k then new.payload[i]? else old.payload[i]? := by
  simp only [Slot.payload, Slot.slice, List.getElem?_take, List.getElem?_drop, getElem?_tear]
  split_ifs <;> rfl

/-! ## What a written slot says -/

section

variable (payload : Payload) (seq : UInt32)

theorem image_magic : (image payload seq).slice 0 4 = magic := by
  simp [image, Slot.slice, header, magic]

theorem image_version : (image payload seq).bytes.getD 4 0 = 1 := by
  simp [image, header, magic]

theorem image_flags : (image payload seq).flags = newFlags payload := by
  simp [image, Slot.flags, header, magic]

theorem image_crc : (image payload seq).crc = crc16CcittFalse payload.1 := by
  simp [image, Slot.crc, Slot.slice, header, magic, readLe16_le16]

theorem image_seq : (image payload seq).seq = seq := by
  simp [image, Slot.seq, Slot.slice, header, magic, readLe32_le32]

theorem image_payload : (image payload seq).payload = payload.1 := by
  rw [Slot.payload, Slot.slice, image, ← length_header payload seq, List.drop_left]
  exact List.take_of_length_le payload.2.le

theorem image_valid : (image payload seq).valid = true := by
  rw [Slot.valid, image_magic, image_version, image_crc, image_payload]
  simp

end

/-! ## Which slot is active -/

/-- The slot `letter` with the sequence number `seq` comes before the other one with `seq'`. -/
def Letter.beats : Letter → UInt32 → UInt32 → Bool
  | .a, seq, seq' => seq' ≤ seq
  | .b, seq, seq' => seq' < seq

@[simp] theorem Eeprom.slot_write (e : Eeprom) (letter : Letter) (s : Slot) :
    (e.write letter s).slot letter = s := by
  cases letter <;> rfl

@[simp] theorem Eeprom.slot_write_other (e : Eeprom) (letter : Letter) (s : Slot) :
    (e.write letter.other s).slot letter = e.slot letter := by
  cases letter <;> rfl

variable {e : Eeprom} {field : FactoryField}

theorem readActive_of_valid (letter : Letter) (valid : (e.slot letter).valid = true) :
    readActive e false false = .ok
      (if (e.slot letter.other).valid && letter.other.beats (e.slot letter.other).seq
        (e.slot letter).seq then letter.other else letter) := by
  cases letter with
  | a =>
    have valid : e.a.valid = true := valid
    by_cases other : e.b.valid = true
    · by_cases newer : e.b.seq ≤ e.a.seq
      · simp [readActive, Eeprom.slot, Letter.other, Letter.beats, valid, other, newer,
          UInt32.not_lt.2 newer]
      · simp [readActive, Eeprom.slot, Letter.other, Letter.beats, valid, other, newer,
          UInt32.not_le.1 newer]
    · simp [readActive, Eeprom.slot, Letter.other, valid, other]
  | b =>
    have valid : e.b.valid = true := valid
    by_cases other : e.a.valid = true <;>
      simp [readActive, Eeprom.slot, Letter.other, Letter.beats, valid, other]

theorem readActive_valid {failA failB : Bool} {letter : Letter}
    (found : readActive e failA failB = .ok letter) : (e.slot letter).valid = true := by
  unfold readActive at found
  dsimp only at found
  split_ifs at found with _ both _ onlyA onlyB <;> cases found <;>
    simp_all [Eeprom.slot]

/-! ## Fields of a payload -/

variable (payload : Payload)

theorem getElem?_replaceField (field : FactoryField) (raw : FieldRaw field) (i : ℕ) :
    (replaceField payload field raw).1[i]? =
      if i < field.off - 16 then payload.1[i]?
      else if i < field.off - 16 + field.len then raw.1[i - (field.off - 16)]?
      else payload.1[i]? := by
  have size := payload.2
  have rawSize := raw.2
  have inside : field.off - 16 ≤ 112 := by cases field <;> decide
  simp only [replaceField, List.getElem?_append, List.getElem?_take, List.getElem?_drop,
    List.length_append, List.length_take, size, rawSize, min_eq_left inside]
  split_ifs <;> first | rfl | omega | (congr 1; omega)

theorem fieldBytes_replaceField (field : FactoryField) (raw : FieldRaw field) :
    fieldBytes (replaceField payload field raw).1 field = raw.1 := by
  have rawSize := raw.2
  apply List.ext_getElem?
  intro i
  simp only [fieldBytes, List.getElem?_take, List.getElem?_drop, getElem?_replaceField]
  split_ifs
  · omega
  · congr 1
    omega
  · omega
  · rw [List.getElem?_eq_none (by omega)]

theorem fieldBytes_replaceField_of_ne {field' : FactoryField}
    (ne : field' ≠ field) (raw : FieldRaw field) :
    fieldBytes (replaceField payload field raw).1 field' = fieldBytes payload.1 field' := by
  have apart : field'.off - 16 + field'.len ≤ field.off - 16 ∨
      field.off - 16 + field.len ≤ field'.off - 16 := by
    cases field <;> cases field' <;> first | decide | exact absurd rfl ne
  apply List.ext_getElem?
  intro i
  simp only [fieldBytes, List.getElem?_take, List.getElem?_drop, getElem?_replaceField]
  split_ifs <;> first | rfl | omega

/-- The text of an address, which is empty when its first byte is 0xFF. -/
def addressText (mac : List UInt8) : List UInt8 :=
  if mac.getD 0 0 ≠ 0xFF then decodeMac mac else []

def storedText : (field : FactoryField) → List UInt8 → List UInt8
  | .mac, raw => addressText raw
  | field, raw => decodeAscii raw (field.len + 1)

theorem getD_fieldBytes_mac : (fieldBytes payload.1 .mac).getD 0 0 = payload.1.getD 0 0 := by
  simp [fieldBytes, FactoryField.off, FactoryField.len]

theorem fieldText_newFlags (field : FactoryField) :
    fieldText (newFlags payload) payload.1 field = storedText field (fieldBytes payload.1 field) := by
  cases field with
  | mac =>
    rw [fieldText, storedText, addressText, getD_fieldBytes_mac, newFlags]
    by_cases blank : payload.1.getD 0 0 = 0xFF
    · rw [if_neg (not_not.2 blank), if_neg (not_not.2 blank), if_neg (by decide)]
    · rw [if_pos blank, if_pos blank, if_pos (by decide)]
  | _ => rfl

theorem fieldText_replaceField (field : FactoryField) (raw : FieldRaw field) :
    fieldText (newFlags (replaceField payload field raw)) (replaceField payload field raw).1 =
      Function.update (fieldText (newFlags payload) payload.1) field (storedText field raw.1) := by
  funext field'
  rw [fieldText_newFlags]
  by_cases same : field' = field
  · subst same
    rw [Function.update_self, fieldBytes_replaceField]
  · rw [Function.update_of_ne same, fieldBytes_replaceField_of_ne payload same, fieldText_newFlags]

variable (s : Slot)

/-- The flags say that there is an address just when its first byte is not 0xFF. -/
def Slot.flagsAgree : Prop :=
  s.flags &&& flagMacValid ≠ 0 ↔ s.payload.getD 0 0 ≠ 0xFF

instance (s : Slot) : Decidable s.flagsAgree := inferInstanceAs (Decidable (_ ↔ _))

theorem decodeMac_ne_nil {mac : List UInt8} (some : mac ≠ []) : decodeMac mac ≠ [] := by
  obtain ⟨first, rest, rfl⟩ := List.exists_cons_of_ne_nil some
  cases rest <;> simp [decodeMac, hexByte, List.intercalate]

theorem fieldBytes_mac_ne_nil : fieldBytes payload.1 .mac ≠ [] := by
  rw [← List.length_pos_iff]
  simp [fieldBytes, FactoryField.off, FactoryField.len, payload.2]

theorem flagsAgree_iff :
    s.flagsAgree ↔ fieldText (newFlags s.payloadOf) s.payload .mac = s.texts .mac := by
  have some := decodeMac_ne_nil (fieldBytes_mac_ne_nil s.payloadOf)
  have first := getD_fieldBytes_mac s.payloadOf
  rw [show fieldText (newFlags s.payloadOf) s.payload .mac = _ from
    fieldText_newFlags s.payloadOf .mac]
  simp only [Slot.flagsAgree, Slot.texts, storedText, addressText, fieldText, first]
  simp only [Slot.payloadOf] at some ⊢
  by_cases written : s.payload.getD 0 0 = 0xFF <;>
    by_cases flagged : s.flags &&& flagMacValid = 0 <;>
    simp [flagged, some, Ne.symm some]

theorem texts_eq_of_flagsAgree {s : Slot} (agree : s.flagsAgree) :
    fieldText (newFlags s.payloadOf) s.payload = s.texts := by
  funext field
  cases field with
  | mac => exact (flagsAgree_iff s).1 agree
  | _ => rfl

/-! ## Values -/

section

variable (parseMac : List UInt8 → Option (Vector UInt8 6))

def givenText (value : List UInt8) : FactoryField → List UInt8
  | .mac => ((parseMac value).map fun mac => decodeMac mac.toList).getD []
  | _ => value

/-- What is left of a value: 0xFF at the end counts as filler, at the start of an address as none.
-/
def keptText (value : List UInt8) : FactoryField → List UInt8
  | .mac => ((parseMac value).map fun mac => addressText mac.toList).getD []
  | _ => value.rdropWhile isFiller

end

theorem rdropWhile_filler (value : List UInt8) (n : ℕ) :
    (value ++ List.replicate n 0xFF).rdropWhile isFiller = value.rdropWhile isFiller := by
  rw [List.rdropWhile, List.reverse_append, List.reverse_replicate,
    List.dropWhile_append_of_pos]
  · rfl
  · intro b mem
    rw [List.eq_of_mem_replicate mem]
    rfl

theorem encodeAscii_stored {value : List UInt8} {raw : FieldRaw field}
    (accepted : encodeAscii field value = .ok raw) :
    decodeAscii raw.1 (field.len + 1) = value.rdropWhile isFiller := by
  unfold encodeAscii at accepted
  split_ifs at accepted with fits
  cases accepted
  have short := (List.rdropWhile_prefix isFiller value).length_le
  rw [decodeAscii, rdropWhile_filler, List.take_of_length_le (by omega)]

theorem encodeField_stored {parseMac : List UInt8 → Option (Vector UInt8 6)} {value : List UInt8}
    {raw : FieldRaw field}
    (accepted : encodeField parseMac value field = .ok raw) :
    storedText field raw.1 = keptText parseMac value field := by
  cases field with
  | mac =>
    rw [encodeField] at accepted
    rw [keptText, storedText]
    cases parsed : parseMac value with
    | none =>
      rw [parsed] at accepted
      cases accepted
    | some mac =>
      rw [parsed] at accepted
      cases accepted
      rfl
  | _ => exact encodeAscii_stored accepted

/-! ## A torn write of the other slot -/

variable (raw : FieldRaw field)

/-- The texts of a slot that a change of `field` writes. -/
theorem next_texts : (s.next field raw).texts =
      Function.update (fieldText (newFlags s.payloadOf) s.payload) field (storedText field raw.1) := by
  rw [Slot.texts, Slot.next, image_flags, image_payload, fieldText_replaceField]
  rfl

theorem next_texts_of_agree {s : Slot} (raw : FieldRaw field)
    (flags : field = .mac ∨ s.flagsAgree) :
    (s.next field raw).texts = Function.update s.texts field (storedText field raw.1) := by
  rw [next_texts]
  rcases flags with rfl | agree
  · funext field'
    cases field' <;> rfl
  · rw [texts_eq_of_flagsAgree agree]

/-- The texts are those from before, or those with the field changed. -/
def OldOrNew (old : FactoryTexts) (field : FactoryField) (given : List UInt8)
    (texts : FactoryTexts) : Prop :=
  texts = old ∨ texts = Function.update old field given

theorem next_oldOrNew_iff (given : List UInt8) :
    OldOrNew s.texts field given (s.next field raw).texts ↔
      (field = .mac ∨ s.flagsAgree) ∧
        (storedText field raw.1 = given ∨ storedText field raw.1 = s.texts field) := by
  constructor
  · rw [next_texts]
    intro shown
    refine ⟨?_, ?_⟩
    · by_cases mac : field = .mac
      · exact .inl mac
      · have kept : fieldText (newFlags s.payloadOf) s.payload .mac = s.texts .mac := by
          rcases shown with shown | shown
          · simpa [Function.update_of_ne (Ne.symm mac)] using congrFun shown .mac
          · simpa [Function.update_of_ne (Ne.symm mac)] using congrFun shown .mac
        exact .inr ((flagsAgree_iff s).2 kept)
    · rcases shown with shown | shown
      · exact .inr (by simpa using congrFun shown field)
      · exact .inl (by simpa using congrFun shown field)
  · rintro ⟨flags, value⟩
    rw [next_texts_of_agree raw flags]
    rcases value with given | same
    · exact .inr (by rw [given])
    · exact .inl (by rw [same, Function.update_eq_self])

theorem next_beats (letter : Letter)
    (room : s.seq.toNat < 2 ^ 32 - 1) : letter.beats (s.next field raw).seq s.seq = true := by
  have later : s.seq < s.seq + 1 := by
    rw [UInt32.lt_iff_toNat_lt, UInt32.toNat_add, UInt32.toNat_one]
    omega
  rw [Slot.next, image_seq]
  cases letter with
  | a => exact decide_eq_true (UInt32.le_of_lt later)
  | b => exact decide_eq_true later

/-- The payloads of the active slot and of the other one at every moment of the write. -/
def Occurs (active new old : Slot) (payload : List UInt8) : Prop :=
  payload = active.payload ∨ ∃ k, payload = (tear k new old).payload

/-- No two payloads that occur have the same CRC. -/
def CollisionFree (active new old : Slot) : Prop :=
  ∀ p q, Occurs active new old p → Occurs active new old q →
    crc16CcittFalse p = crc16CcittFalse q → p = q

section

variable {active new old : Slot} {k : ℕ}

theorem tear_all (all : 128 ≤ k) : tear k new old = new := by
  have size := new.size
  have size' := old.size
  simp only [tear]
  congr 1
  rw [List.take_of_length_le (by omega), List.drop_of_length_le (by omega), List.append_nil]

theorem tear_texts_of_valid {payload : Payload} {seq : UInt32} (written : 8 ≤ k)
    (noCollision : CollisionFree active (image payload seq) old)
    (valid : (tear k (image payload seq) old).valid = true) :
    (tear k (image payload seq) old).texts = (image payload seq).texts := by
  have flags : (tear k (image payload seq) old).flags = (image payload seq).flags := by
    rw [Slot.flags, getD_tear, if_pos (by omega)]
    rfl
  have crc : (tear k (image payload seq) old).crc = (image payload seq).crc := by
    rw [Slot.crc, slice_tear_written (by omega)]
    rfl
  have same : (tear k (image payload seq) old).payload = (image payload seq).payload := by
    apply noCollision _ _ (.inr ⟨k, rfl⟩) (.inr ⟨128, by rw [tear_all le_rfl]⟩)
    simp only [Slot.valid, Bool.and_eq_true, beq_iff_eq] at valid
    rw [← valid.2, crc, image_crc, image_payload]
  rw [Slot.texts, Slot.texts, flags, same]

theorem tear_payload (header : k ≤ 16) : (tear k new old).payload = old.payload :=
  slice_tear_old header 112 new old

theorem tear_seq (header : k ≤ 8) : (tear k new old).seq = old.seq := by
  rw [Slot.seq, slice_tear_old header]
  rfl

theorem tear_crc (header : k ≤ 6) : (tear k new old).crc = old.crc := by
  rw [Slot.crc, slice_tear_old header]
  rfl

theorem tear_flags (k : ℕ) : (tear k new old).flags = if 5 < k then new.flags else old.flags :=
  getD_tear k new old 5

/-- The CRC field when the write of a payload stops between its two bytes. -/
def seamCrc (old : Slot) : UInt16 :=
  readLe16 [(le16 (crc16CcittFalse payload.1)).getD 0 0, old.bytes.getD 7 0]

theorem slice_two {off : ℕ} (inside : off + 2 ≤ 128) :
    s.slice off 2 = [s.bytes.getD off 0, s.bytes.getD (off + 1) 0] := by
  have size := s.size
  rw [Slot.slice, List.drop_eq_getElem_cons (by omega), List.take_succ_cons,
    List.drop_eq_getElem_cons (by omega), List.take_succ_cons, List.take_zero]
  simp [List.getD_eq_getElem?_getD, size, (by omega : off < 128), (by omega : off + 1 < 128)]

theorem tear_crc_seam (seq : UInt32) :
    (tear 7 (image payload seq) old).crc = seamCrc payload old := by
  have low : (image payload seq).bytes.getD 6 0 = (le16 (crc16CcittFalse payload.1)).getD 0 0 := by
    simp [image, header, magic, le16, leBytes]
  rw [Slot.crc, slice_two _ (by omega), getD_tear, getD_tear, if_pos (by omega), if_neg (by omega),
    low]
  rfl

theorem valid_iff : s.valid = true ↔
      (s.slice 0 4 = magic ∧ s.bytes.getD 4 0 = 1) ∧ s.crc = crc16CcittFalse s.payload := by
  simp only [Slot.valid, Bool.and_eq_true, beq_iff_eq]

theorem tear_valid_iff {payload : Payload} {seq : UInt32} (written : 5 ≤ k) :
    (tear k (image payload seq) old).valid = true ↔
      (tear k (image payload seq) old).crc =
        crc16CcittFalse (tear k (image payload seq) old).payload := by
  rw [valid_iff, slice_tear_written (by omega), image_magic, getD_tear, if_pos (by omega),
    image_version]
  simp

end

/-! ## The record after a power loss -/

def shownTexts (active : Slot) (letter : Letter) (s : Slot) : FactoryTexts :=
  if s.valid && letter.other.beats s.seq active.seq then s.texts else active.texts

theorem readAll_write_other (letter : Letter) (valid : (e.slot letter).valid = true) (s : Slot) :
    ∃ info, readAll (e.write letter.other s) = .ok info ∧
      info.texts = shownTexts (e.slot letter) letter s := by
  have active := readActive_of_valid (e := e.write letter.other s) letter (by simpa)
  rw [Eeprom.slot_write, Eeprom.slot_write_other] at active
  rw [readAll, active]
  refine ⟨_, rfl, ?_⟩
  rw [shownTexts]
  split_ifs <;> simp

section

variable (parseMac : List UInt8 → Option (Vector UInt8 6)) (e : Eeprom) (letter : Letter)
  (field : FactoryField) (value : List UInt8) (raw : FieldRaw field)

/-- The flags of the active slot agree with its address, unless that is set; the field can hold the
value; and if the other slot is later and gets valid as soon as the new header begins, its texts are
harmless. -/
structure RecordSafe : Prop where
  flags : field = .mac ∨ (e.slot letter).flagsAgree
  representable : keptText parseMac value field = givenText parseMac value field ∨
    keptText parseMac value field = (e.slot letter).texts field
  oldHeader :
    letter.other.beats (e.slot letter.other).seq (e.slot letter).seq = true →
    (e.slot letter.other).crc = crc16CcittFalse (e.slot letter.other).payload →
    OldOrNew (e.slot letter).texts field (givenText parseMac value field)
      (e.slot letter.other).texts
  newHeader :
    letter.other.beats (e.slot letter.other).seq (e.slot letter).seq = true →
    ((e.slot letter.other).crc = crc16CcittFalse (e.slot letter.other).payload ∨
      seamCrc (replaceField (e.slot letter).payloadOf field raw) (e.slot letter.other) =
        crc16CcittFalse (e.slot letter.other).payload) →
    OldOrNew (e.slot letter).texts field (givenText parseMac value field)
      (fieldText (newFlags (replaceField (e.slot letter).payloadOf field raw))
        (e.slot letter.other).payload)

end

section

variable {active old : Slot} {letter : Letter} {field : FactoryField} {raw : FieldRaw field}
  {given : List UInt8}

theorem shownTexts_complete (room : active.seq.toNat < 2 ^ 32 - 1) :
    shownTexts active letter (active.next field raw) = (active.next field raw).texts := by
  have valid : (active.next field raw).valid = true := image_valid _ _
  rw [shownTexts, valid, next_beats active raw letter.other room]
  rfl

theorem shownTexts_late {k : ℕ} (written : 8 ≤ k)
    (noCollision : CollisionFree active (active.next field raw) old)
    (complete : OldOrNew active.texts field given (active.next field raw).texts) :
    OldOrNew active.texts field given
      (shownTexts active letter (tear k (active.next field raw) old)) := by
  rw [shownTexts]
  split_ifs with read
  · rw [Bool.and_eq_true] at read
    rw [show (tear k (active.next field raw) old).texts = (active.next field raw).texts from
      tear_texts_of_valid written noCollision read.1]
    exact complete
  · exact .inl rfl

theorem torn_texts {k : ℕ} (header : k ≤ 16) : (tear k (active.next field raw) old).texts =
      if 5 < k then fieldText (newFlags (replaceField active.payloadOf field raw)) old.payload
      else old.texts := by
  rw [Slot.texts, tear_flags, tear_payload header, Slot.next, image_flags]
  split_ifs <;> rfl

theorem shownTexts_early {k : ℕ} (header : k ≤ 7)
    (oldHeader : letter.other.beats old.seq active.seq = true →
      old.crc = crc16CcittFalse old.payload → OldOrNew active.texts field given old.texts)
    (newHeader : letter.other.beats old.seq active.seq = true →
      (old.crc = crc16CcittFalse old.payload ∨
        seamCrc (replaceField active.payloadOf field raw) old = crc16CcittFalse old.payload) →
      OldOrNew active.texts field given
        (fieldText (newFlags (replaceField active.payloadOf field raw)) old.payload)) :
    OldOrNew active.texts field given
      (shownTexts active letter (tear k (active.next field raw) old)) := by
  rw [shownTexts, tear_seq (by omega)]
  split_ifs with read
  · rw [Bool.and_eq_true, valid_iff, tear_payload (by omega)] at read
    obtain ⟨⟨-, crc⟩, later⟩ := read
    rw [torn_texts (by omega)]
    by_cases seam : k = 7
    · subst seam
      rw [Slot.next, tear_crc_seam] at crc
      exact newHeader later (.inr crc)
    · rw [tear_crc (by omega)] at crc
      split_ifs
      · exact newHeader later (.inl crc)
      · exact oldHeader later crc
  · exact .inl rfl

theorem shownTexts_at {k : ℕ} (started : 5 ≤ k) (header : k ≤ 7)
    (later : letter.other.beats old.seq active.seq = true)
    (crc : (tear k (active.next field raw) old).crc = crc16CcittFalse old.payload) :
    shownTexts active letter (tear k (active.next field raw) old) =
      if 5 < k then fieldText (newFlags (replaceField active.payloadOf field raw)) old.payload
      else old.texts := by
  have valid : (tear k (active.next field raw) old).valid = true := by
    rw [Slot.next, tear_valid_iff started, tear_payload (by omega)]
    exact crc
  rw [shownTexts, valid, tear_seq (by omega), later, Bool.and_self, if_pos rfl,
    torn_texts (by omega)]

end

theorem setField_torn {parseMac : List UInt8 → Option (Vector UInt8 6)}
    {letter : Letter} {value : List UInt8} {raw : FieldRaw field}
    (active : readActive e false false = .ok letter)
    (accepted : encodeField parseMac value field = .ok raw) (k : ℕ) :
    (setField parseMac e field value { write := some k }).1 =
      e.write letter.other (tear k ((e.slot letter).next field raw) (e.slot letter.other)) := by
  simp only [setField, accepted, active, writeSlot]

/-- Wherever the write stops, the record is the old one or has the field changed, just when the
state and the value are safe. -/
theorem torn_set_keeps_record_iff (parseMac : List UInt8 → Option (Vector UInt8 6)) (e : Eeprom)
    (before : FactoryInfo) (field : FactoryField) (value : List UInt8) (raw : FieldRaw field)
    (found : readAll e = .ok before) (room : before.seq.toNat < 2 ^ 32 - 2)
    (accepted : encodeField parseMac value field = .ok raw)
    (noCollision : CollisionFree (e.slot before.activeSlot)
      ((e.slot before.activeSlot).next field raw) (e.slot before.activeSlot.other)) :
    (∀ k, ∃ info, readAll (setField parseMac e field value { write := some k }).1 = .ok info ∧
      OldOrNew before.texts field (givenText parseMac value field) info.texts) ↔
    RecordSafe parseMac e before.activeSlot field value raw := by
  obtain ⟨letter, active, rfl⟩ : ∃ letter, readActive e false false = .ok letter ∧
      before = ⟨(e.slot letter).texts, letter, (e.slot letter).seq⟩ := by
    rw [readAll] at found
    cases active : readActive e false false with
    | error err =>
      rw [active] at found
      cases found
    | ok letter =>
      rw [active] at found
      cases found
      exact ⟨letter, rfl, rfl⟩
  dsimp only at room noCollision ⊢
  have valid := readActive_valid active
  have shown (k : ℕ) : (∃ info,
      readAll (setField parseMac e field value { write := some k }).1 = .ok info ∧
        OldOrNew (e.slot letter).texts field (givenText parseMac value field) info.texts) ↔
      OldOrNew (e.slot letter).texts field (givenText parseMac value field)
        (shownTexts (e.slot letter) letter
          (tear k ((e.slot letter).next field raw) (e.slot letter.other))) := by
    obtain ⟨info, read, texts⟩ := readAll_write_other letter valid
      (tear k ((e.slot letter).next field raw) (e.slot letter.other))
    rw [setField_torn active accepted, read, ← texts]
    simp
  simp only [shown]
  have complete := next_oldOrNew_iff (e.slot letter) raw (givenText parseMac value field)
  rw [encodeField_stored accepted] at complete
  constructor
  · intro every
    have last := every 128
    rw [tear_all le_rfl, shownTexts_complete (by omega)] at last
    obtain ⟨flags, representable⟩ := complete.1 last
    refine ⟨flags, representable, ?_, ?_⟩
    · intro later crc
      have five := every 5
      rwa [shownTexts_at le_rfl (by omega) later (by rwa [tear_crc (by omega)])] at five
    · rintro later (crc | crc)
      · have six := every 6
        rwa [shownTexts_at (by omega) (by omega) later (by rwa [tear_crc (by omega)])] at six
      · have seven := every 7
        rwa [shownTexts_at (by omega) le_rfl later (by rwa [Slot.next, tear_crc_seam])] at seven
  · intro safe k
    by_cases written : 8 ≤ k
    · exact shownTexts_late written noCollision (complete.2 ⟨safe.flags, safe.representable⟩)
    · exact shownTexts_early (by omega) safe.oldHeader safe.newHeader

theorem collisionFree_of_mem {active new old : Slot} (payloads : List (List UInt8))
    (activeMem : active.payload ∈ payloads)
    (tornMem : ∀ k < 129, (tear k new old).payload ∈ payloads)
    (distinct : (payloads.map crc16CcittFalse).Nodup) : CollisionFree active new old := by
  have mem {p : List UInt8} (occurs : Occurs active new old p) : p ∈ payloads := by
    rcases occurs with rfl | ⟨k, rfl⟩
    · exact activeMem
    · by_cases inside : k < 129
      · exact tornMem k inside
      · have complete := tornMem 128 (by omega)
        rw [tear_all le_rfl] at complete
        rwa [tear_all (by omega)]
  intro p q occursP occursQ crc
  exact List.inj_on_of_nodup_map distinct (mem occursP) (mem occursQ) crc

theorem readAll_of_active {letter : Letter} (active : readActive e false false = .ok letter) :
    readAll e = .ok ⟨(e.slot letter).texts, letter, (e.slot letter).seq⟩ := by
  rw [readAll, active]

/-! ## Two boards -/

def samplePayload (sn : UInt8) : Payload :=
  ⟨List.replicate 8 0xFF ++ sn :: List.replicate 103 0xFF, rfl⟩

def sampleRaw : FieldRaw .sn := ⟨0x43 :: List.replicate 31 0xFF, rfl⟩

def blankSlot : Slot := ⟨List.replicate 128 0xFF, rfl⟩

def wornSlot : Slot := tear 1 blankSlot (image (samplePayload 0x42) 9)

def soundBoard : Eeprom := ⟨image (samplePayload 0x41) 1, image (samplePayload 0x42) 0⟩

def wornBoard : Eeprom := ⟨image (samplePayload 0x41) 1, wornSlot⟩

theorem samplePayload_crc_ne {a b : UInt8} (ne : a ≠ b) :
    crc16CcittFalse (samplePayload a).1 ≠ crc16CcittFalse (samplePayload b).1 :=
  crc16_ne_of_byte ne 0xFFFF (List.replicate 8 0xFF) (List.replicate 103 0xFF)

theorem getElem?_samplePayload (a b : UInt8) {i : ℕ} (ne : i ≠ 8) :
    (samplePayload a).1[i]? = (samplePayload b).1[i]? := by
  simp only [samplePayload, List.getElem?_append, List.length_replicate]
  split_ifs with before
  · rfl
  · obtain ⟨n, rfl⟩ : ∃ n, i = 9 + n := ⟨i - 9, by omega⟩
    rw [show 9 + n - 8 = n + 1 by omega, List.getElem?_cons_succ, List.getElem?_cons_succ]

theorem sample_torn {new old : Slot} {a b : UInt8} (newPayload : new.payload = (samplePayload a).1)
    (oldPayload : old.payload = (samplePayload b).1) (k : ℕ) :
    (tear k new old).payload = (samplePayload (if 24 < k then a else b)).1 := by
  apply List.ext_getElem?
  intro i
  rw [getElem?_tear_payload, newPayload, oldPayload]
  by_cases sn : i = 8
  · subst sn
    split_ifs <;> rfl
  · split_ifs <;> exact getElem?_samplePayload _ _ sn

theorem sample_collisionFree {old : Slot} (oldPayload : old.payload = (samplePayload 0x42).1) :
    CollisionFree soundBoard.a (soundBoard.a.next .sn sampleRaw) old := by
  have newPayload : (soundBoard.a.next .sn sampleRaw).payload = (samplePayload 0x43).1 := by
    rw [Slot.next, image_payload]
    decide +kernel
  refine collisionFree_of_mem
    [(samplePayload 0x41).1, (samplePayload 0x42).1, (samplePayload 0x43).1] ?_ ?_ ?_
  · rw [soundBoard, image_payload]
    exact List.mem_cons_self
  · intro k
    rw [sample_torn newPayload oldPayload]
    split_ifs <;> simp
  · have ab : (0x41 : UInt8) ≠ 0x42 := by decide
    have ac : (0x41 : UInt8) ≠ 0x43 := by decide
    have bc : (0x42 : UInt8) ≠ 0x43 := by decide
    simp [samplePayload_crc_ne ab, samplePayload_crc_ne ac, samplePayload_crc_ne bc]

theorem soundBoard_collisionFree :
    CollisionFree soundBoard.a (soundBoard.a.next .sn sampleRaw) soundBoard.b :=
  sample_collisionFree (image_payload _ _)

theorem wornSlot_payload : wornSlot.payload = (samplePayload 0x42).1 := by
  rw [wornSlot, Slot.payload, slice_tear_old (by omega)]
  exact image_payload _ _

theorem wornBoard_collisionFree :
    CollisionFree wornBoard.a (wornBoard.a.next .sn sampleRaw) wornBoard.b :=
  sample_collisionFree wornSlot_payload

theorem wornSlot_seq : wornSlot.seq = 9 := by
  rw [wornSlot, Slot.seq, slice_tear_old (by omega)]
  exact image_seq _ _

theorem wornSlot_crc : wornSlot.crc = crc16CcittFalse wornSlot.payload := by
  rw [wornSlot_payload, wornSlot, Slot.crc, slice_tear_old (by omega)]
  exact image_crc _ 9

theorem soundBoard_active : readActive soundBoard false false = .ok .a := by
  have active := readActive_of_valid (e := soundBoard) .a (image_valid _ _)
  rw [active]
  simp [soundBoard, Eeprom.slot, Letter.other, image_seq, Letter.beats]

theorem wornBoard_active : readActive wornBoard false false = .ok .a := by
  have active := readActive_of_valid (e := wornBoard) .a (image_valid _ _)
  have invalid : (wornBoard.slot Letter.a.other).valid = false := by decide +kernel
  rw [active, invalid]
  rfl

theorem torn_set_keeps_record_iff_soundBoard : (∀ k, ∃ info, readAll
      (setField (fun _ => none) soundBoard .sn [0x43] { write := some k }).1 = .ok info ∧
      OldOrNew soundBoard.a.texts .sn [0x43] info.texts) ∧
    RecordSafe (fun _ => none) soundBoard .a .sn [0x43] sampleRaw := by
  have early : Letter.a.other.beats (soundBoard.slot Letter.a.other).seq
      (soundBoard.slot .a).seq = false := by
    simp [soundBoard, Eeprom.slot, Letter.other, image_seq, Letter.beats]
  have safe : RecordSafe (fun _ => none) soundBoard .a .sn [0x43] sampleRaw := by
    refine ⟨.inr (by decide +kernel), .inl (by decide +kernel), ?_, ?_⟩
    · intro later
      rw [early] at later
      cases later
    · intro later
      rw [early] at later
      cases later
  have room : (soundBoard.slot .a).seq.toNat < 2 ^ 32 - 2 := by
    simp [soundBoard, Eeprom.slot, image_seq]
  exact ⟨(torn_set_keeps_record_iff (fun _ => none) soundBoard _ .sn [0x43] sampleRaw
    (readAll_of_active soundBoard_active) room rfl soundBoard_collisionFree).2 safe, safe⟩

/-- A write that stops after the version shows the record of the worn slot. -/
theorem torn_header_shows_other_record :
    ∃ before after, readAll wornBoard = .ok before ∧ before.seq.toNat < 2 ^ 32 - 2 ∧
      encodeField (fun _ => none) [0x43] .sn = .ok sampleRaw ∧
      CollisionFree wornBoard.a (wornBoard.a.next .sn sampleRaw) wornBoard.b ∧
      readAll (setField (fun _ => none) wornBoard .sn [0x43] { write := some 5 }).1 = .ok after ∧
      before.texts .sn = [0x41] ∧ after.texts .sn = [0x42] ∧
      ¬ OldOrNew before.texts .sn [0x43] after.texts := by
  obtain ⟨after, read, texts⟩ := readAll_write_other (e := wornBoard) .a
    (image_valid _ _) (tear 5 ((wornBoard.slot .a).next .sn sampleRaw) wornSlot)
  have later : Letter.a.other.beats wornSlot.seq (wornBoard.slot .a).seq = true := by
    rw [wornSlot_seq]
    simp [wornBoard, Eeprom.slot, Letter.other, image_seq, Letter.beats]
  rw [shownTexts_at le_rfl (by omega) later (by rw [tear_crc (by omega), wornSlot_crc]),
    if_neg (by omega)] at texts
  have shown : after.texts .sn = [0x42] := by
    rw [texts]
    decide +kernel
  have room : (wornBoard.slot .a).seq.toNat < 2 ^ 32 - 2 := by
    simp [wornBoard, Eeprom.slot, image_seq]
  have board : (wornBoard.slot .a).texts .sn = [0x41] := by decide +kernel
  have accepted : encodeField (fun _ => none) [0x43] .sn = .ok sampleRaw := rfl
  have torn := setField_torn wornBoard_active accepted 5
  refine ⟨_, after, readAll_of_active wornBoard_active, room, accepted, wornBoard_collisionFree, ?_,
    board, shown, ?_⟩
  · rw [torn]
    exact read
  · rintro (same | same)
    · rw [same] at shown
      exact absurd (board.symm.trans shown) (by decide)
    · rw [same, Function.update_self] at shown
      exact absurd shown (by decide)

end NeoRuntime.Hal
