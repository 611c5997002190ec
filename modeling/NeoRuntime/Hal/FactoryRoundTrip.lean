import NeoRuntime.Hal.FactoryFormatRun

/-!
# Factory fields read back

`hal_factory_format_get` after `hal_factory_format_set`.  The address in the form of `decode_mac` is
parsed to the same bytes (`parseMac_decodeMac`).  A call that answers 0 may still be lost: the
record after the sequence number 0xFFFFFFFF is older than the one it replaces
(`last_sequence_keeps_old`), and a value may be cut or a slot have wrong flags
(`get_after_set_iff`).
-/

namespace NeoRuntime.Hal

/-! ## Addresses as texts -/

def isSpace (b : UInt8) : Bool := b == 0x20 || (0x09 ≤ b && b ≤ 0x0D)

def hexDigit (b : UInt8) : Option ℕ :=
  if 0x30 ≤ b ∧ b ≤ 0x39 then some (b - 0x30).toNat
  else if 0x41 ≤ b ∧ b ≤ 0x46 then some (b - 0x37).toNat
  else if 0x61 ≤ b ∧ b ≤ 0x66 then some (b - 0x57).toNat
  else none

variable (s : List UInt8)

/-- `%2x` of `sscanf`, which skips blanks and counts a sign and `0x`, and the rest of its input.  A
bare `0x` fails, as in ISO C; glibc reads it as 0. -/
def scanHex : Option (ℤ × List UInt8) :=
  match s.dropWhile isSpace with
  | [] => none
  | first :: rest =>
    if first = 0x2B ∨ first = 0x2D then
      match rest with
      | [] => none
      | second :: rest =>
        (hexDigit second).map fun n => (if first = 0x2D then -n else n, rest)
    else
      match hexDigit first, rest with
      | none, _ => none
      | some high, [] => some (high, [])
      | some high, second :: rest =>
        match hexDigit second with
        | some low => some (16 * high + low, rest)
        | none =>
          if first = 0x30 ∧ (second = 0x78 ∨ second = 0x58) then none
          else some (high, second :: rest)

/-- A number of the format and the check that it is a byte. -/
def scanByte : Option (UInt8 × List UInt8) :=
  (scanHex s).bind fun (n, rest) =>
    if 0 ≤ n ∧ n ≤ 255 then some (UInt8.ofNat n.toNat, rest) else none

/-- A number with the colon before it. -/
def scanNext : Option (UInt8 × List UInt8) :=
  match s with
  | 0x3A :: rest => scanByte rest
  | _ => none

/-- `parse_mac`.  What follows the sixth number is ignored. -/
def parseMac : Option (Vector UInt8 6) :=
  if s.length ≠ 17 then none
  else do
    let (b0, s) ← scanByte s
    let (b1, s) ← scanNext s
    let (b2, s) ← scanNext s
    let (b3, s) ← scanNext s
    let (b4, s) ← scanNext s
    let (b5, _) ← scanNext s
    return #v[b0, b1, b2, b3, b4, b5]

theorem hexByte_digits : ∀ b : UInt8, ∃ first second, hexByte b = [first, second] ∧
    isSpace first = false ∧ first ≠ 0x2B ∧ first ≠ 0x2D ∧ first ≠ 0 ∧ second ≠ 0 ∧
    hexDigit first = some (b / 16).toNat ∧ hexDigit second = some (b % 16).toNat := by
  have all : ∀ b : UInt8,
      let first := (hexByte b).getD 0 0
      let second := (hexByte b).getD 1 0
      isSpace first = false ∧ first ≠ 0x2B ∧ first ≠ 0x2D ∧ first ≠ 0 ∧ second ≠ 0 ∧
        hexDigit first = some (b / 16).toNat ∧ hexDigit second = some (b % 16).toNat :=
    forall_uint8 (by decide +kernel)
  exact fun b => ⟨_, _, rfl, all b⟩

theorem scanByte_hexByte (b : UInt8) (rest : List UInt8) :
    scanByte (hexByte b ++ rest) = some (b, rest) := by
  obtain ⟨first, second, digits, space, plus, minus, -, -, high, low⟩ := hexByte_digits b
  have small : b.toNat < 256 := b.toNat_lt
  have scanned : scanHex (hexByte b ++ rest) = some ((b.toNat : ℤ), rest) := by
    simp [scanHex, digits, space, plus, minus, high, low]
    omega
  rw [scanByte, scanned]
  simp
  omega

theorem scanNext_hexByte (b : UInt8) (rest : List UInt8) :
    scanNext (0x3A :: (hexByte b ++ rest)) = some (b, rest) :=
  scanByte_hexByte b rest

theorem parseMac_decodeMac (mac : Vector UInt8 6) : parseMac (decodeMac mac.toList) = some mac := by
  obtain ⟨⟨bytes⟩, size⟩ := mac
  match bytes, size with
  | [b0, b1, b2, b3, b4, b5], _ =>
    have text : decodeMac [b0, b1, b2, b3, b4, b5] =
        hexByte b0 ++ 0x3A :: (hexByte b1 ++ 0x3A :: (hexByte b2 ++ 0x3A :: (hexByte b3 ++
          0x3A :: (hexByte b4 ++ 0x3A :: (hexByte b5 ++ []))))) := by
      simp [decodeMac, List.intercalate]
    have length : (decodeMac [b0, b1, b2, b3, b4, b5]).length = 17 := by
      simp [text, hexByte]
    show parseMac (decodeMac [b0, b1, b2, b3, b4, b5]) = _
    rw [parseMac, if_neg (not_not.2 length), text]
    simp only [scanByte_hexByte, scanNext_hexByte, Option.bind_eq_bind, Option.bind_some]
    rfl

theorem decodeMac_no_nul (mac : List UInt8) : 0 ∉ decodeMac mac := by
  have digits (b : UInt8) : 0 ∉ hexByte b := by
    obtain ⟨first, second, digits, -, -, -, first_ne, second_ne, -⟩ := hexByte_digits b
    simp [digits, first_ne.symm, second_ne.symm]
  induction mac with
  | nil => simp [decodeMac]
  | cons b rest ih =>
    cases rest with
    | nil => simpa [decodeMac, List.intercalate] using digits b
    | cons next rest =>
      simp only [decodeMac, List.intercalate, List.map_cons] at ih ⊢
      simp [digits b, ih]

/-! ## Reading a field -/

/-- `hal_factory_format_get`: what it copies before the final NUL. -/
def getField (e : Eeprom) (field : FactoryField) (valueSize : ℕ) :
    Except FactoryError (List UInt8) :=
  if valueSize = 0 then .error .invalidArg
  else
    match readActive e false false with
    | .error err => .error err
    | .ok letter =>
      let s := e.slot letter
      match field with
      | .mac =>
        .ok (if s.flags &&& flagMacValid ≠ 0 then
          (decodeMac (fieldBytes s.payload .mac)).take (valueSize - 1) else [])
      | field => .ok (decodeAscii (fieldBytes s.payload field) valueSize)

theorem length_fieldBytes_le (payload : List UInt8) (field : FactoryField) :
    (fieldBytes payload field).length ≤ field.len := by
  simp [fieldBytes]

theorem getField_eq (e : Eeprom) (field : FactoryField) {valueSize : ℕ} (room : 0 < valueSize) :
    getField e field valueSize =
      (readAll e).map fun info => (info.texts field).take (valueSize - 1) := by
  rw [getField, if_neg room.ne', readAll]
  cases readActive e false false with
  | error err => rfl
  | ok letter =>
    have whole (field : FactoryField) :
        decodeAscii (fieldBytes (e.slot letter).payload field) valueSize =
          (decodeAscii (fieldBytes (e.slot letter).payload field) (field.len + 1)).take
            (valueSize - 1) := by
      have short := (List.rdropWhile_prefix isFiller
        (fieldBytes (e.slot letter).payload field)).length_le.trans (length_fieldBytes_le _ field)
      rw [decodeAscii, decodeAscii, List.take_of_length_le (i := field.len + 1 - 1) (by omega)]
    cases field with
    | mac =>
      simp only [Except.map, Slot.texts, fieldText]
      split_ifs <;> simp
    | _ => exact congrArg Except.ok (whole _)

def cString (buffer : List UInt8) : List UInt8 := buffer.takeWhile (· != 0)

theorem cString_eq {text : List UInt8} (noNul : 0 ∉ text) : cString text = text := by
  rw [cString, List.takeWhile_eq_self_iff]
  intro b mem
  exact bne_iff_ne.2 fun zero => noNul (zero ▸ mem)

theorem cString_take (text : List UInt8) (n : ℕ) : cString (text.take n) = (cString text).take n := by
  induction text generalizing n with
  | nil => simp [cString]
  | cons b rest ih =>
    cases n with
    | zero => rfl
    | succ n =>
      have ih := ih n
      simp only [cString] at ih ⊢
      by_cases zero : b = 0
      · simp [zero]
      · simp [zero, ih]

/-! ## A call and what is read after it -/

/-- The string `text` is the value, or for an address its canonical form. -/
def Denotes (field : FactoryField) (value text : List UInt8) : Prop :=
  text = givenText parseMac value field ∧ (field = .mac → parseMac text = parseMac value)

/-- A buffer with room for it receives the value of the field, and the other fields are read as
before. -/
def RoundTrip (e e' : Eeprom) (field : FactoryField) (value : List UInt8) : Prop :=
  (∃ text, Denotes field value text ∧ ∀ valueSize, text.length < valueSize →
    ∃ buffer, getField e' field valueSize = .ok buffer ∧ cString buffer = text) ∧
  ∀ field' ≠ field, ∀ valueSize, getField e' field' valueSize = getField e field' valueSize

/-- The value does not end in a filler byte, and an address does not begin with one. -/
def Holds (field : FactoryField) (value : List UInt8) : Prop :=
  match field with
  | .mac => ∀ mac, parseMac value = some mac → mac.toList.getD 0 0 ≠ 0xFF
  | _ => value.getLast? ≠ some 0xFF

/-- There is a record.  The last in sequence has the value already; for another one the field can
hold it, and the flags agree with the address unless that is replaced. -/
def Settable (e : Eeprom) (field : FactoryField) (value : List UInt8) : Prop :=
  ∃ letter, readActive e false false = .ok letter ∧
    if (e.slot letter).seq = 0xFFFFFFFF then
      cString ((e.slot letter).texts field) = givenText parseMac value field
    else Holds field value ∧ (field = .mac ∨ (e.slot letter).flagsAgree)

variable {value : List UInt8} {field : FactoryField} {raw : FieldRaw field}

theorem rdropWhile_eq_iff (noNul : 0 ∉ value) :
    value.rdropWhile isFiller = value ↔ value.getLast? ≠ some 0xFF := by
  rw [List.rdropWhile_eq_self_iff]
  constructor
  · intro kept last
    have ne : value ≠ [] := by
      rintro rfl
      simp at last
    rw [List.getLast?_eq_some_getLast ne, Option.some.injEq] at last
    exact kept ne (by rw [last]; rfl)
  · intro last ne filler
    rw [List.getLast?_eq_some_getLast ne, ne_eq, Option.some.injEq] at last
    have zero : value.getLast ne ≠ 0 := fun zero => noNul (zero ▸ List.getLast_mem ne)
    simp [isFiller, last, zero] at filler

theorem keptText_eq_iff (noNul : 0 ∉ value)
    (accepted : encodeField parseMac value field = .ok raw) :
    keptText parseMac value field = givenText parseMac value field ↔ Holds field value := by
  cases field with
  | mac =>
    rw [encodeField] at accepted
    rw [keptText, givenText, Holds]
    cases parsed : parseMac value with
    | none =>
      rw [parsed] at accepted
      cases accepted
    | some mac =>
      have some : decodeMac mac.toList ≠ [] := decodeMac_ne_nil (by
        rw [← List.length_pos_iff, mac.length_toList]
        omega)
      simp only [Option.map_some, Option.getD_some, addressText, Option.some.injEq, forall_eq']
      split_ifs with written
      · exact iff_of_true rfl written
      · exact iff_of_false some.symm written
  | _ => exact rdropWhile_eq_iff noNul

theorem keptText_no_nul (noNul : 0 ∉ value) : 0 ∉ keptText parseMac value field := by
  cases field with
  | mac =>
    rw [keptText]
    cases parseMac value with
    | none => simp
    | some mac =>
      simp only [Option.map_some, Option.getD_some, addressText]
      split_ifs
      · exact decodeMac_no_nul _
      · simp
  | _ => exact fun mem => noNul ((List.rdropWhile_prefix _ _).subset mem)

theorem denotes_given (accepted : encodeField parseMac value field = .ok raw) :
    Denotes field value (givenText parseMac value field) := by
  refine ⟨rfl, ?_⟩
  rintro rfl
  rw [encodeField] at accepted
  rw [givenText]
  cases parsed : parseMac value with
  | none =>
    rw [parsed] at accepted
    cases accepted
  | some mac => exact parseMac_decodeMac mac

/-- Two records of which the second is read after the call. -/
theorem roundTrip_iff {e e' : Eeprom} (accepted : encodeField parseMac value field = .ok raw)
    {before after : FactoryInfo} (read : readAll e = .ok before) (read' : readAll e' = .ok after) :
    RoundTrip e e' field value ↔
      cString (after.texts field) = givenText parseMac value field ∧
        ∀ field' ≠ field, after.texts field' = before.texts field' := by
  have get {valueSize : ℕ} (room : 0 < valueSize) (field' : FactoryField) :
      getField e' field' valueSize = .ok ((after.texts field').take (valueSize - 1)) := by
    rw [getField_eq e' field' room, read']
    rfl
  constructor
  · rintro ⟨⟨text, ⟨rfl, -⟩, received⟩, others⟩
    constructor
    · obtain ⟨buffer, got, string⟩ := received
        ((after.texts field).length + (givenText parseMac value field).length + 1) (by omega)
      rw [get (by omega), List.take_of_length_le (by omega)] at got
      cases got
      exact string
    · intro field' ne
      have same := others field' ne
        ((after.texts field').length + (before.texts field').length + 1)
      rw [get (by omega), getField_eq e field' (by omega), read,
        List.take_of_length_le (by omega)] at same
      simp only [Except.map, Except.ok.injEq] at same
      rw [same, List.take_of_length_le (by omega)]
  · rintro ⟨own, others⟩
    refine ⟨⟨_, denotes_given accepted, fun valueSize room => ?_⟩, fun field' ne valueSize => ?_⟩
    · refine ⟨_, get (by omega) field, ?_⟩
      rw [cString_take, own, List.take_of_length_le (by omega)]
    · obtain rfl | room := Nat.eq_zero_or_pos valueSize
      · rfl
      · rw [get room, getField_eq e field' room, read, others field' ne]
        rfl

/-- The first record of a board changes the answers for the other fields. -/
theorem not_roundTrip_of_error {e e' : Eeprom}
    {err : FactoryError} (none : readAll e = .error err) {after : FactoryInfo}
    (read' : readAll e' = .ok after) : ¬ RoundTrip e e' field value := by
  rintro ⟨-, others⟩
  obtain ⟨field', ne⟩ : ∃ field', field' ≠ field := by
    by_cases mac : field = .mac
    · exact ⟨.sn, by simp [mac]⟩
    · exact ⟨.mac, Ne.symm mac⟩
  have same := others field' ne 1
  rw [getField_eq e' field' (by omega), getField_eq e field' (by omega), none, read'] at same
  cases same

/-- After the last sequence number the new record is the older one. -/
theorem next_loses {s : Slot} (raw : FieldRaw field) (letter : Letter)
    (last : s.seq = 0xFFFFFFFF) : letter.beats (s.next field raw).seq s.seq = false := by
  rw [Slot.next, image_seq, last]
  cases letter <;> decide

theorem shownTexts_next (s : Slot) (raw : FieldRaw field) (letter : Letter) :
    shownTexts s letter (s.next field raw) =
      if s.seq = 0xFFFFFFFF then s.texts else (s.next field raw).texts := by
  split_ifs with last
  · rw [shownTexts, next_loses raw _ last, Bool.and_false]
    rfl
  · refine shownTexts_complete ?_
    have small := s.seq.toNat_lt
    have ne : s.seq.toNat ≠ 2 ^ 32 - 1 := fun eq => last (UInt32.toNat_inj.1 eq)
    omega

/-- The new record shows the value and the other texts as before. -/
theorem next_roundTrip_iff (s : Slot) (noNul : 0 ∉ value)
    (accepted : encodeField parseMac value field = .ok raw) :
    (cString ((s.next field raw).texts field) = givenText parseMac value field ∧
      ∀ field' ≠ field, (s.next field raw).texts field' = s.texts field') ↔
      Holds field value ∧ (field = .mac ∨ s.flagsAgree) := by
  have own : cString ((s.next field raw).texts field) = keptText parseMac value field := by
    rw [next_texts, Function.update_self, encodeField_stored accepted,
      cString_eq (keptText_no_nul noNul)]
  rw [own, keptText_eq_iff noNul accepted]
  refine and_congr_right fun _ => ⟨fun others => ?_, fun flags field' ne => ?_⟩
  · by_cases mac : field = .mac
    · exact .inl mac
    · have kept := others .mac (Ne.symm mac)
      rw [next_texts, Function.update_of_ne (Ne.symm mac)] at kept
      exact .inr ((flagsAgree_iff s).2 kept)
  · rw [next_texts_of_agree raw flags, Function.update_of_ne ne]

/-- A call without faults that answers 0 has set its field alone, just when the board was settable.
-/
theorem get_after_set_iff (e : Eeprom) (field : FactoryField) (value : List UInt8)
    (noNul : 0 ∉ value) (done : (setField parseMac e field value {}).2 = .done) :
    RoundTrip e (setField parseMac e field value {}).1 field value ↔ Settable e field value := by
  obtain ⟨raw, accepted, written⟩ := setField_done done
  cases active : readActive e false false with
  | error err =>
    rw [active] at written
    have read := readActive_of_valid
      (e := e.write .a (image (replaceField blankPayload field raw) 1)) .a
      (by rw [Eeprom.slot_write, image_valid])
    have never : ¬ Settable e field value := by
      rintro ⟨letter, found, -⟩
      rw [active] at found
      cases found
    rw [written]
    exact iff_of_false (not_roundTrip_of_error (by rw [readAll, active]) (readAll_of_active read))
      never
  | ok letter =>
    rw [active] at written
    obtain ⟨info, read, texts⟩ := readAll_write_other letter (readActive_valid active)
      ((e.slot letter).next field raw)
    have settable : Settable e field value ↔
        if (e.slot letter).seq = 0xFFFFFFFF then
          cString ((e.slot letter).texts field) = givenText parseMac value field
        else Holds field value ∧ (field = .mac ∨ (e.slot letter).flagsAgree) := by
      simp [Settable, active]
    rw [written, roundTrip_iff accepted (readAll_of_active active) read, texts, shownTexts_next,
      settable]
    split_ifs
    · simp
    · exact next_roundTrip_iff _ noNul accepted

theorem get_after_set_updatedBoard :
    RoundTrip updatedBoard (setField parseMac updatedBoard .batch [0x31] {}).1 .batch [0x31] := by
  have result : setField parseMac updatedBoard .batch [0x31] {} = _ :=
    setField_written updatedBoard_active
      (show encodeField parseMac [0x31] .batch = .ok batchRaw from rfl) rfl rfl
  refine (get_after_set_iff updatedBoard .batch [0x31] (by decide) (by rw [result])).2
    ⟨.b, updatedBoard_active, ?_⟩
  rw [if_neg (by simp [updatedBoard, Eeprom.slot, image_seq])]
  exact ⟨show [0x31].getLast? ≠ some 0xFF by decide, .inr (by decide +kernel)⟩

def lastBoard : Eeprom := ⟨image (samplePayload 0x41) 0xFFFFFFFF, image (samplePayload 0x42) 0⟩

theorem lastBoard_active : readActive lastBoard false false = .ok .a := by
  rw [readActive_of_valid (e := lastBoard) .a (image_valid _ _)]
  simp [lastBoard, Eeprom.slot, Letter.other, image_seq, Letter.beats]

/-- The serial number `C` is accepted, and `A` is read. -/
theorem last_sequence_keeps_old : (setField parseMac lastBoard .sn [0x43] {}).2 = .done ∧
    getField (setField parseMac lastBoard .sn [0x43] {}).1 .sn 33 = .ok [0x41] ∧
    ¬ RoundTrip lastBoard (setField parseMac lastBoard .sn [0x43] {}).1 .sn [0x43] := by
  have result : setField parseMac lastBoard .sn [0x43] {} = _ :=
    setField_written lastBoard_active
      (show encodeField parseMac [0x43] .sn = .ok sampleRaw from rfl) rfl rfl
  have last : (lastBoard.slot .a).seq = 0xFFFFFFFF := image_seq _ _
  obtain ⟨info, read, texts⟩ := readAll_write_other .a (readActive_valid lastBoard_active)
    ((lastBoard.slot .a).next .sn sampleRaw)
  rw [shownTexts_next, if_pos last] at texts
  have old : info.texts .sn = [0x41] := by
    rw [texts]
    decide +kernel
  rw [result]
  refine ⟨rfl, ?_, ?_⟩
  · rw [getField_eq _ _ (by omega), read]
    show Except.ok ((info.texts .sn).take 32) = _
    rw [old]
    rfl
  · rw [roundTrip_iff (show encodeField parseMac [0x43] .sn = .ok sampleRaw from rfl)
      (readAll_of_active lastBoard_active) read, old]
    rintro ⟨own, -⟩
    exact absurd own (by decide)

end NeoRuntime.Hal
