import Mathlib.Algebra.Group.Nat.Defs
import NeoRuntime.Lib.Bytes
import NeoRuntime.OsUpgrade.Marker

/-!
# The entries of an update package

`ValidatePackage` (platform/osupgrade/validate.go) and `ExtractRecoveryArtifacts`
(platform/osupgrade/extract.go) each have a loop over the entries of a CPIO archive.  They differ in
what they check and in what they do with the contents.  The decompressor and the files that are
written are parameters.
-/

namespace NeoRuntime.OsUpgrade.Cpio

inductive CpioError
  | invalidHeader
  | unsupportedFormat
  | invalidFileSize
  | invalidNameSize
  | truncatedName
  | truncatedPadding
  | descriptionTooLarge
  | invalidGzip (name : List UInt8)
  | writeFailed (base : List UInt8)
  | truncatedEntry (name : List UInt8)
  deriving DecidableEq

/-! ## Reading -/

/-- `io.ReadFull` and `io.CopyN`. -/
def readFull (n : ℕ) (bytes : List UInt8) : Option (List UInt8 × List UInt8) :=
  if bytes.length < n then none else some (bytes.take n, bytes.drop n)

def hexDigit (b : UInt8) : Option ℕ :=
  if 48 ≤ b ∧ b ≤ 57 then some (b.toNat - 48)
  else if 65 ≤ b ∧ b ≤ 70 then some (b.toNat - 55)
  else if 97 ≤ b ∧ b ≤ 102 then some (b.toNat - 87)
  else none

/-- `parseHex`, for the eight digits of a header field. -/
def parseHex (raw : List UInt8) : Option ℕ :=
  raw.foldlM (fun n b => (hexDigit b).map fun d => n * 16 + d) 0

def padding (size : ℕ) : ℕ := (4 - size % 4) % 4

def discardPadding (bytes : List UInt8) (size : ℕ) : Option (List UInt8) :=
  (readFull (padding size) bytes).map (·.2)

variable (name : List UInt8)

/-- `strings.TrimSuffix(name, "\x00")`. -/
def trimNul : List UInt8 :=
  if name.getLast? = some 0 then name.dropLast else name

def field (header : List UInt8) (start stop : ℕ) : List UInt8 := (header.take stop).drop start

def magics : List (List UInt8) := [asciiBytes "070701", asciiBytes "070702"]

def trailerName : List UInt8 := asciiBytes "TRAILER!!!"

variable (checkMagic : Bool)

/-- The name of an entry, the size of its contents, and what follows the name. -/
def readHeader (bytes : List UInt8) : Except CpioError (List UInt8 × ℕ × List UInt8) :=
  match readFull 110 bytes with
  | none => .error .invalidHeader
  | some (header, rest) =>
    if checkMagic && header.take 6 ∉ magics then .error .unsupportedFormat
    else
      match parseHex (field header 54 62), parseHex (field header 94 102) with
      | none, _ => .error .invalidFileSize
      | _, none => .error .invalidNameSize
      | some fileSize, some nameSize =>
        if nameSize < 1 || nameSize > 4096 then .error .invalidNameSize
        else
          match readFull nameSize rest with
          | none => .error .truncatedName
          | some (name, rest) =>
            match discardPadding rest (110 + nameSize) with
            | none => .error .truncatedPadding
            | some rest => .ok (trimNul name, fileSize, rest)

inductive Item
  | trailer (rest : List UInt8)
  | entry (name content rest : List UInt8)

/-- One round of a loop; `handle` gets the name, the size and the bytes that are there. -/
def readItem (handle : List UInt8 → ℕ → List UInt8 → Except CpioError Unit)
    (bytes : List UInt8) : Except CpioError Item :=
  match readHeader checkMagic bytes with
  | .error e => .error e
  | .ok (name, fileSize, rest) =>
    if name = trailerName then .ok (.trailer rest)
    else
      match handle name fileSize (rest.take fileSize) with
      | .error e => .error e
      | .ok () =>
        if rest.length < fileSize then .error (.truncatedEntry name)
        else
          match discardPadding (rest.drop fileSize) fileSize with
          | none => .error .truncatedPadding
          | some after => .ok (.entry name (rest.take fileSize) after)

/-- A loop over the entries: those visited, and the bytes behind the trailer, if any. -/
def walk (round : List UInt8 → Except CpioError Item) :
    ℕ → List UInt8 → List (List UInt8 × List UInt8) × Option (List UInt8)
  | 0, _ => ([], none)
  | fuel + 1, bytes =>
    match round bytes with
    | .error _ => ([], none)
    | .ok (.trailer rest) => ([], some rest)
    | .ok (.entry name content rest) =>
      ((name, content) :: (walk round fuel rest).1, (walk round fuel rest).2)

/-! ## The two loops -/

def maxDescriptionSize : ℕ := 2 <<< 20

/-- `strings.ToLower`, on the letters that the suffix can have. -/
def toLower : List UInt8 :=
  name.map fun b => if 65 ≤ b ∧ b ≤ 90 then b + 32 else b

def isDescription : Bool :=
  name = asciiBytes "sw-description" || asciiBytes "/sw-description" <:+ name

/-- What `ValidatePackage` does with the contents of an entry. -/
def validateContent (gunzip : List UInt8 → Bool) (name : List UInt8) (fileSize : ℕ)
    (content : List UInt8) : Except CpioError Unit :=
  if isDescription name then
    if fileSize > maxDescriptionSize then .error .descriptionTooLarge else .ok ()
  else if asciiBytes ".ext4.gz" <:+ toLower name then
    if gunzip content then .ok () else .error (.invalidGzip name)
  else .ok ()

/-- `filepath.Base`. -/
def baseName : List UInt8 :=
  if name = [] then [46]
  else
    let trimmed := (name.reverse.dropWhile (· = 47)).reverse
    if trimmed = [] then [47] else (trimmed.reverse.takeWhile (· ≠ 47)).reverse

/-- What `ExtractRecoveryArtifacts` does with the contents of an entry. -/
def extractContent (write : List UInt8 → List UInt8 → Bool) (name : List UInt8) (_ : ℕ)
    (content : List UInt8) : Except CpioError Unit :=
  let base := baseName name
  if base = asciiBytes "fitImage" ||
      asciiBytes "swupdate-image-" <+: base && asciiBytes ".ext4.gz" <:+ base then
    if write base content then .ok () else .error (.writeFailed base)
  else .ok ()

def validateLoop (gunzip : List UInt8 → Bool) (bytes : List UInt8) :
    List (List UInt8 × List UInt8) × Option (List UInt8) :=
  walk (readItem true (validateContent gunzip)) (bytes.length + 1) bytes

def extractLoop (write : List UInt8 → List UInt8 → Bool) (bytes : List UInt8) :
    List (List UInt8 × List UInt8) × Option (List UInt8) :=
  walk (readItem false (extractContent write)) (bytes.length + 1) bytes

/-! ## One entry -/

variable {bytes : List UInt8} {handle : List UInt8 → ℕ → List UInt8 → Except CpioError Unit}

theorem readHeader_false {found : List UInt8 × ℕ × List UInt8}
    (read : readHeader true bytes = .ok found) : readHeader false bytes = .ok found := by
  unfold readHeader at read ⊢
  split at read
  · cases read
  · split_ifs at read
    rw [Bool.false_and, if_neg Bool.false_ne_true]
    exact read

/-- A round that one loop accepts is accepted by the other if it takes the contents. -/
theorem readItem_of_handle {handle' : List UInt8 → ℕ → List UInt8 → Except CpioError Unit}
    (accepts : ∀ name size content, handle' name size content = .ok ())
    {item : Item} (read : readItem true handle bytes = .ok item) :
    readItem false handle' bytes = .ok item := by
  unfold readItem at read ⊢
  split at read
  · cases read
  · rename_i name fileSize rest header
    rw [readHeader_false header]
    dsimp only at read ⊢
    cases handled : handle name fileSize (rest.take fileSize) with
    | error e =>
      rw [handled] at read
      by_cases trailer : name = trailerName
      · rw [if_pos trailer] at read ⊢
        exact read
      · rw [if_neg trailer] at read
        cases read
    | ok u =>
      rw [handled] at read
      rw [accepts]
      exact read

theorem readFull_length {n : ℕ} {read rest : List UInt8}
    (done : readFull n bytes = some (read, rest)) : rest.length + n = bytes.length := by
  unfold readFull at done
  split_ifs at done with short
  obtain ⟨-, rfl⟩ := Prod.mk.inj (Option.some.inj done)
  rw [List.length_drop]
  omega

theorem discardPadding_length {size : ℕ} {rest : List UInt8}
    (done : discardPadding bytes size = some rest) : rest.length ≤ bytes.length := by
  obtain ⟨⟨read, rest'⟩, full, rfl⟩ := Option.map_eq_some_iff.mp done
  have := readFull_length full
  dsimp only
  omega

theorem readHeader_length {checkMagic : Bool} {name rest : List UInt8} {fileSize : ℕ}
    (read : readHeader checkMagic bytes = .ok (name, fileSize, rest)) :
    rest.length < bytes.length := by
  unfold readHeader at read
  repeat' split at read
  all_goals try cases read
  rename_i whole _ _ _ _ _ _ _ _ _ named _ _ padded
  have := readFull_length whole
  have := readFull_length named
  have := discardPadding_length padded
  omega

theorem readItem_length {checkMagic : Bool} {name content rest : List UInt8}
    (read : readItem checkMagic handle bytes = .ok (.entry name content rest)) :
    rest.length < bytes.length := by
  unfold readItem at read
  repeat' split at read
  all_goals try cases read
  rename_i header _ _ padded
  have := readHeader_length header
  have := discardPadding_length padded
  rw [List.length_drop] at this
  omega

/-- Every entry takes bytes, so that the rounds that the loops are given suffice. -/
theorem walk_fuel {checkMagic : Bool}
        {fuel fuel' : ℕ} (enough : bytes.length < fuel) (enough' : bytes.length < fuel') :
    walk (readItem checkMagic handle) fuel bytes = walk (readItem checkMagic handle) fuel' bytes := by
  induction fuel generalizing bytes fuel' with
  | zero => cases enough
  | succ fuel ih =>
    obtain ⟨fuel', rfl⟩ : ∃ n, fuel' = n + 1 := ⟨fuel' - 1, by omega⟩
    rw [walk, walk]
    cases here : readItem checkMagic handle bytes with
    | error e => rfl
    | ok item =>
      cases item with
      | trailer rest => rfl
      | entry name content rest =>
        have shorter := readItem_length here
        dsimp only
        rw [ih (show rest.length < fuel by omega) (show rest.length < fuel' by omega)]

theorem extractContent_ok {write : List UInt8 → List UInt8 → Bool}
    (writes : ∀ base content, write base content = true) (name : List UInt8) (size : ℕ)
    (content : List UInt8) : extractContent write name size content = .ok () := by
  simp [extractContent, writes]

/-- A loop that accepts all that another one does walks as far. -/
theorem walk_of_round {round round' : List UInt8 → Except CpioError Item}
    (follows : ∀ bytes item, round bytes = .ok item → round' bytes = .ok item) {fuel : ℕ}
    {rest : List UInt8} {visited : List (List UInt8 × List UInt8)}
    (walked : walk round fuel bytes = (visited, some rest)) :
    walk round' fuel bytes = (visited, some rest) := by
  induction fuel generalizing bytes visited with
  | zero => cases walked
  | succ fuel ih =>
    rw [walk] at walked ⊢
    cases here : round bytes with
    | error e =>
      rw [here] at walked
      cases walked
    | ok item =>
      rw [here] at walked
      rw [follows bytes item here]
      cases item with
      | trailer rest' => exact walked
      | entry name content after =>
        obtain ⟨rfl, last⟩ := Prod.mk.inj walked
        have later := ih (Prod.ext rfl last)
        dsimp only
        rw [later]

/-! ## Encoding -/

def hexByte (d : ℕ) : UInt8 := UInt8.ofNat (if d < 10 then 48 + d else 55 + d)

/-- The lowest `k` hexadecimal digits. -/
def hexBytes : ℕ → ℕ → List UInt8
  | 0, _ => []
  | k + 1, n => hexBytes k (n / 16) ++ [hexByte (n % 16)]

@[simp] theorem length_hexBytes (k n : ℕ) : (hexBytes k n).length = k := by
  induction k generalizing n with
  | zero => rfl
  | succ k ih => rw [hexBytes, List.length_append, ih, List.length_singleton]

theorem hexDigit_hexByte : ∀ d < 16, hexDigit (hexByte d) = some d := by decide

theorem parseHex_hexBytes {k n : ℕ} (fits : n < 16 ^ k) : parseHex (hexBytes k n) = some n := by
  induction k generalizing n with
  | zero =>
    obtain rfl : n = 0 := by simpa using fits
    rfl
  | succ k ih =>
    have high : n / 16 < 16 ^ k := by
      rw [Nat.pow_succ] at fits
      omega
    rw [hexBytes, parseHex, List.foldlM_append]
    have front : (hexBytes k (n / 16)).foldlM
        (fun n b => (hexDigit b).map fun d => n * 16 + d) 0 = some (n / 16) := ih high
    rw [front]
    simp only [Option.bind_eq_bind, Option.bind_some, List.foldlM_cons, List.foldlM_nil,
      hexDigit_hexByte _ (Nat.mod_lt n (by decide : 0 < 16)), Option.map_some, Option.pure_def]
    congr 1
    omega

/-- The fields of a header that nobody reads. -/
structure OtherFields where
  front : List UInt8
  middle : List UInt8
  check : List UInt8
  frontLength : front.length = 48
  middleLength : middle.length = 32
  checkLength : check.length = 8

/-- A header, a name and their padding, in the newc format. -/
def encodeName (magic : List UInt8) (other : OtherFields) (name : List UInt8) (fileSize : ℕ) :
    List UInt8 :=
  magic ++ other.front ++ hexBytes 8 fileSize ++ other.middle ++ hexBytes 8 (name.length + 1) ++
    other.check ++ (name ++ [0]) ++ List.replicate (padding (110 + (name.length + 1))) 0

structure Entry where
  magic : List UInt8
  other : OtherFields
  name : List UInt8
  content : List UInt8
  known : magic ∈ magics
  notTrailer : name ≠ trailerName
  nameLength : 1 ≤ name.length ∧ name.length ≤ 4095
  contentLength : content.length < 2 ^ 32

def Entry.encode (e : Entry) : List UInt8 :=
  encodeName e.magic e.other e.name e.content.length ++ e.content ++
    List.replicate (padding e.content.length) 0

/-- The entries, the trailer, and what follows it in the file. -/
def encode (entries : List Entry) (magic : List UInt8) (other : OtherFields) (after : List UInt8) :
    List UInt8 :=
  entries.flatMap Entry.encode ++ (encodeName magic other trailerName 0 ++ after)

theorem readFull_append {a : List UInt8} {n : ℕ} (length : a.length = n) (b : List UInt8) :
    readFull n (a ++ b) = some (a, b) := by
  subst length
  rw [readFull, if_neg (by simp), List.take_left, List.drop_left]

theorem discardPadding_replicate (size : ℕ) (b : List UInt8) :
    discardPadding (List.replicate (padding size) 0 ++ b) size = some b := by
  rw [discardPadding, readFull_append (by simp)]
  rfl

theorem trimNul_concat : trimNul (name ++ [0]) = name := by
  rw [trimNul, if_pos (by simp), List.dropLast_concat]

theorem length_of_mem_magics {magic : List UInt8} (known : magic ∈ magics) : magic.length = 6 := by
  obtain rfl | rfl : magic = asciiBytes "070701" ∨ magic = asciiBytes "070702" := by
    simpa [magics] using known
  all_goals decide

theorem readHeader_encodeName {magic : List UInt8} (known : magic ∈ magics)
    (other : OtherFields) {name : List UInt8} (short : name.length ≤ 4095) {fileSize : ℕ}
    (fits : fileSize < 2 ^ 32) (rest : List UInt8) :
    readHeader checkMagic (encodeName magic other name fileSize ++ rest) =
      .ok (name, fileSize, rest) := by
  have six := length_of_mem_magics known
  let header := magic ++ other.front ++ hexBytes 8 fileSize ++ other.middle ++
    hexBytes 8 (name.length + 1) ++ other.check
  have length : header.length = 110 := by
    simp [header, six, other.frontLength, other.middleLength, other.checkLength]
  have shape : encodeName magic other name fileSize ++ rest = header ++ ((name ++ [0]) ++
      (List.replicate (padding (110 + (name.length + 1))) 0 ++ rest)) := by
    simp only [encodeName, header, List.append_assoc]
  have first : header.take 6 = magic := by
    simp only [header, List.append_assoc]
    exact List.take_left' six
  have size : field header 54 62 = hexBytes 8 fileSize := by
    rw [field, show header = (magic ++ other.front) ++ hexBytes 8 fileSize ++ (other.middle ++
        hexBytes 8 (name.length + 1) ++ other.check) by simp [header],
      List.take_left' (by simp [six, other.frontLength]),
      List.drop_left' (by simp [six, other.frontLength])]
  have names : field header 94 102 = hexBytes 8 (name.length + 1) := by
    rw [field, show header = (magic ++ other.front ++ hexBytes 8 fileSize ++ other.middle) ++
        hexBytes 8 (name.length + 1) ++ other.check by simp [header],
      List.take_left' (by simp [six, other.frontLength, other.middleLength]),
      List.drop_left' (by simp [six, other.frontLength, other.middleLength])]
  rw [shape, readHeader, readFull_append length]
  dsimp only
  rw [first, if_neg (by simp [known]), size, names,
    parseHex_hexBytes (Nat.lt_of_lt_of_le fits (by decide)),
    parseHex_hexBytes (Nat.lt_of_le_of_lt (Nat.succ_le_succ short) (by decide))]
  dsimp only
  rw [if_neg (by simp; omega), readFull_append (by simp)]
  dsimp only
  rw [discardPadding_replicate, trimNul_concat]

theorem readItem_encode (e : Entry)
    (accepted : handle e.name e.content.length e.content = .ok ()) (rest : List UInt8) :
    readItem checkMagic handle (e.encode ++ rest) = .ok (.entry e.name e.content rest) := by
  have shape : e.encode ++ rest = encodeName e.magic e.other e.name e.content.length ++
      (e.content ++ (List.replicate (padding e.content.length) 0 ++ rest)) := by
    simp only [Entry.encode, List.append_assoc]
  have long : ¬ (e.content ++ (List.replicate (padding e.content.length) 0 ++ rest)).length <
      e.content.length := by
    rw [List.length_append]
    omega
  rw [shape, readItem,
    readHeader_encodeName checkMagic e.known e.other e.nameLength.2 e.contentLength]
  dsimp only
  rw [if_neg e.notTrailer, List.take_left, accepted]
  dsimp only
  rw [if_neg long, List.drop_left, discardPadding_replicate]

theorem walk_encode {entries : List Entry}
    (accepted : ∀ e ∈ entries, handle e.name e.content.length e.content = .ok ())
    {magic : List UInt8} (known : magic ∈ magics) (other : OtherFields) (after : List UInt8)
    {fuel : ℕ} (enough : entries.length < fuel) :
    walk (readItem checkMagic handle) fuel (encode entries magic other after) =
      (entries.map fun e => (e.name, e.content), some after) := by
  induction entries generalizing fuel with
  | nil =>
    obtain ⟨fuel, rfl⟩ : ∃ n, fuel = n + 1 := ⟨fuel - 1, by omega⟩
    have trailer : readItem checkMagic handle (encode [] magic other after) =
        .ok (.trailer after) := by
      rw [encode, List.flatMap_nil, List.nil_append, readItem,
        readHeader_encodeName checkMagic known other (by decide) (by decide)]
      rfl
    rw [walk, trailer]
    rfl
  | cons e entries ih =>
    obtain ⟨fuel, rfl⟩ : ∃ n, fuel = n + 1 := ⟨fuel - 1, by omega⟩
    obtain ⟨here, others⟩ := List.forall_mem_cons.mp accepted
    have shape : encode (e :: entries) magic other after =
        e.encode ++ encode entries magic other after := by
      rw [encode, encode, List.flatMap_cons, List.append_assoc]
    rw [shape, walk, readItem_encode checkMagic e here]
    dsimp only
    rw [ih others (by simpa using enough)]
    rfl

theorem length_le_encode (entries : List Entry) (magic : List UInt8) (other : OtherFields)
    (after : List UInt8) : entries.length ≤ (encode entries magic other after).length := by
  have each : ∀ e ∈ entries, 1 ≤ e.encode.length := by
    intro e _
    simp only [Entry.encode, encodeName, List.length_append, List.length_singleton]
    omega
  rw [encode, List.length_append]
  induction entries with
  | nil => exact Nat.zero_le _
  | cons e entries ih =>
    obtain ⟨here, others⟩ := List.forall_mem_cons.mp each
    rw [List.flatMap_cons, List.length_append, List.length_cons]
    have := ih others
    omega

/-- The loop of `ExtractRecoveryArtifacts` walks where that of `ValidatePackage` does, and both walk
through what they accept. -/
theorem loops_agree (gunzip : List UInt8 → Bool) {write : List UInt8 → List UInt8 → Bool}
    (writes : ∀ base content, write base content = true) :
    (∀ bytes visited rest, validateLoop gunzip bytes = (visited, some rest) →
      extractLoop write bytes = (visited, some rest)) ∧
    ∀ (entries : List Entry), ∀ magic ∈ magics, ∀ (other : OtherFields) (after : List UInt8),
      extractLoop write (encode entries magic other after) =
          (entries.map fun e => (e.name, e.content), some after) ∧
        ((∀ e ∈ entries, validateContent gunzip e.name e.content.length e.content = .ok ()) →
          validateLoop gunzip (encode entries magic other after) =
            (entries.map fun e => (e.name, e.content), some after)) := by
  refine ⟨fun bytes visited rest walked => ?_, fun entries magic known other after => ?_⟩
  · exact walk_of_round (fun _ _ => readItem_of_handle (extractContent_ok writes)) walked
  · have enough := Nat.lt_succ_of_le (length_le_encode entries magic other after)
    exact ⟨walk_encode false (fun e _ => extractContent_ok writes _ _ _) known other after enough,
      fun accepted => walk_encode true accepted known other after enough⟩

def otherZeros : OtherFields :=
  ⟨List.replicate 48 48, List.replicate 32 48, List.replicate 8 48, rfl, rfl, rfl⟩

def plainEntry : Entry where
  magic := asciiBytes "070701"
  other := otherZeros
  name := asciiBytes "a"
  content := [1]
  known := by decide
  notTrailer := by decide
  nameLength := by decide
  contentLength := by decide

theorem loops_agree_plain :
    extractLoop (fun _ _ => true) (encode [plainEntry] (asciiBytes "070701") otherZeros [9]) =
        ([(asciiBytes "a", [1])], some [9]) ∧
      validateLoop (fun _ => false) (encode [plainEntry] (asciiBytes "070701") otherZeros [9]) =
        ([(asciiBytes "a", [1])], some [9]) :=
  have both := (@loops_agree (fun _ => false) (fun _ _ => true) fun _ _ => rfl).2 [plainEntry]
    (asciiBytes "070701") (by decide) otherZeros [9]
  ⟨both.1, both.2 (by decide)⟩

def corruptRootfs : List Entry :=
  [{ plainEntry with
      name := asciiBytes "x.ext4.gz", notTrailer := by decide, nameLength := by decide }, plainEntry]

/-- `ValidatePackage` stops at the rootfs. -/
theorem stops_at_rootfs :
    validateLoop (fun _ => false) (encode corruptRootfs (asciiBytes "070701") otherZeros []) =
        ([], none) ∧
      extractLoop (fun _ _ => true) (encode corruptRootfs (asciiBytes "070701") otherZeros []) =
        ([(asciiBytes "x.ext4.gz", [1]), (asciiBytes "a", [1])], some []) := by
  decide +kernel

end NeoRuntime.OsUpgrade.Cpio
