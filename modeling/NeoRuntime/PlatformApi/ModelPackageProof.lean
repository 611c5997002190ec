import NeoRuntime.PlatformApi.ModelPackage

/-!
# Packages are read as they are written

A reader delivers the bytes of the section that is left, whatever the sizes of the reads, and hashes
what it delivers.  So a written package is read back, and `Verify` accepts it.  The other way round,
the header's length is not part of what is hashed: `Verify` accepts a package whose section is
shorter than the header says, and one whose length is negative as an `int64`.
-/

namespace NeoRuntime.PlatformApi

variable {codec : MetaCodec} {sha256 : List UInt8 → Sha256Sum} {stream : List UInt8}

namespace PackageReader

variable {p : PackageReader} {reads : List (ℕ × ℕ)}

section

variable (p)

def left : List UInt8 := p.source.take p.limit.toNat

theorem read_delivers (want ready : ℕ) :
    (p.read want ready).1 ++ (p.read want ready).2.left = p.left := by
  unfold read
  split_ifs with done
  · rfl
  · have most : min (min want p.limit.toNat) (ready + 1) ≤ p.limit.toNat :=
      (min_le_left _ _).trans (min_le_right _ _)
    generalize min (min want p.limit.toNat) (ready + 1) = n at most
    simp only [left, List.length_take]
    rw [← List.take_append_drop n (p.source.take p.limit.toNat), List.take_take,
      List.drop_take, min_eq_left most]
    congr 1
    obtain short | long := Nat.le_total p.source.length n
    · simp [List.drop_eq_nil_of_le short]
    · rw [min_eq_left long]
      congr 1
      omega

theorem read_hashes (want ready : ℕ) :
    (p.read want ready).2.hashed = p.hashed ++ (p.read want ready).1 := by
  unfold read
  split_ifs
  · exact (List.append_nil _).symm
  · rfl

theorem read_headerDigest (want ready : ℕ) :
    (p.read want ready).2.headerDigest = p.headerDigest := by
  unfold read
  split_ifs <;> rfl

end

theorem read_ne_nil {want : ℕ} (room : 0 < want) (ready : ℕ) (more : p.left ≠ []) :
    (p.read want ready).1 ≠ [] := by
  have bytes : p.source ≠ [] := fun none => more (by simp [left, none])
  have limit : 0 < p.limit.toNat := Nat.pos_of_ne_zero fun zero => more (by simp [left, zero])
  unfold read
  rw [if_neg (by omega)]
  simp only [ne_eq, List.take_eq_nil_iff, bytes, or_false]
  omega

theorem readAll_delivers (p : PackageReader) (reads : List (ℕ × ℕ)) :
    (p.readAll reads).1 ++ (p.readAll reads).2.left = p.left := by
  induction reads generalizing p with
  | nil => rfl
  | cons read reads ih =>
    simp only [readAll, List.append_assoc, ih, read_delivers]

theorem readAll_hashes (p : PackageReader) (reads : List (ℕ × ℕ)) :
    (p.readAll reads).2.hashed = p.hashed ++ (p.readAll reads).1 := by
  induction reads generalizing p with
  | nil => exact (List.append_nil _).symm
  | cons read reads ih => simp only [readAll, ih, read_hashes, List.append_assoc]

theorem readAll_headerDigest (p : PackageReader) (reads : List (ℕ × ℕ)) :
    (p.readAll reads).2.headerDigest = p.headerDigest := by
  induction reads generalizing p with
  | nil => rfl
  | cons read reads ih => simp only [readAll, ih, read_headerDigest]

theorem readAll_to_end (room : ∀ read ∈ reads, 0 < read.1) (enough : p.left.length ≤ reads.length) :
    (p.readAll reads).2.left = [] := by
  induction reads generalizing p with
  | nil => exact List.eq_nil_of_length_eq_zero (Nat.le_zero.mp enough)
  | cons read reads ih =>
    have fewer : (p.read read.1 read.2).2.left.length ≤ reads.length := by
      have delivers := congrArg List.length (p.read_delivers read.1 read.2)
      rw [List.length_append] at delivers
      rw [List.length_cons] at enough
      by_cases none : p.left = []
      · rw [none, List.length_nil] at delivers
        omega
      · have some := List.length_pos_iff.mpr
          (read_ne_nil (room read List.mem_cons_self) read.2 none)
        omega
    exact ih (fun r mem => room r (List.mem_cons_of_mem _ mem)) fewer

theorem verify_ok_iff :
    p.verify sha256 = .ok () ↔ p.left = [] ∧ (sha256 p.hashed).val = p.headerDigest := by
  have delivers := p.read_delivers 1 0
  have hashes := p.read_hashes 1 0
  unfold verify
  by_cases none : p.left = []
  · rw [none] at delivers
    have empty := (List.append_eq_nil_iff.mp delivers).1
    simp only [empty, List.length_nil, lt_irrefl, if_false, hashes, List.append_nil,
      read_headerDigest, none, true_and]
    split_ifs with differs
    · simpa using differs
    · simpa using differs
  · have some := List.length_pos_iff.mpr (read_ne_nil Nat.one_pos 0 none)
    simp [some, none]

end PackageReader

/-! ## The header -/

theorem slice_parts (before after : List (List UInt8)) {part : List UInt8} {start stop : ℕ}
    (starts : before.flatten.length = start) (stops : start + part.length = stop) :
    slice (before ++ part :: after).flatten start stop = part := by
  rw [slice, List.flatten_append, List.drop_left' starts, List.flatten_cons,
    List.take_left' (by omega)]

section Header

variable {json rest : List UInt8} {n : ℕ} {sum : Sha256Sum}

def packageWith (json : List UInt8) (n : ℕ) (sum : Sha256Sum) (rest : List UInt8) : List UInt8 :=
  packageHeader json.length n sum ++ json ++ rest

theorem packageWith_parts : packageWith json n sum rest =
    [packageMagic, beBytes 2 packageVersion, beBytes 2 0, beBytes 4 json.length, beBytes 8 n,
      sum.val, json, rest].flatten := by
  simp [packageWith, packageHeader]

theorem length_packageHeader (k : ℕ) : (packageHeader k n sum).length = packageHeaderSize := by
  simp [packageHeader, sum.property, packageMagic, packageHeaderSize]

theorem slice_magic : slice (packageWith json n sum rest) 0 4 = packageMagic := by
  rw [packageWith_parts]
  exact slice_parts [] _ rfl rfl

theorem slice_version : slice (packageWith json n sum rest) 4 6 = beBytes 2 packageVersion := by
  rw [packageWith_parts]
  exact slice_parts [_] _ rfl (by simp)

theorem slice_flags : slice (packageWith json n sum rest) 6 8 = beBytes 2 0 := by
  rw [packageWith_parts]
  exact slice_parts [_, _] _ (by simp [packageMagic]) (by simp)

theorem jsonLen_packageWith (fits : json.length < 2 ^ 32) :
    jsonLen (packageWith json n sum rest) = json.length := by
  rw [jsonLen, packageWith_parts]
  refine (congrArg ofBeBytes (slice_parts [_, _, _] _ ?_ ?_)).trans (ofBeBytes_beBytes fits)
  · simp [packageMagic]
  · simp

theorem hefLen_packageWith (fits : n < 2 ^ 64) : hefLen (packageWith json n sum rest) = n := by
  rw [hefLen, packageWith_parts]
  refine (congrArg ofBeBytes (slice_parts [_, _, _, _] _ ?_ ?_)).trans (ofBeBytes_beBytes fits)
  · simp [packageMagic]
  · simp

theorem headerDigest_packageWith : headerDigest (packageWith json n sum rest) = sum.val := by
  rw [headerDigest, packageWith_parts]
  refine slice_parts [_, _, _, _, _] _ ?_ ?_
  · simp [packageMagic]
  · simp [sum.property, packageHeaderSize]

theorem jsonSection_packageWith (fits : json.length < 2 ^ 32) :
    jsonSection (packageWith json n sum rest) = json := by
  rw [jsonSection, jsonLen_packageWith fits, packageWith_parts]
  refine slice_parts [_, _, _, _, _, _] _ ?_ rfl
  simp [packageMagic, sum.property, packageHeaderSize]

/-- A package is opened whatever length other than zero its header has. -/
theorem openPackage_packageWith {info : PackageMeta} (encoded : codec.encode info.current = some json)
    (small : json.length ≤ maxPackageJSONBytes) (named : info.hef.filename ≠ "") (pos : 0 < n)
    (fits : n < 2 ^ 64) :
    openPackage codec (packageWith json n sum rest) =
      .ok { info := info.current
            source := rest
            limit := (n : ℤ).bmod (2 ^ 64)
            hashed := json
            headerDigest := sum.val } := by
  have decoded := codec.decode_encode _ _ encoded
  have nonempty : json.length ≠ 0 := by
    intro zero
    rw [List.eq_nil_of_length_eq_zero zero, codec.decode_nil] at decoded
    exact absurd decoded nofun
  have short : json.length < 2 ^ 32 := small.trans_lt (by decide)
  have total : (packageWith json n sum rest).length =
      packageHeaderSize + json.length + rest.length := by
    simp [packageWith, length_packageHeader, Nat.add_assoc]
  have source : (packageWith json n sum rest).drop (packageHeaderSize + json.length) = rest := by
    rw [packageWith]
    exact List.drop_left' (by simp [length_packageHeader])
  have version : ofBeBytes (beBytes 2 packageVersion) = packageVersion := by decide
  have flags : ofBeBytes (beBytes 2 0) = 0 := by decide
  have current : info.current.formatVersion.toNat = packageVersion := rfl
  have still_named : info.current.hef.filename ≠ "" := named
  unfold openPackage
  rw [if_neg (by omega), slice_magic, if_neg (by decide)]
  simp only [slice_version, slice_flags, version, flags, jsonLen_packageWith short,
    hefLen_packageWith fits, jsonSection_packageWith short, headerDigest_packageWith, decoded, source]
  rw [if_neg (by decide), if_neg (by decide), if_neg (by omega), if_neg (by omega),
    if_neg (by omega), if_neg (by decide), if_neg (not_not.mpr current), if_neg still_named]

end Header

/-! ## Both ways -/

theorem ok_of_guard {ε α : Type} {c : Prop} [Decidable c] {e : ε} {x : Except ε α} {a : α}
    (ok : (if c then .error e else x) = .ok a) : ¬ c ∧ x = .ok a := by
  split_ifs at ok with failed
  exact ⟨failed, ok⟩

/-- What a package that is opened is made of. -/
theorem openPackage_ok {p : PackageReader} (opened : openPackage codec stream = .ok p) :
    p.left = (stream.drop (packageHeaderSize + jsonLen stream)).take
        ((hefLen stream : ℤ).bmod (2 ^ 64)).toNat ∧
      p.hashed = jsonSection stream ∧ p.headerDigest = headerDigest stream ∧
      packageHeaderSize + jsonLen stream ≤ stream.length := by
  iterate 6 obtain ⟨-, opened⟩ := ok_of_guard opened
  obtain ⟨long, opened⟩ := ok_of_guard opened
  split at opened
  · cases opened
  · iterate 3 obtain ⟨-, opened⟩ := ok_of_guard opened
    obtain rfl := Except.ok.inj opened
    exact ⟨by rw [PackageReader.left], rfl, rfl, Nat.not_lt.mp long⟩

theorem hefLen_lt (stream : List UInt8) : hefLen stream < 2 ^ 64 := by
  have length : (slice stream 12 20).length ≤ 8 := by
    rw [slice, List.length_take]
    exact min_le_left _ _
  have lt := ofBeBytes_lt (slice stream 12 20)
  exact lt.trans_le ((Nat.pow_le_pow_right (by decide) length).trans (by decide))

/-- The section has the header's length just if it is one of an `int64` and the stream is as long.
-/
theorem section_length_iff {n : ℕ} (fits : n < 2 ^ 64) (rest : List UInt8) :
    (rest.take ((n : ℤ).bmod (2 ^ 64)).toNat).length = n ↔ n < 2 ^ 63 ∧ n ≤ rest.length := by
  rw [List.length_take]
  by_cases small : n < 2 ^ 63
  · have limit : ((n : ℤ).bmod (2 ^ 64)) = n :=
      Int.bmod_eq_of_le (by omega) (by omega)
    rw [limit, Int.toNat_natCast]
    omega
  · have limit : ((n : ℤ).bmod (2 ^ 64)) < 0 := by
      rw [Int.bmod_def]
      omega
    rw [Int.toNat_of_nonpos limit.le]
    omega

/-- A written package is opened, delivers its HEF in any sizes of reads, and is verified.  A
verified package is as its header says, the length just if it is one of an `int64` and the stream is
not shorter. -/
theorem package_format (codec : MetaCodec) (sha256 : List UInt8 → Sha256Sum) :
    (∀ (info : PackageMeta) (json hef : List UInt8), info.hef.filename ≠ "" →
      codec.encode info.current = some json → json.length ≤ maxPackageJSONBytes → hef ≠ [] →
      hef.length < 2 ^ 63 →
      ∃ stream p, writePackage codec sha256 info hef = .ok stream ∧
        openPackage codec stream = .ok p ∧ p.info = info.current ∧
        ∀ reads : List (ℕ × ℕ), (∀ read ∈ reads, 0 < read.1) → hef.length ≤ reads.length →
          (p.readAll reads).1 = hef ∧ (p.readAll reads).2.verify sha256 = .ok ()) ∧
    ∀ (stream : List UInt8) (p : PackageReader) (reads : List (ℕ × ℕ)),
      openPackage codec stream = .ok p → (p.readAll reads).2.verify sha256 = .ok () →
      ((p.readAll reads).1.length = hefLen stream ∧
        headerDigest stream = (sha256 (jsonSection stream ++ (p.readAll reads).1)).val ↔
      hefLen stream < 2 ^ 63 ∧
        packageHeaderSize + jsonLen stream + hefLen stream ≤ stream.length) := by
  constructor
  · intro info json hef named encoded small some short
    have pos : 0 < hef.length := List.length_pos_iff.mpr some
    have written : writePackage codec sha256 info hef =
        .ok (packageWith json hef.length (sha256 (json ++ hef)) hef) := by
      simp only [writePackage, encoded, if_neg (Nat.not_lt.mpr small)]
      rfl
    refine ⟨_, _, written, openPackage_packageWith encoded small named pos (by omega), rfl,
      fun reads room enough => ?_⟩
    generalize eq : PackageReader.mk _ _ _ _ _ = p
    have limit : ((hef.length : ℤ).bmod (2 ^ 64)) = hef.length :=
      Int.bmod_eq_of_le (by omega) (by omega)
    have left : p.left = hef := by
      rw [← eq, PackageReader.left, limit, Int.toNat_natCast, List.take_length]
    have ended : (p.readAll reads).2.left = [] :=
      PackageReader.readAll_to_end room (left ▸ enough)
    have delivered : (p.readAll reads).1 = hef := by
      simpa [ended, left] using p.readAll_delivers reads
    refine ⟨delivered, PackageReader.verify_ok_iff.mpr ⟨ended, ?_⟩⟩
    rw [p.readAll_hashes, p.readAll_headerDigest, delivered, ← eq]
  · intro stream p reads opened verified
    obtain ⟨left, hashed, digest, long⟩ := openPackage_ok opened
    obtain ⟨ended, same⟩ := PackageReader.verify_ok_iff.mp verified
    have delivered : (p.readAll reads).1 = p.left := by
      simpa [ended] using p.readAll_delivers reads
    rw [p.readAll_hashes, p.readAll_headerDigest, hashed, digest] at same
    rw [and_iff_left same.symm, delivered, left, section_length_iff (hefLen_lt stream),
      List.length_drop]
    exact and_congr_right fun _ => by omega

section Samples

def someMeta : PackageMeta where
  formatVersion := 1
  modelId := "yolo"
  name := ""
  modelType := "detection"
  outputMode := "platform"
  config := []
  hef := { filename := "yolo.hef", sha256 := "" }
  network := { name := "", inputWidth := 640, inputHeight := 640 }
  outputFormat := ""

def someCodec : MetaCodec where
  encode info := if info = someMeta then some [0x7b, 0x7d] else none
  decode json := if json = [0x7b, 0x7d] then some (someMeta, true) else none
  decode_encode info json encoded := by
    split_ifs at encoded with same
    rw [← Option.some.inj encoded, if_pos rfl, same]
  decode_nil := rfl

def byteSum (bytes : List UInt8) : Sha256Sum := ⟨List.replicate 32 bytes.sum, List.length_replicate⟩

theorem written_package_verified :
    ∃ stream p, writePackage someCodec byteSum someMeta [1, 2] = .ok stream ∧
      openPackage someCodec stream = .ok p ∧ (p.readAll [(8, 0), (8, 8)]).1 = [1, 2] ∧
      (p.readAll [(8, 0), (8, 8)]).2.verify byteSum = .ok () ∧
      ((p.readAll [(8, 0), (8, 8)]).1.length = hefLen stream ∧
        headerDigest stream =
          (byteSum (jsonSection stream ++ (p.readAll [(8, 0), (8, 8)]).1)).val ↔
      hefLen stream < 2 ^ 63 ∧
        packageHeaderSize + jsonLen stream + hefLen stream ≤ stream.length) := by
  obtain ⟨roundtrip, sound⟩ := package_format someCodec byteSum
  obtain ⟨stream, p, written, opened, -, reads⟩ :=
    roundtrip someMeta [0x7b, 0x7d] [1, 2] (by decide) (by decide +kernel) (by decide) (by decide)
      (by decide)
  obtain ⟨delivered, verified⟩ := reads [(8, 0), (8, 8)] (by decide) (by decide)
  exact ⟨stream, p, written, opened, delivered, verified, sound stream p _ opened verified⟩

/-- A package that is cut off after two of the five bytes of its HEF, with their digest. -/
def cutPackage : List UInt8 := packageWith [0x7b, 0x7d] 5 (byteSum [0x7b, 0x7d, 1, 2]) [1, 2]

/-- A package whose length is negative as an `int64`, with the digest of the metadata. -/
def negativePackage : List UInt8 := packageWith [0x7b, 0x7d] (2 ^ 63) (byteSum [0x7b, 0x7d]) [1, 2]

/-- Both are verified, and neither has delivered as many bytes as its header says. -/
theorem short_packages_verified : (∃ p, openPackage someCodec cutPackage = .ok p ∧
      (p.readAll [(8, 8), (8, 8)]).2.verify byteSum = .ok () ∧
      (p.readAll [(8, 8), (8, 8)]).1.length = 2 ∧ hefLen cutPackage = 5) ∧
    ∃ p, openPackage someCodec negativePackage = .ok p ∧
      (p.readAll [(8, 8), (8, 8)]).2.verify byteSum = .ok () ∧
      (p.readAll [(8, 8), (8, 8)]).1.length = 0 ∧ hefLen negativePackage = 2 ^ 63 := by
  have encoded : someCodec.encode someMeta.current = some [0x7b, 0x7d] := by decide +kernel
  have small : [0x7b, 0x7d].length ≤ maxPackageJSONBytes := by decide
  have named : someMeta.hef.filename ≠ "" := by decide
  refine ⟨⟨_, openPackage_packageWith encoded small named (by decide) (by decide), ?_⟩,
    ⟨_, openPackage_packageWith encoded small named (by decide) (by decide), ?_⟩⟩
  · exact ⟨PackageReader.verify_ok_iff.mpr (by decide +kernel), by decide +kernel,
      hefLen_packageWith (by decide)⟩
  · exact ⟨PackageReader.verify_ok_iff.mpr (by decide +kernel), by decide +kernel,
      hefLen_packageWith (by decide)⟩

end Samples

end NeoRuntime.PlatformApi
