import NeoRuntime.Lib.Bytes

/-!
# Model packages

A model with its metadata in one file (platform/platform-api/storage/modelpackage.go): a header of
52 bytes, the metadata as JSON, and the HEF.  The JSON codec and sha256 are parameters.
-/

namespace NeoRuntime.PlatformApi

abbrev Sha256Sum := { sum : List UInt8 // sum.length = 32 }

structure PackageHef where
  filename : String
  sha256 : String
  deriving DecidableEq, Repr

structure PackageNetwork where
  name : String
  inputWidth : ℤ
  inputHeight : ℤ
  deriving DecidableEq, Repr

structure PackageMeta where
  formatVersion : UInt16
  modelId : String
  name : String
  modelType : String
  outputMode : String
  /-- `json.RawMessage`. -/
  config : List UInt8
  hef : PackageHef
  network : PackageNetwork
  outputFormat : String
  deriving DecidableEq, Repr

/-- `json.MarshalIndent`, and the strict decoder with whether the value is the last one. -/
structure MetaCodec where
  encode : PackageMeta → Option (List UInt8)
  decode : List UInt8 → Option (PackageMeta × Bool)
  decode_encode : ∀ info json, encode info = some json → decode json = some (info, true)
  decode_nil : decode [] = none

def packageMagic : List UInt8 := [0x41, 0x4d, 0x50, 0x4b]

def packageVersion : ℕ := 1

def packageHeaderSize : ℕ := 4 + 2 + 2 + 4 + 8 + 32

def maxPackageJSONBytes : ℕ := 2 ^ 20

def isPackageFile (header : List UInt8) : Bool :=
  packageMagic.length ≤ header.length && header.take packageMagic.length = packageMagic

def packageHeader (jsonLen hefLen : ℕ) (sum : Sha256Sum) : List UInt8 :=
  packageMagic ++ beBytes 2 packageVersion ++ beBytes 2 0 ++ beBytes 4 jsonLen ++
    beBytes 8 hefLen ++ sum.val

def PackageMeta.current (info : PackageMeta) : PackageMeta :=
  { info with formatVersion := UInt16.ofNat packageVersion }

/-- `WritePackage` of a HEF that is read from its start. -/
def writePackage (codec : MetaCodec) (sha256 : List UInt8 → Sha256Sum) (info : PackageMeta)
    (hef : List UInt8) : Except String (List UInt8) :=
  match codec.encode info.current with
  | none => .error "failed to marshal package metadata"
  | some json =>
    if maxPackageJSONBytes < json.length then
      .error s!"package metadata too large ({json.length} bytes)"
    else .ok (packageHeader json.length hef.length (sha256 (json ++ hef)) ++ json ++ hef)

/-- The bytes `[start, stop)`. -/
def slice (bytes : List UInt8) (start stop : ℕ) : List UInt8 := (bytes.drop start).take (stop - start)

/-! ## The fields of a package -/

variable (stream : List UInt8)

def jsonLen : ℕ := ofBeBytes (slice stream 8 12)

def hefLen : ℕ := ofBeBytes (slice stream 12 20)

def headerDigest : List UInt8 := slice stream 20 packageHeaderSize

def jsonSection : List UInt8 :=
  slice stream packageHeaderSize (packageHeaderSize + jsonLen stream)

/-! ## Reading -/

/-- The metadata, what is left of the stream and of the limit, and the bytes hashed so far. -/
structure PackageReader where
  info : PackageMeta
  source : List UInt8
  limit : ℤ
  hashed : List UInt8
  headerDigest : List UInt8
  deriving DecidableEq, Repr

def openPackage (codec : MetaCodec) (stream : List UInt8) : Except String PackageReader :=
  if stream.length < packageHeaderSize then .error "not a model package (header too short)"
  else if !isPackageFile (slice stream 0 4) then .error "not a model package (bad magic)"
  else
    let version := ofBeBytes (slice stream 4 6)
    let flags := ofBeBytes (slice stream 6 8)
    if version ≠ packageVersion then
      .error s!"unsupported model package version {version} (supported: {packageVersion})"
    else if flags ≠ 0 then .error s!"unsupported model package flags {flags}"
    else if jsonLen stream = 0 ∨ maxPackageJSONBytes < jsonLen stream then
      .error s!"model package metadata length {jsonLen stream} out of range"
    else if hefLen stream = 0 then .error "model package contains no HEF data"
    else if stream.length < packageHeaderSize + jsonLen stream then
      .error "model package metadata truncated"
    else
      match codec.decode (jsonSection stream) with
      | none => .error "model package metadata rejected (strict schema)"
      | some (info, last) =>
        if !last then .error "model package metadata must be exactly one JSON object"
        else if info.formatVersion.toNat ≠ packageVersion then
          .error (s!"unsupported metadata format_version {info.formatVersion} " ++
            s!"(supported: {packageVersion})")
        else if info.hef.filename = "" then .error "model package metadata missing hef.filename"
        else .ok
          { info
            source := stream.drop (packageHeaderSize + jsonLen stream)
            -- the conversion to `int64`
            limit := (hefLen stream : ℤ).bmod (2 ^ 64)
            hashed := jsonSection stream
            headerDigest := headerDigest stream }

namespace PackageReader

/-- A `Read` of what `HEF` returns, of `want` bytes, when `ready + 1` bytes are at hand. -/
def read (p : PackageReader) (want ready : ℕ) : List UInt8 × PackageReader :=
  if p.limit ≤ 0 then ([], p)
  else
    let n := min (min want p.limit.toNat) (ready + 1)
    let chunk := p.source.take n
    (chunk, { p with
      source := p.source.drop n, limit := p.limit - chunk.length, hashed := p.hashed ++ chunk })

/-- A series of calls of `Read`, with all that they deliver. -/
def readAll (p : PackageReader) : List (ℕ × ℕ) → List UInt8 × PackageReader
  | [] => ([], p)
  | (want, ready) :: reads =>
    let (chunk, p) := p.read want ready
    let (chunks, p) := p.readAll reads
    (chunk ++ chunks, p)

/-- `Verify`, which looks for one more byte first. -/
def verify (sha256 : List UInt8 → Sha256Sum) (p : PackageReader) : Except String Unit :=
  let (probe, p) := p.read 1 0
  if 0 < probe.length then
    .error "model package HEF section was not fully consumed before Verify"
  else if (sha256 p.hashed).val ≠ p.headerDigest then
    .error "model package integrity check failed (sha256 mismatch — file corrupted or truncated)"
  else .ok ()

end PackageReader

end NeoRuntime.PlatformApi
