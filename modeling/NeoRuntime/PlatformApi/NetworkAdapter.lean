import NeoRuntime.Lib.Text
import NeoRuntime.PlatformApi.Config

/-!
# The network adapter

`Adapter` (platform/platform-api/adapters/network/adapter.go) projects the settings of an interface
to a file of its own, `10-<iface>.network`, and to the file of all interfaces,
`/etc/network/interfaces`.  The live system is the files.  Each step on the disk has its fate;
`json.Unmarshal` and `net.ParseIP` are parameters.
-/

namespace NeoRuntime.PlatformApi.Network

/-- A path by the segments from its end on. -/
abbrev Location := List (List Char)

/-- `config`, without the MAC address, which the adapter does not look at. -/
structure NetworkConfig where
  interface : String
  mode : String
  ipAddress : String
  subnetMask : String
  gateway : String
  dns1 : String
  dns2 : String
  deriving DecidableEq, Repr

/-- `json.Unmarshal` into a `config`, and `net.ParseIP` with the sixteen bytes of its result. -/
structure NetLib where
  unmarshal : String → Except String NetworkConfig
  parseIP : String → Option (List UInt8)

/-! ## Rendering -/

/-- `To4`: the last four bytes of an address that embeds one of version 4. -/
def to4 (ip : List UInt8) : List UInt8 :=
  if ip.take 12 = List.replicate 10 0 ++ [0xff, 0xff] then ip.drop 12 else []

/-- `IPMask.Size`: the ones in front, or 0 if there are others. -/
def maskSize (mask : List UInt8) : ℕ :=
  let bits := mask.flatMap fun b => (List.range 8).map fun i => b.toNat.testBit (7 - i)
  if (bits.dropWhile id).any id then 0 else (bits.takeWhile id).length

def maskToPrefix (lib : NetLib) (mask : String) : ℕ :=
  match lib.parseIP mask with
  | none => 0
  | some ip => maskSize (to4 ip)

/-- A line that is left out if its value is empty. -/
def optionalLine (start value : String) : String :=
  if value = "" then "" else start ++ value ++ "\n"

def renderNetwork (lib : NetLib) (cfg : NetworkConfig) (iface : String) : String :=
  "# Network configuration managed by AIPC Platform\n" ++ "[Match]\n" ++
    "Name=" ++ iface ++ "\n\n" ++ "[Network]\n" ++
    if cfg.mode = "dhcp" then "DHCP=yes\n"
    else
      "DHCP=no\n" ++
        (if 0 < maskToPrefix lib cfg.subnetMask then
          "Address=" ++ cfg.ipAddress ++ "/" ++ toString (maskToPrefix lib cfg.subnetMask) ++ "\n"
        else "Address=" ++ cfg.ipAddress ++ "\n") ++
        optionalLine "Gateway=" cfg.gateway ++ optionalLine "DNS=" cfg.dns1 ++
        optionalLine "DNS=" cfg.dns2

variable (cfg : NetworkConfig)

/-- The part of `renderInterfaces` that is about the interface. -/
def interfaceStanza (iface : String) : String :=
  "auto " ++ iface ++ "\n" ++
    if cfg.mode = "dhcp" then "iface " ++ iface ++ " inet dhcp\n"
    else
      "iface " ++ iface ++ " inet static\n" ++ "\taddress " ++ cfg.ipAddress ++ "\n" ++
        "\tnetmask " ++ cfg.subnetMask ++ "\n" ++ optionalLine "\tgateway " cfg.gateway ++
        if cfg.dns1 = "" then ""
        else "\tdns-nameservers " ++ cfg.dns1 ++
          (if cfg.dns2 = "" then "" else " " ++ cfg.dns2) ++ "\n"

/-- `renderInterfaces`: the whole file, with the one interface. -/
def renderInterfaces (iface : String) : String :=
  "# Interfaces file managed by AIPC Platform\n" ++ "auto lo\n" ++ "iface lo inet loopback\n\n" ++
    interfaceStanza cfg iface

/-! ## The adapter -/

abbrev Files := Location → Option String

/-- `rendered`. -/
structure RenderedNetwork where
  networkBytes : String
  interfacesBytes : String
  iface : String
  deriving DecidableEq, Repr

structure BackupState where
  networkBytes : Option String
  interfacesBytes : Option String
  deriving DecidableEq, Repr

def configPath (networkDir : Location) (iface : String) : Location :=
  let name := if iface = "" then "eth0" else iface
  (Text.segments ("10-" ++ name ++ ".network").toList).foldl (Text.cleanSegment true) networkDir

/-- The two places of the adapter; the shared file is not the file of an interface. -/
structure NetworkPaths where
  networkDir : Location
  interfacesPath : Location
  apart : ∀ iface, configPath networkDir iface ≠ interfacesPath

inductive DiskStep where
  | readNetwork
  | readInterfaces
  | mkdirNetwork
  | writeNetwork
  | mkdirInterfaces
  | writeInterfaces
  | restoreNetwork
  | restoreInterfaces
  deriving DecidableEq, Repr

abbrev DiskFates := ℕ → DiskStep → Fate

section

variable (lib : NetLib) (paths : NetworkPaths)

/-- The interface that a desired value names, or else the key. -/
def ifaceOf (key : String) : String :=
  if cfg.interface = "" then key else cfg.interface

def parses (ip : String) : Bool := (lib.parseIP ip).isSome

def validate (desired : String) : Except String Unit :=
  match lib.unmarshal desired with
  | .error e => .error ("network: invalid desired json: " ++ e)
  | .ok cfg =>
    if cfg.mode ≠ "dhcp" ∧ cfg.mode ≠ "static" then .error "network: mode must be dhcp or static"
    else if cfg.mode = "static" ∧ (cfg.ipAddress = "" ∨ cfg.subnetMask = "") then
      .error ("network: missing required static field: " ++
        "ip_address and subnet_mask required for static")
    else if cfg.mode = "static" ∧ (!parses lib cfg.ipAddress || !parses lib cfg.subnetMask) then
      .error "network: invalid ip format"
    else if cfg.mode = "static" ∧ cfg.gateway ≠ "" ∧ !parses lib cfg.gateway then
      .error "network: invalid ip format"
    else if cfg.dns1 ≠ "" ∧ !parses lib cfg.dns1 then .error "network: invalid ip format"
    else if cfg.dns2 ≠ "" ∧ !parses lib cfg.dns2 then .error "network: invalid ip format"
    else .ok ()

def backup (fates : DiskStep → Fate) (key : String) (files : Files) : Except String BackupState :=
  if fates .readNetwork ≠ .done then .error "backup .network"
  else if fates .readInterfaces ≠ .done then .error "backup interfaces"
  else .ok
    { networkBytes := files (configPath paths.networkDir key)
      interfacesBytes := files paths.interfacesPath }

def render (key desired : String) : Except String RenderedNetwork :=
  match lib.unmarshal desired with
  | .error e => .error ("network: invalid desired json: " ++ e)
  | .ok cfg => .ok
    { networkBytes := renderNetwork lib cfg (ifaceOf cfg key)
      interfacesBytes := renderInterfaces cfg (ifaceOf cfg key)
      iface := ifaceOf cfg key }

/-- A write or removal of a file, which may fail before or after it takes effect. -/
def setFile (fate : Fate) (path : Location) (content : Option String) (files : Files) :
    Bool × Files :=
  fate.apply false files (true, Function.update files path content)

/-- `Apply`: one file after the other. -/
def apply (fates : DiskStep → Fate) (r : RenderedNetwork) (files : Files) :
    Except String Unit × Files :=
  if fates .mkdirNetwork ≠ .done then (.error "mkdir", files)
  else
    let (ok, files) :=
      setFile (fates .writeNetwork) (configPath paths.networkDir r.iface) r.networkBytes files
    if !ok then (.error "write .network", files)
    else if fates .mkdirInterfaces ≠ .done then (.error "mkdir", files)
    else
      let (ok, files) := setFile (fates .writeInterfaces) paths.interfacesPath r.interfacesBytes files
      if !ok then (.error "write interfaces", files) else (.ok (), files)

/-- `Verify`, which reads the interface's own file only. -/
def verify (fates : DiskStep → Fate) (key desired : String) (files : Files) : Except String Unit :=
  match lib.unmarshal desired with
  | .error e => .error ("network: invalid desired json: " ++ e)
  | .ok cfg =>
    if fates .readNetwork ≠ .done then .error "verify: read .network"
    else
      match files (configPath paths.networkDir (ifaceOf cfg key)) with
      | none => .error "verify: read .network"
      | some got =>
        if got ≠ renderNetwork lib cfg (ifaceOf cfg key) then
          .error "verify: .network content mismatch"
        else .ok ()

/-- `Restore`; the error of a removal is ignored. -/
def restore (fates : DiskStep → Fate) (key : String) (b : BackupState) (files : Files) :
    Except String Unit × Files :=
  let (ok, files) :=
    setFile (fates .restoreNetwork) (configPath paths.networkDir key) b.networkBytes files
  if !ok ∧ b.networkBytes.isSome then (.error "restore .network", files)
  else
    let (ok, files) :=
      setFile (fates .restoreInterfaces) paths.interfacesPath b.interfacesBytes files
    if !ok ∧ b.interfacesBytes.isSome then (.error "restore interfaces", files) else (.ok (), files)

def networkAdapter (fates : DiskFates) : Adapter Files BackupState RenderedNetwork where
  normalize := none
  snapshot := none
  validate _ _ desired _ := validate lib desired
  backup t key files := backup paths (fates t) key files
  render _ key desired _ := render lib key desired
  apply t _ r files := apply paths (fates t) r files
  verify t key desired files := verify lib paths (fates t) key desired files
  restore t key b files := restore paths (fates t) key b files

end

end NeoRuntime.PlatformApi.Network
