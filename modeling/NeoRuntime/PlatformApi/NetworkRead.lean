import Mathlib.Data.List.TakeWhile
import NeoRuntime.Lib.Run
import NeoRuntime.PlatformApi.NetworkAdapter

/-!
# The two network files, read back

`renderNetwork` and `renderInterfaces` (platform/platform-api/adapters/network/adapter.go) write the
same settings in two forms.  Read line by line, they differ for a mask that is not a block of ones,
for a second DNS server without a first, and for an interface name with a line break
(`network_texts_agree_iff`).
-/

namespace NeoRuntime.PlatformApi.Network

/-! ## Readers -/

inductive IpMode where
  | dhcp
  | static
  deriving DecidableEq, Repr

/-- What a file says about the interface. -/
structure NetSettings where
  mode : Option IpMode := none
  address : Option (List Char) := none
  prefixLen : Option ℕ := none
  gateway : Option (List Char) := none
  dns : List (List Char) := []
  deriving DecidableEq, Repr

def linesOf (text : String) : List (List Char) := text.toList.splitOn '\n'

def optionOf (sep : Char) (line : List Char) : List Char × List Char :=
  (line.takeWhile (· ≠ sep), (line.dropWhile (· ≠ sep)).drop 1)

def readDecimal (digits : List Char) : Option ℕ :=
  if digits = [] then none else some (Nat.ofDigitChars 10 digits 0)

def readNetworkLine (s : NetSettings) (line : List Char) : NetSettings :=
  let (key, value) := optionOf '=' line
  if key = "DHCP".toList then
    { s with mode := some (if value = "yes".toList then .dhcp else .static) }
  else if key = "Address".toList then
    let (address, bits) := optionOf '/' value
    { s with address := some address, prefixLen := readDecimal bits }
  else if key = "Gateway".toList then { s with gateway := some value }
  else if key = "DNS".toList then { s with dns := s.dns ++ [value] }
  else s

def readNetwork (text : String) : NetSettings := (linesOf text).foldl readNetworkLine {}

def bitsOf (bytes : List UInt8) : List Bool :=
  bytes.flatMap fun b => (List.range 8).map fun i => b.toNat.testBit (7 - i)

def maskOnes (ip : List UInt8) : ℕ :=
  (bitsOf (if to4 ip = [] then ip else to4 ip)).count true

/-- A line of ifupdown, for the interface `iface`. -/
def readInterfacesLine (lib : NetLib) (iface : String) (s : NetSettings) (line : List Char) :
    NetSettings :=
  let (key, value) := optionOf ' ' line
  if key = "iface".toList then
    if value = iface.toList ++ " inet dhcp".toList then { s with mode := some .dhcp }
    else if value = iface.toList ++ " inet static".toList then { s with mode := some .static }
    else s
  else if key = "\taddress".toList then { s with address := some value }
  else if key = "\tnetmask".toList then
    { s with prefixLen := (lib.parseIP (String.ofList value)).map maskOnes }
  else if key = "\tgateway".toList then { s with gateway := some value }
  else if key = "\tdns-nameservers".toList then { s with dns := s.dns ++ value.splitOn ' ' }
  else s

def readInterfaces (lib : NetLib) (iface : String) (text : String) : NetSettings :=
  (linesOf text).foldl (readInterfacesLine lib iface) {}

/-! ## The texts as lines -/

def unlines (ls : List (List Char)) : List Char := ls.flatMap (· ++ ['\n'])

theorem splitOn_unlines (ls : List (List Char)) :
    (unlines ls).splitOn '\n' = ls.flatMap (·.splitOn '\n') ++ [[]] := by
  induction ls with
  | nil => rfl
  | cons l ls ih =>
    rw [unlines, List.flatMap_cons, List.append_assoc, List.singleton_append,
      List.splitOn_append_cons_self, List.flatMap_cons, List.append_assoc, ← ih]
    rfl

/-- A line that is left out if its value is empty. -/
def optionalEntry (start : List Char) (value : String) : List (List Char) :=
  if value = "" then [] else [start ++ value.toList]

theorem optionalLine_toList (start value : String) :
    (optionalLine start value).toList = unlines (optionalEntry start.toList value) := by
  unfold optionalLine optionalEntry
  split_ifs <;> simp [unlines]

section

variable (lib : NetLib) (cfg : NetworkConfig) (iface : String)

def networkHead : List (List Char) :=
  ["# Network configuration managed by AIPC Platform".toList, "[Match]".toList,
    "Name=".toList ++ iface.toList, [], "[Network]".toList]

def networkBody : List (List Char) :=
  if cfg.mode = "dhcp" then ["DHCP=yes".toList]
  else
    ["DHCP=no".toList, "Address=".toList ++ cfg.ipAddress.toList ++
      if 0 < maskToPrefix lib cfg.subnetMask then
        '/' :: (toString (maskToPrefix lib cfg.subnetMask)).toList
      else []] ++
      optionalEntry "Gateway=".toList cfg.gateway ++ optionalEntry "DNS=".toList cfg.dns1 ++
      optionalEntry "DNS=".toList cfg.dns2

theorem renderNetwork_lines :
    (renderNetwork lib cfg iface).toList = unlines (networkHead iface ++ networkBody lib cfg) := by
  unfold renderNetwork networkBody
  split_ifs <;> simp [unlines, networkHead, optionalLine_toList]

def interfacesHead : List (List Char) :=
  ["# Interfaces file managed by AIPC Platform".toList, "auto lo".toList,
    "iface lo inet loopback".toList, [], "auto ".toList ++ iface.toList]

def interfacesBody : List (List Char) :=
  if cfg.mode = "dhcp" then ["iface ".toList ++ iface.toList ++ " inet dhcp".toList]
  else
    ["iface ".toList ++ iface.toList ++ " inet static".toList,
      "\taddress ".toList ++ cfg.ipAddress.toList, "\tnetmask ".toList ++ cfg.subnetMask.toList] ++
      optionalEntry "\tgateway ".toList cfg.gateway ++
      if cfg.dns1 = "" then []
      else ["\tdns-nameservers ".toList ++ cfg.dns1.toList ++
        if cfg.dns2 = "" then [] else ' ' :: cfg.dns2.toList]

theorem renderInterfaces_lines : (renderInterfaces cfg iface).toList =
      unlines (interfacesHead iface ++ interfacesBody cfg iface) := by
  unfold renderInterfaces interfaceStanza interfacesBody
  split_ifs <;> simp [unlines, interfacesHead, optionalLine_toList]

end

/-! ## What the readers find -/

/-- What `net.ParseIP` accepts is written with hexadecimal digits, dots and colons. -/
def NetLib.Lawful (lib : NetLib) : Prop :=
  ∀ text, (lib.parseIP text).isSome = true →
    ∀ c ∈ text.toList, c ≠ '\n' ∧ c ≠ '/' ∧ c ≠ ' '

/-- A text that can be written as a value of a line. -/
def CleanText (text : String) : Prop := '\n' ∉ text.toList ∧ '/' ∉ text.toList ∧ ' ' ∉ text.toList

theorem NetLib.Lawful.clean {lib : NetLib} (lawful : lib.Lawful) {text : String}
    (accepted : text = "" ∨ parses lib text = true) : CleanText text := by
  obtain rfl | parsed := accepted
  · simp [CleanText]
  · have chars := lawful text parsed
    exact ⟨fun mem => (chars _ mem).1 rfl, fun mem => (chars _ mem).2.1 rfl,
      fun mem => (chars _ mem).2.2 rfl⟩

/-- What `Validate` has found. -/
structure Accepted (lib : NetLib) (cfg : NetworkConfig) : Prop where
  mode : cfg.mode = "dhcp" ∨ cfg.mode = "static"
  static : cfg.mode = "static" → parses lib cfg.ipAddress = true ∧
    parses lib cfg.subnetMask = true ∧ (cfg.gateway = "" ∨ parses lib cfg.gateway = true)
  dns1 : cfg.dns1 = "" ∨ parses lib cfg.dns1 = true
  dns2 : cfg.dns2 = "" ∨ parses lib cfg.dns2 = true

theorem accepted_of_validate {lib : NetLib} {desired : String} {cfg : NetworkConfig}
    (parsed : lib.unmarshal desired = .ok cfg) (valid : validate lib desired = .ok ()) :
    Accepted lib cfg := by
  simp only [validate, parsed] at valid
  split_ifs at valid with mode missing address gateway dns1 dns2
  simp only [not_and, ne_eq, not_not, Bool.or_eq_true, Bool.not_eq_true', not_or,
    Bool.not_eq_false] at mode address gateway dns1 dns2
  refine ⟨?_, fun static => ⟨(address static).1, (address static).2, ?_⟩, ?_, ?_⟩
  · by_cases dhcp : cfg.mode = "dhcp"
    · exact .inl dhcp
    · exact .inr (mode dhcp)
  · by_cases empty : cfg.gateway = ""
    · exact .inl empty
    · exact .inr (gateway static empty)
  · by_cases empty : cfg.dns1 = ""
    · exact .inl empty
    · exact .inr (dns1 empty)
  · by_cases empty : cfg.dns2 = ""
    · exact .inl empty
    · exact .inr (dns2 empty)

theorem optionOf_append {sep : Char} {key : List Char} (none : sep ∉ key) (value : List Char) :
    optionOf sep (key ++ sep :: value) = (key, value) := by
  have keyed : ∀ c ∈ key, decide (c ≠ sep) = true := fun c mem =>
    decide_eq_true fun eq => none (eq ▸ mem)
  rw [optionOf, List.takeWhile_append_of_pos keyed, List.dropWhile_append_of_pos keyed]
  simp

theorem optionOf_of_notMem {sep : Char} {line : List Char} (none : sep ∉ line) :
    optionOf sep line = (line, []) := by
  have keyed : ∀ c ∈ line, decide (c ≠ sep) = true := fun c mem =>
    decide_eq_true fun eq => none (eq ▸ mem)
  rw [optionOf, List.takeWhile_eq_self_iff.2 keyed, List.dropWhile_eq_nil_iff.2 keyed]
  rfl

variable (value : String)

def optionalText : List (List Char) := if value = "" then [] else [value.toList]

section

variable {lib : NetLib} {cfg : NetworkConfig} {iface : String}

def networkSettings (lib : NetLib) (cfg : NetworkConfig) : NetSettings :=
  if cfg.mode = "dhcp" then { mode := some .dhcp }
  else
    { mode := some .static
      address := some cfg.ipAddress.toList
      prefixLen :=
        if 0 < maskToPrefix lib cfg.subnetMask then some (maskToPrefix lib cfg.subnetMask) else none
      gateway := (optionalText cfg.gateway).head?
      dns := optionalText cfg.dns1 ++ optionalText cfg.dns2 }

def interfacesSettings (lib : NetLib) (cfg : NetworkConfig) : NetSettings :=
  if cfg.mode = "dhcp" then { mode := some .dhcp }
  else
    { mode := some .static
      address := some cfg.ipAddress.toList
      prefixLen := (lib.parseIP cfg.subnetMask).map maskOnes
      gateway := (optionalText cfg.gateway).head?
      dns := if cfg.dns1 = "" then [] else cfg.dns1.toList :: optionalText cfg.dns2 }

theorem readNetwork_head (iface : String) (s : NetSettings) :
    (networkHead iface).foldl readNetworkLine s = s := by
  simp [networkHead, readNetworkLine, optionOf]

theorem readNetworkLine_address {ip : String} (clean : CleanText ip) (n : ℕ) (s : NetSettings) :
    readNetworkLine s ("Address=".toList ++ ip.toList ++
        if 0 < n then '/' :: (toString n).toList else []) =
      { s with address := some ip.toList, prefixLen := if 0 < n then some n else none } := by
  have line (value : List Char) : readNetworkLine s ("Address=".toList ++ value) =
      { s with
        address := some (optionOf '/' value).1
        prefixLen := readDecimal (optionOf '/' value).2 } := by
    simp [readNetworkLine, optionOf]
  rw [List.append_assoc, line]
  split_ifs
  · rw [optionOf_append clean.2.1]
    simp [readDecimal, Nat.toDigits_ne_nil, Nat.ofDigitChars_ten_toDigits]
  · rw [List.append_nil, optionOf_of_notMem clean.2.1]
    rfl

variable (s : NetSettings)

theorem readNetwork_gateway (none : s.gateway = none) :
    (optionalEntry "Gateway=".toList value).foldl readNetworkLine s =
      { s with gateway := (optionalText value).head? } := by
  unfold optionalEntry optionalText
  split_ifs
  · simp [← none]
  · simp [readNetworkLine, optionOf]

theorem readNetwork_dns : (optionalEntry "DNS=".toList value).foldl readNetworkLine s =
      { s with dns := s.dns ++ optionalText value } := by
  unfold optionalEntry optionalText
  split_ifs
  · simp
  · simp [readNetworkLine, optionOf]

theorem readNetwork_body (clean : cfg.mode ≠ "dhcp" → CleanText cfg.ipAddress) :
    (networkBody lib cfg).foldl readNetworkLine {} = networkSettings lib cfg := by
  unfold networkBody networkSettings
  by_cases dhcp : cfg.mode = "dhcp"
  · simp [dhcp, readNetworkLine, optionOf]
  · have no (s : NetSettings) : readNetworkLine s "DHCP=no".toList =
        { s with mode := some .static } := by simp [readNetworkLine, optionOf]
    simp only [if_neg dhcp, List.foldl_append, List.foldl_cons, List.foldl_nil, no,
      readNetworkLine_address (clean dhcp), readNetwork_dns]
    rw [readNetwork_gateway _ _ rfl]
    rfl

theorem readNetwork_eq (single : ∀ l ∈ networkHead iface ++ networkBody lib cfg, '\n' ∉ l)
    (clean : cfg.mode ≠ "dhcp" → CleanText cfg.ipAddress) :
    readNetwork (renderNetwork lib cfg iface) = networkSettings lib cfg := by
  rw [readNetwork, linesOf, renderNetwork_lines, splitOn_unlines, Text.flatMap_splitOn single,
    List.foldl_append, List.foldl_append, readNetwork_head, readNetwork_body clean]
  simp [readNetworkLine, optionOf]

theorem readInterfaces_head (lib : NetLib) (iface : String) (s : NetSettings) :
    (interfacesHead iface).foldl (readInterfacesLine lib iface) s = s := by
  have loopback (s : NetSettings) : readInterfacesLine lib iface s "iface lo inet loopback".toList = s := by
    have last (ending : List Char) (c : Char) (other : 'k' ≠ c) :
        "lo inet loopback".toList ≠ iface.toList ++ (ending ++ [c]) := by
      intro eq
      have same := congrArg List.getLast? eq
      rw [← List.append_assoc, List.getLast?_concat] at same
      exact other (by simpa using same)
    have dhcp := last " inet dhc".toList 'p' (by decide)
    have static := last " inet stati".toList 'c' (by decide)
    have key : optionOf ' ' "iface lo inet loopback".toList =
        ("iface".toList, "lo inet loopback".toList) := by simp [optionOf]
    rw [readInterfacesLine, key]
    dsimp only
    rw [if_pos rfl, if_neg, if_neg]
    · simpa using static
    · simpa using dhcp
  simp only [interfacesHead, List.foldl_cons, List.foldl_nil, loopback]
  simp [readInterfacesLine, optionOf]

theorem readInterfacesLine_iface :
    readInterfacesLine lib iface s ("iface ".toList ++ iface.toList ++ " inet dhcp".toList) =
      { s with mode := some .dhcp } ∧
    readInterfacesLine lib iface s ("iface ".toList ++ iface.toList ++ " inet static".toList) =
      { s with mode := some .static } := by
  simp [readInterfacesLine, optionOf]

theorem readInterfaces_gateway (none : s.gateway = none) :
    (optionalEntry "\tgateway ".toList value).foldl (readInterfacesLine lib iface) s =
      { s with gateway := (optionalText value).head? } := by
  unfold optionalEntry optionalText
  split_ifs
  · simp [← none]
  · simp [readInterfacesLine, optionOf]

theorem readInterfacesLine_dns {dns1 dns2 : String} (clean1 : CleanText dns1)
    (clean2 : CleanText dns2) (s : NetSettings) :
    readInterfacesLine lib iface s ("\tdns-nameservers ".toList ++ dns1.toList ++
        if dns2 = "" then [] else ' ' :: dns2.toList) =
      { s with dns := s.dns ++ dns1.toList :: optionalText dns2 } := by
  have line (value : List Char) :
      readInterfacesLine lib iface s ("\tdns-nameservers ".toList ++ value) =
        { s with dns := s.dns ++ value.splitOn ' ' } := by
    simp [readInterfacesLine, optionOf]
  rw [List.append_assoc, line, optionalText]
  split_ifs
  · rw [List.append_nil, List.splitOn_eq_singleton clean1.2.2]
  · rw [List.splitOn_append_cons_self_of_not_mem clean1.2.2,
      List.splitOn_eq_singleton clean2.2.2]

theorem readInterfaces_body (dns1 : CleanText cfg.dns1) (dns2 : CleanText cfg.dns2) :
    (interfacesBody cfg iface).foldl (readInterfacesLine lib iface) {} =
      interfacesSettings lib cfg := by
  have address (s : NetSettings) (value : String) :
      readInterfacesLine lib iface s ("\taddress ".toList ++ value.toList) =
        { s with address := some value.toList } := by simp [readInterfacesLine, optionOf]
  have netmask (s : NetSettings) (value : String) :
      readInterfacesLine lib iface s ("\tnetmask ".toList ++ value.toList) =
        { s with prefixLen := (lib.parseIP value).map maskOnes } := by
    simp [readInterfacesLine, optionOf]
  unfold interfacesBody interfacesSettings
  by_cases dhcp : cfg.mode = "dhcp"
  · simp only [if_pos dhcp, List.foldl_cons, List.foldl_nil, (readInterfacesLine_iface _).1]
  · simp only [if_neg dhcp, List.foldl_append, List.foldl_cons, List.foldl_nil,
      (readInterfacesLine_iface _).2, address, netmask]
    rw [readInterfaces_gateway _ _ rfl]
    by_cases first : cfg.dns1 = ""
    · simp only [if_pos first, List.foldl_nil]
    · simp only [if_neg first, List.foldl_cons, List.foldl_nil, readInterfacesLine_dns dns1 dns2]
      rfl

theorem readInterfaces_eq (single : ∀ l ∈ interfacesHead iface ++ interfacesBody cfg iface, '\n' ∉ l)
    (dns1 : CleanText cfg.dns1) (dns2 : CleanText cfg.dns2) :
    readInterfaces lib iface (renderInterfaces cfg iface) = interfacesSettings lib cfg := by
  rw [readInterfaces, linesOf, renderInterfaces_lines, splitOn_unlines, Text.flatMap_splitOn single,
    List.foldl_append, List.foldl_append, readInterfaces_head, readInterfaces_body dns1 dns2]
  simp [readInterfacesLine, optionOf]

/-- No line of the second file is taken for the interface. -/
theorem readInterfaces_broken (broken : '\n' ∈ iface.toList) (text : String) :
    (readInterfaces lib iface text).mode = none := by
  have step (ls : List (List Char)) (single : ∀ l ∈ ls, '\n' ∉ l) (s : NetSettings)
      (unset : s.mode = none) : (ls.foldl (readInterfacesLine lib iface) s).mode = none := by
    induction ls generalizing s with
    | nil => exact unset
    | cons l ls ih =>
      obtain ⟨first, rest⟩ := List.forall_mem_cons.1 single
      refine ih rest _ ?_
      have value : '\n' ∉ (optionOf ' ' l).2 := fun mem => first
        ((List.dropWhile_sublist _).subset ((List.drop_sublist _ _).subset mem))
      have other (ending : List Char) : (optionOf ' ' l).2 ≠ iface.toList ++ ending := fun eq =>
        value (eq ▸ List.mem_append_left _ broken)
      unfold readInterfacesLine
      dsimp only
      split_ifs with _ dhcp static
      · exact absurd dhcp (other _)
      · exact absurd static (other _)
      all_goals exact unset
  exact step _ (Text.notMem_of_mem_splitOn _) {} rfl

theorem readNetworkLine_mode (l : List Char) (some : s.mode.isSome = true) :
    (readNetworkLine s l).mode.isSome = true := by
  unfold readNetworkLine
  dsimp only
  split_ifs <;> first | rfl | exact some

theorem readNetwork_mode : (readNetwork (renderNetwork lib cfg iface)).mode.isSome = true := by
  have keep (ls : List (List Char)) (s : NetSettings) (some : s.mode.isSome = true) :
      (ls.foldl readNetworkLine s).mode.isSome = true :=
    foldl_inv (fun s => s.mode.isSome = true) (fun s l => readNetworkLine_mode s l) some ls
  obtain ⟨line, rest, body, sets⟩ : ∃ line rest, networkBody lib cfg = line :: rest ∧
      line.splitOn '\n' = [line] ∧ ∀ s, (readNetworkLine s line).mode.isSome = true := by
    unfold networkBody
    by_cases dhcp : cfg.mode = "dhcp"
    · rw [if_pos dhcp]
      exact ⟨_, _, rfl, List.splitOn_eq_singleton (by simp), fun s => by
        simp [readNetworkLine, optionOf]⟩
    · rw [if_neg dhcp]
      exact ⟨_, _, rfl, List.splitOn_eq_singleton (by simp), fun s => by
        simp [readNetworkLine, optionOf]⟩
  rw [readNetwork, linesOf, renderNetwork_lines, splitOn_unlines, List.foldl_append,
    List.flatMap_append, List.foldl_append, body, List.flatMap_cons, sets.1]
  refine keep [[]] _ ?_
  show (List.foldl readNetworkLine (readNetworkLine _ line) _).mode.isSome = true
  exact keep _ _ (sets.2 _)

/-! ## Masks -/

/-- A mask of version 4 that is a block of ones and then zeros. -/
def BlockMask (ip : List UInt8) : Prop :=
  ∃ ones zeros, 0 < ones ∧
    bitsOf (to4 ip) = List.replicate ones true ++ List.replicate zeros false

theorem maskSize_eq (mask : List UInt8) :
    maskSize mask = if ((bitsOf mask).dropWhile id).any id then 0
      else ((bitsOf mask).takeWhile id).length := rfl

theorem prefix_iff (ip : List UInt8) :
    0 < maskSize (to4 ip) ∧ maskSize (to4 ip) = maskOnes ip ↔ BlockMask ip := by
  constructor
  · rintro ⟨pos, -⟩
    rw [maskSize_eq] at pos
    split_ifs at pos with gap
    · exact absurd pos (lt_irrefl 0)
    · refine ⟨_, ((bitsOf (to4 ip)).dropWhile id).length, pos, ?_⟩
      have ones : (bitsOf (to4 ip)).takeWhile id = List.replicate _ true :=
        List.eq_replicate_iff.2 ⟨rfl, fun b mem => List.mem_takeWhile_imp mem⟩
      have zeros : (bitsOf (to4 ip)).dropWhile id = List.replicate _ false :=
        List.eq_replicate_iff.2 ⟨rfl, fun b mem => by
          simp only [List.any_eq_true, id, not_exists, not_and, Bool.not_eq_true] at gap
          exact gap b mem⟩
      rw [← ones, ← zeros, List.takeWhile_append_dropWhile]
  · rintro ⟨ones, zeros, pos, bits⟩
    have some : to4 ip ≠ [] := by
      intro empty
      have length := congrArg List.length bits
      rw [empty] at length
      simp [bitsOf] at length
      omega
    have size : maskSize (to4 ip) = ones := by
      rw [maskSize_eq, bits, List.takeWhile_append_of_pos (by simp),
        List.dropWhile_append_of_pos (by simp)]
      cases zeros <;> simp [List.replicate_succ]
    rw [size, maskOnes, if_neg some, bits]
    exact ⟨pos, by simp [List.count_replicate]⟩

end

/-- The two texts say the same, and the prefix is the number of ones of the mask. -/
def TextsAgree (lib : NetLib) (cfg : NetworkConfig) (iface : String) : Prop :=
  readNetwork (renderNetwork lib cfg iface) =
    readInterfaces lib iface (renderInterfaces cfg iface) ∧
  (cfg.mode = "static" → ∀ ip, lib.parseIP cfg.subnetMask = some ip →
    (readNetwork (renderNetwork lib cfg iface)).prefixLen = some (maskOnes ip))

/-- The files agree just when the name has no line break and, for a static address, the mask is a
block of ones and a second DNS server comes with a first. -/
theorem network_texts_agree_iff (lib : NetLib) (lawful : lib.Lawful) (desired key : String)
    (cfg : NetworkConfig) (parsed : lib.unmarshal desired = .ok cfg)
    (valid : validate lib desired = .ok ()) :
    TextsAgree lib cfg (ifaceOf cfg key) ↔
      '\n' ∉ (ifaceOf cfg key).toList ∧
        (cfg.mode = "static" → (∃ ip, lib.parseIP cfg.subnetMask = some ip ∧ BlockMask ip) ∧
          (cfg.dns1 = "" → cfg.dns2 = "")) := by
  have accepted := accepted_of_validate parsed valid
  generalize ifaceOf cfg key = iface
  have dns1 := lawful.clean accepted.dns1
  have dns2 := lawful.clean accepted.dns2
  by_cases broken : '\n' ∈ iface.toList
  · refine iff_of_false (fun agree => ?_) fun cond => cond.1 broken
    have mode : (readNetwork (renderNetwork lib cfg iface)).mode.isSome = true := readNetwork_mode
    rw [agree.1, readInterfaces_broken broken] at mode
    cases mode
  have digits (n : ℕ) : '\n' ∉ Nat.toDigits 10 n := fun mem =>
    absurd (Nat.isDigit_of_mem_toDigits (by omega) (by omega) mem) (by decide)
  obtain dhcp | static := accepted.mode
  · have other : cfg.mode ≠ "static" := by simp [dhcp]
    have network : readNetwork (renderNetwork lib cfg iface) = networkSettings lib cfg := by
      refine readNetwork_eq ?_ fun no => absurd dhcp no
      simp [networkHead, networkBody, dhcp, broken]
    have interfaces : readInterfaces lib iface (renderInterfaces cfg iface) =
        interfacesSettings lib cfg := by
      refine readInterfaces_eq ?_ dns1 dns2
      simp [interfacesHead, interfacesBody, dhcp, broken]
    refine iff_of_true ⟨?_, fun same => absurd same other⟩ ⟨broken, fun same => absurd same other⟩
    rw [network, interfaces, networkSettings, interfacesSettings, if_pos dhcp, if_pos dhcp]
  · have other : cfg.mode ≠ "dhcp" := by simp [static]
    obtain ⟨ipParsed, maskParsed, gatewayParsed⟩ := accepted.static static
    have ipClean := lawful.clean (.inr ipParsed)
    have maskClean := lawful.clean (.inr maskParsed)
    have gatewayClean := lawful.clean gatewayParsed
    obtain ⟨ip, mask⟩ := Option.isSome_iff_exists.1 maskParsed
    have network : readNetwork (renderNetwork lib cfg iface) = networkSettings lib cfg := by
      refine readNetwork_eq ?_ fun _ => ipClean
      unfold networkBody optionalEntry
      split_ifs <;> simp_all [networkHead, CleanText]
    have interfaces : readInterfaces lib iface (renderInterfaces cfg iface) =
        interfacesSettings lib cfg := by
      refine readInterfaces_eq ?_ dns1 dns2
      unfold interfacesBody optionalEntry
      split_ifs <;> simp_all [interfacesHead, CleanText]
    have sameLength : (if 0 < maskToPrefix lib cfg.subnetMask then
        some (maskToPrefix lib cfg.subnetMask) else none) = some (maskOnes ip) ↔ BlockMask ip := by
      have size : maskToPrefix lib cfg.subnetMask = maskSize (to4 ip) := by
        rw [maskToPrefix, mask]
      rw [← prefix_iff, size]
      split_ifs with pos <;> simp [pos]
    have sameDns : optionalText cfg.dns1 ++ optionalText cfg.dns2 =
        (if cfg.dns1 = "" then [] else cfg.dns1.toList :: optionalText cfg.dns2) ↔
        (cfg.dns1 = "" → cfg.dns2 = "") := by
      unfold optionalText
      by_cases first : cfg.dns1 = "" <;> by_cases second : cfg.dns2 = "" <;> simp [first, second]
    rw [TextsAgree, network, interfaces, networkSettings, interfacesSettings, if_neg other,
      if_neg other]
    simp only [mask, Option.map_some, NetSettings.mk.injEq, sameLength, sameDns, true_and,
      Option.some.injEq]
    constructor
    · rintro ⟨⟨block, dns⟩, -⟩
      exact ⟨broken, fun _ => ⟨⟨ip, rfl, block⟩, dns⟩⟩
    · rintro ⟨-, cond⟩
      obtain ⟨⟨_, rfl, block⟩, dns⟩ := cond static
      refine ⟨⟨block, dns⟩, ?_⟩
      rintro - _ rfl
      exact sameLength.2 block

/-! ## Two values -/

def sampleLib (cfg : NetworkConfig) : NetLib where
  unmarshal _ := .ok cfg
  parseIP text :=
    let v4 (bytes : List UInt8) := some (List.replicate 10 0 ++ [0xff, 0xff] ++ bytes)
    if text = "10.0.0.2" then v4 [10, 0, 0, 2]
    else if text = "255.255.255.0" then v4 [255, 255, 255, 0]
    else if text = "255.0.255.0" then v4 [255, 0, 255, 0]
    else none

theorem sampleLib_lawful (cfg : NetworkConfig) : (sampleLib cfg).Lawful := by
  intro text parsed
  dsimp only [sampleLib] at parsed
  split_ifs at parsed with ip mask gap
  · subst ip
    simp
  · subst mask
    simp
  · subst gap
    simp
  · cases parsed

def sampleStatic (subnetMask : String) : NetworkConfig where
  interface := "eth0"
  mode := "static"
  ipAddress := "10.0.0.2"
  subnetMask := subnetMask
  gateway := ""
  dns1 := ""
  dns2 := ""

theorem network_texts_agree_sample :
    TextsAgree (sampleLib (sampleStatic "255.255.255.0")) (sampleStatic "255.255.255.0") "eth0" := by
  refine (network_texts_agree_iff _ (sampleLib_lawful _) "" "" (sampleStatic "255.255.255.0") rfl
    (by decide +kernel)).2 ⟨by decide, fun _ => ⟨⟨_, rfl, 24, 8, by decide, by decide⟩, fun _ => rfl⟩⟩

/-- A mask with a gap is accepted, and only one of the files has it. -/
theorem gap_mask_disagrees :
    let cfg := sampleStatic "255.0.255.0"
    validate (sampleLib cfg) "" = .ok () ∧
    (readNetwork (renderNetwork (sampleLib cfg) cfg "eth0")).prefixLen = none ∧
    (readInterfaces (sampleLib cfg) "eth0" (renderInterfaces cfg "eth0")).prefixLen = some 16 ∧
    ¬ TextsAgree (sampleLib cfg) cfg "eth0" := by
  intro cfg
  have first : (readNetwork (renderNetwork (sampleLib cfg) cfg "eth0")).prefixLen = none := by
    decide +kernel
  have second : (readInterfaces (sampleLib cfg) "eth0" (renderInterfaces cfg "eth0")).prefixLen =
      some 16 := by
    decide +kernel
  refine ⟨by decide +kernel, first, second, fun agree => ?_⟩
  rw [agree.1, second] at first
  cases first

end NeoRuntime.PlatformApi.Network
