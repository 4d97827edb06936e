import Mathlib.Data.List.Sort
import OhanaAgent.Encoding.Lines
import OhanaAgent.Host.Address
import OhanaAgent.Privacy.SessionPaths

/-!
# The dnsmasq configuration files

The settings and the reservations of the DHCP server, with what their contracts
check, the files that the repository renders from them and the reader of these
files.  A configured category has a file of its own, beside the main file.
-/

namespace OhanaAgent.Host

open Encoding (isSeparator joinLines splitLines splitOn_map trim universalNewlines)
open Encoding.Json (Text)
open Privacy (isWhitespace)

/-! ## Characters -/

/-- The white space that `str_strip_whitespace` removes from both ends. -/
def isContractSpace (c : Char) : Bool :=
  isWhitespace c && !(28 ≤ c.toNat && c.toNat ≤ 31)

/-- A letter, a digit or a hyphen. -/
def isLabelChar (c : Char) : Bool :=
  (48 ≤ c.toNat && c.toNat ≤ 57) || (65 ≤ c.toNat && c.toNat ≤ 90) ||
    (97 ≤ c.toNat && c.toNat ≤ 122) || c.toNat == 45

/-- A hexadecimal digit. -/
def isHexDigit (c : Char) : Bool :=
  (48 ≤ c.toNat && c.toNat ≤ 57) || (65 ≤ c.toNat && c.toNat ≤ 70) ||
    (97 ≤ c.toNat && c.toNat ≤ 102)

/-- The characters of every field but the interface. -/
def isFieldChar (c : Char) : Bool :=
  isLabelChar c || c == '.' || c == ':'

/-- `str.lower` of an ASCII text. -/
def lower (text : Text) : Text :=
  text.map Char.toLower

/-- `str.upper` of an ASCII text. -/
def upper (text : Text) : Text :=
  text.map Char.toUpper

theorem isFieldChar_ascii {c : Char} (field : isFieldChar c = true) : c.toNat < 128 := by
  simp only [isFieldChar, isLabelChar, Bool.or_eq_true, Bool.and_eq_true, decide_eq_true_eq,
    beq_iff_eq] at field
  rcases field with ((((⟨_, _⟩ | ⟨_, _⟩) | ⟨_, _⟩) | _) | rfl) | rfl
  any_goals omega
  · decide
  · decide

/-- What holds of the field characters in the ASCII range holds of all of them. -/
theorem of_isFieldChar {P : Char → Prop}
    (all : ∀ n : Fin 128, isFieldChar (Char.ofNat n) = true → P (Char.ofNat n)) {c : Char}
    (field : isFieldChar c = true) : P c := by
  have holds := all ⟨c.toNat, isFieldChar_ascii field⟩
  rw [Char.ofNat_toNat] at holds
  exact holds field

/-- A field character is none of the characters that shape a file. -/
theorem isFieldChar_plain {c : Char} (field : isFieldChar c = true) :
    isSeparator c = false ∧ isWhitespace c = false ∧ c ≠ ',' ∧ c ≠ '=' ∧ c ≠ '#' := by
  revert c
  apply of_isFieldChar
  decide

theorem isLabelChar_toLower {c : Char} (field : isFieldChar c = true) :
    isLabelChar c.toLower = isLabelChar c ∧ (c.toLower == '.') = (c == '.') ∧
      (c.toLower == '-') = (c == '-') ∧ c.toLower.toLower = c.toLower := by
  revert c
  apply of_isFieldChar
  decide

theorem isHexDigit_toUpper {c : Char} (field : isFieldChar c = true) :
    isHexDigit c.toUpper = isHexDigit c ∧ (c.toUpper == ':') = (c == ':') ∧
      c.toUpper.toUpper = c.toUpper := by
  revert c
  apply of_isFieldChar
  decide

theorem isFieldChar_of_isHexDigit {c : Char} (hex : isHexDigit c = true) :
    isFieldChar c = true := by
  simp only [isHexDigit, isFieldChar, isLabelChar, Bool.or_eq_true, Bool.and_eq_true,
    decide_eq_true_eq, beq_iff_eq] at hex ⊢
  omega

theorem isFieldChar_of_isLabelChar {c : Char} (label : isLabelChar c = true) :
    isFieldChar c = true := by
  simp [isFieldChar, label]

theorem isFieldChar_of_isDigit {c : Char} (digit : c.isDigit = true) : isFieldChar c = true := by
  obtain ⟨n, rfl⟩ := exists_digit digit
  revert n
  decide

/-! ## Fields -/

/-- A text of field characters, read from a file as it was written. -/
def IsField (text : Text) : Prop :=
  text ≠ [] ∧ ∀ c ∈ text, isFieldChar c = true

/-- `HOSTNAME_PATTERN`. -/
def isHostname (text : Text) : Bool :=
  1 ≤ text.length && text.length ≤ 253 &&
    (text.splitOn '.').all fun label =>
      !label.isEmpty && label.all isLabelChar && label.head? != some '-'

/-- `MAC_ADDRESS_PATTERN`. -/
def isMacAddress (text : Text) : Bool :=
  (text.splitOn ':').length == 6 &&
    (text.splitOn ':').all fun octet => octet.length == 2 && octet.all isHexDigit

/-- The pattern of a lease duration. -/
def isLeaseDuration (text : Text) : Bool :=
  text.head?.any (fun c => 49 ≤ c.toNat && c.toNat ≤ 57) &&
    text.dropLast.all Char.isDigit &&
    text.getLast?.any fun c => c == 'm' || c == 'h' || c == 'd' || c == 'w'

theorem isField_of_isHostname {text : Text} (valid : isHostname text = true) : IsField text := by
  simp only [isHostname, Bool.and_eq_true, decide_eq_true_eq, List.all_eq_true] at valid
  obtain ⟨⟨nonempty, _⟩, labels⟩ := valid
  refine ⟨List.ne_nil_of_length_pos nonempty, ?_⟩
  intro c member
  rcases Encoding.mem_splitOn '.' member with rfl | ⟨label, among, inside⟩
  · decide
  · exact isFieldChar_of_isLabelChar ((labels label among).1.2 c inside)

theorem isField_of_isMacAddress {text : Text} (valid : isMacAddress text = true) :
    IsField text := by
  simp only [isMacAddress, Bool.and_eq_true, beq_iff_eq, List.all_eq_true] at valid
  obtain ⟨count, octets⟩ := valid
  refine ⟨?_, ?_⟩
  · rintro rfl
    simp at count
  · intro c member
    rcases Encoding.mem_splitOn ':' member with rfl | ⟨octet, among, inside⟩
    · decide
    · exact isFieldChar_of_isHexDigit ((octets octet among).2 c inside)

theorem isField_of_isLeaseDuration {text : Text} (valid : isLeaseDuration text = true) :
    IsField text := by
  simp only [isLeaseDuration, Bool.and_eq_true, List.all_eq_true, Option.any_eq_true] at valid
  obtain ⟨⟨_, digits⟩, unit, last, named⟩ := valid
  have nonempty : text ≠ [] := by
    rintro rfl
    simp at last
  refine ⟨nonempty, ?_⟩
  intro c member
  rw [← List.dropLast_append_getLast nonempty] at member
  rcases List.mem_append.mp member with member | member
  · exact isFieldChar_of_isDigit (digits c member)
  · rw [List.getLast?_eq_some_getLast nonempty, Option.some.injEq] at last
    obtain rfl := (List.mem_singleton.mp member).trans last
    simp only [Bool.or_eq_true, beq_iff_eq] at named
    rcases named with ((rfl | rfl) | rfl) | rfl <;> decide

theorem lower_lower {text : Text} (field : ∀ c ∈ text, isFieldChar c = true) :
    lower (lower text) = lower text := by
  simp only [lower, List.map_map]
  apply List.map_congr_left
  intro c member
  exact (isLabelChar_toLower (field c member)).2.2.2

theorem upper_upper {text : Text} (field : ∀ c ∈ text, isFieldChar c = true) :
    upper (upper text) = upper text := by
  simp only [upper, List.map_map]
  apply List.map_congr_left
  intro c member
  exact (isHexDigit_toUpper (field c member)).2.2

/-- The name pattern does not see the case of letters. -/
theorem isHostname_lower {text : Text} (valid : isHostname text = true) :
    isHostname (lower text) = true := by
  have field := (isField_of_isHostname valid).2
  have parts : (lower text).splitOn '.' = (text.splitOn '.').map lower :=
    splitOn_map fun c member => (isLabelChar_toLower (field c member)).2.1
  simp only [isHostname, Bool.and_eq_true, decide_eq_true_eq, List.all_eq_true, parts,
    Bool.not_eq_true', List.isEmpty_eq_false_iff, bne_iff_ne] at valid ⊢
  obtain ⟨⟨nonempty, short⟩, labels⟩ := valid
  refine ⟨⟨by simpa [lower] using nonempty, by simpa [lower] using short⟩, ?_⟩
  intro label among
  obtain ⟨given, found, rfl⟩ := List.mem_map.mp among
  obtain ⟨⟨nonempty, chars⟩, first⟩ := labels given found
  refine ⟨⟨by simpa [lower] using nonempty, ?_⟩, ?_⟩
  · intro c member
    obtain ⟨d, inside, rfl⟩ := List.mem_map.mp member
    rw [(isLabelChar_toLower (isFieldChar_of_isLabelChar (chars d inside))).1]
    exact chars d inside
  · cases given with
    | nil => simp [lower]
    | cons d given =>
        have same := (isLabelChar_toLower
          (isFieldChar_of_isLabelChar (chars d List.mem_cons_self))).2.2.1
        have other : (d == '-') = false := by simpa using first
        simpa [lower] using same.trans other

/-- The pattern of physical addresses does not see the case of digits. -/
theorem isMacAddress_upper {text : Text} (valid : isMacAddress text = true) :
    isMacAddress (upper text) = true := by
  have field := (isField_of_isMacAddress valid).2
  have parts : (upper text).splitOn ':' = (text.splitOn ':').map upper :=
    splitOn_map fun c member => (isHexDigit_toUpper (field c member)).2.1
  simp only [isMacAddress, Bool.and_eq_true, beq_iff_eq, List.all_eq_true, parts,
    List.length_map] at valid ⊢
  refine ⟨valid.1, ?_⟩
  intro octet among
  obtain ⟨given, found, rfl⟩ := List.mem_map.mp among
  obtain ⟨two, chars⟩ := valid.2 given found
  refine ⟨by simpa [upper] using two, ?_⟩
  intro c member
  obtain ⟨d, inside, rfl⟩ := List.mem_map.mp member
  rw [(isHexDigit_toUpper (isFieldChar_of_isHexDigit (chars d inside))).1]
  exact chars d inside

/-! ## Contracts -/

/-- `DHCPReservationCategory`. -/
inductive Category where
  | infrastructure
  | servers
  | network
  | homeAutomation
  | critical
  deriving DecidableEq

/-- Why a configuration is refused: a directive of the main file, a line of a
reservation file, a text that is no address, or a contract. -/
inductive Refusal where
  | notOnce (key : Text)
  | valueCount (key : Text) (expected : Nat)
  | missingOption (name : Text)
  | unsupportedLine (category : Category) (line : Nat)
  | invalidReservation (category : Category) (line : Nat)
  | address (text : Text)
  | contract (message : String)
  deriving DecidableEq

/-- A text field without white space at its ends, and not empty. -/
structure Stripped where
  text : Text
  stripped : trim isContractSpace text = text
  nonempty : text ≠ []

/-- A validated and normalized DNS name. -/
structure Hostname where
  text : Text
  valid : isHostname text = true
  normalized : lower text = text

/-- A validated and normalized physical address. -/
structure MacAddress where
  text : Text
  valid : isMacAddress text = true
  normalized : upper text = text

/-- A validated lease duration. -/
structure LeaseDuration where
  text : Text
  valid : isLeaseDuration text = true

/-- `DHCPSettings`. -/
structure Settings where
  interface : Stripped
  rangeStart : Address
  rangeEnd : Address
  subnetMask : Address
  leaseDuration : LeaseDuration
  gateway : Address
  dnsServers : List Address
  ntpServers : List Address
  domain : Hostname
  servers : dnsServers ≠ [] ∧ ntpServers ≠ []
  ordered : rangeStart.value ≤ rangeEnd.value
  subnet : rangeStart.value &&& subnetMask.value = rangeEnd.value &&& subnetMask.value ∧
    rangeStart.value &&& subnetMask.value = gateway.value &&& subnetMask.value

/-- `DHCPReservation`. -/
structure Reservation where
  macAddress : MacAddress
  address : Address
  hostname : Hostname
  category : Category
  description : Text

/-- No two reservations share an address of either kind or a name. -/
def Unique (reservations : List Reservation) : Prop :=
  (reservations.map fun row => lower row.macAddress.text).Nodup ∧
    (reservations.map Reservation.address).Nodup ∧
    (reservations.map fun row => lower row.hostname.text).Nodup

instance (reservations : List Reservation) : Decidable (Unique reservations) :=
  inferInstanceAs (Decidable (_ ∧ _))

/-- `DHCPConfiguration`. -/
structure Configuration where
  serverNodeId : Stripped
  settings : Settings
  reservations : List Reservation
  unique : Unique reservations

/-- The contract of a text field with a minimum length. -/
def Stripped.validate (given : Text) : Except Refusal Stripped :=
  if nonempty : trim isContractSpace given ≠ [] then
    .ok ⟨trim isContractSpace given, Encoding.trim_trim given, nonempty⟩
  else .error (.contract "String should have at least 1 character")

/-- `validate_domain` and `validate_hostname`. -/
def Hostname.validate (message : String) (given : Text) : Except Refusal Hostname :=
  if valid : isHostname (trim isContractSpace given) = true then
    .ok ⟨lower (trim isContractSpace given), isHostname_lower valid,
      lower_lower (isField_of_isHostname valid).2⟩
  else .error (.contract message)

/-- `normalize_mac_address`. -/
def MacAddress.validate (given : Text) : Except Refusal MacAddress :=
  if valid : isMacAddress (trim isContractSpace given) = true then
    .ok ⟨upper (trim isContractSpace given), isMacAddress_upper valid,
      upper_upper (isField_of_isMacAddress valid).2⟩
  else .error (.contract "mac_address must use the AA:BB:CC:DD:EE:FF format")

/-- The contract of a lease duration. -/
def LeaseDuration.validate (given : Text) : Except Refusal LeaseDuration :=
  if valid : isLeaseDuration (trim isContractSpace given) = true then
    .ok ⟨trim isContractSpace given, valid⟩
  else .error (.contract "String should match pattern")

/-- The contract of an address field. -/
def readAddress (given : Text) : Except Refusal Address :=
  match Address.parse given with
  | some address => .ok address
  | none => .error (.address given)

/-- `validate_range` on the validated fields of `DHCPSettings`. -/
def settingsContract (interface : Stripped) (rangeStart rangeEnd subnetMask : Address)
    (leaseDuration : LeaseDuration) (gateway : Address) (dnsServers ntpServers : List Address)
    (domain : Hostname) : Except Refusal Settings :=
  if servers : dnsServers ≠ [] ∧ ntpServers ≠ [] then
    if ordered : rangeStart.value ≤ rangeEnd.value then
      if subnet : rangeStart.value &&& subnetMask.value = rangeEnd.value &&& subnetMask.value ∧
          rangeStart.value &&& subnetMask.value = gateway.value &&& subnetMask.value then
        .ok ⟨interface, rangeStart, rangeEnd, subnetMask, leaseDuration, gateway, dnsServers,
          ntpServers, domain, servers, ordered, subnet⟩
      else .error (.contract "DHCP range and gateway must belong to the same subnet")
    else .error (.contract "range_start must be lower than or equal to range_end")
  else .error (.contract "List should have at least 1 item")

/-- `validate_unique_reservations`. -/
def configurationContract (serverNodeId : Text) (settings : Settings)
    (reservations : List Reservation) : Except Refusal Configuration := do
  let serverNodeId ← Stripped.validate serverNodeId
  if unique : Unique reservations then
    pure ⟨serverNodeId, settings, reservations, unique⟩
  else .error (.contract "reservations contain duplicate values")

/-! ## Rendering -/

/-- One directive with a value. -/
def directive (key value : Text) : Text :=
  key ++ '=' :: value

/-- Addresses separated by commas. -/
def addressList (addresses : List Address) : Text :=
  [','].intercalate (addresses.map Address.text)

def interfaceKey : Text := "interface".toList

def rangeKey : Text := "dhcp-range".toList

def optionKey : Text := "dhcp-option".toList

def domainKey : Text := "domain".toList

def localKey : Text := "local".toList

def interfaceNameKey : Text := "interface-name".toList

def hostKey : Text := "dhcp-host".toList

/-- The front of a reservation line. -/
def hostFront : Text := hostKey ++ ['=']

/-- The front of the option that carries a kind of servers. -/
def optionFront (name : Text) : Text :=
  "option:".toList ++ name ++ [',']

def routerOption : Text := "router".toList

def dnsOption : Text := "dns-server".toList

def ntpOption : Text := "ntp-server".toList

/-- The value of the range directive. -/
def rangeValue (settings : Settings) : Text :=
  [','].intercalate [settings.rangeStart.text, settings.rangeEnd.text, settings.subnetMask.text,
    settings.leaseDuration.text]

/-- The comment lines at the top of a file, and the blank line after them. -/
def header (title : Text) (note : Text) : List Text :=
  ["#################################################".toList, "# ".toList ++ title,
    "# ".toList ++ note, "#################################################".toList, []]

/-- The name that the server node gives the interface. -/
def interfaceName (settings : Settings) (serverNodeId : Text) : Text :=
  serverNodeId ++ '.' :: settings.domain.text ++ ',' :: settings.interface.text ++ "/4".toList

/-- The directives before the name of the interface, in blocks that blank lines
separate. -/
def settingsBlocks (settings : Settings) : List (List Text) :=
  [[directive interfaceKey settings.interface.text, "bind-interfaces".toList],
    ["domain-needed".toList, "bogus-priv".toList],
    ["dhcp-authoritative".toList],
    [directive rangeKey (rangeValue settings)],
    [directive optionKey (optionFront routerOption ++ settings.gateway.text),
      directive optionKey (optionFront dnsOption ++ addressList settings.dnsServers),
      directive optionKey (optionFront ntpOption ++ addressList settings.ntpServers)],
    [directive domainKey settings.domain.text,
      directive localKey ('/' :: (settings.domain.text ++ ['/'])), "expand-hosts".toList]]

/-- The lines of the main file, but the empty one at its end. -/
def mainLines (settings : Settings) (serverNodeId : Text) : List Text :=
  header "Ohana-House".toList "Configuration DHCP gérée par Ohana-Agent".toList ++
    (settingsBlocks settings).flatMap (· ++ [[]]) ++
    ["no-hosts".toList, directive interfaceNameKey (interfaceName settings serverNodeId)]

/-- `_render_main`. -/
def renderMain (settings : Settings) (serverNodeId : Text) : Text :=
  joinLines (mainLines settings serverNodeId ++ [[]])

/-- `CATEGORY_LABELS`. -/
def Category.label : Category → Text
  | .infrastructure => "Infrastructure".toList
  | .servers => "Serveurs".toList
  | .network => "Infrastructure réseau".toList
  | .homeAutomation => "Passerelles domotiques".toList
  | .critical => "Équipements critiques".toList

/-- The line of one reservation. -/
def reservationLine (row : Reservation) : Text :=
  directive hostKey ([','].intercalate [row.macAddress.text, row.address.text, row.hostname.text])

/-- `sorted` by the integer of the address. -/
def sortedReservations (reservations : List Reservation) : List Reservation :=
  reservations.insertionSort fun first second => first.address.value ≤ second.address.value

/-- `_render_reservations`. -/
def renderReservations (category : Category) (reservations : List Reservation) : Text :=
  joinLines (header category.label "Réservations gérées par Ohana-Agent".toList ++
    (sortedReservations reservations).map reservationLine ++ [[]])

/-! ## Reading -/

/-- The stripped lines of a file. -/
def readLines (content : Text) : List Text :=
  (splitLines (universalNewlines content)).map (trim isWhitespace)

/-- Whether a stripped line says nothing. -/
def isSilent (line : Text) : Bool :=
  line.isEmpty || line.head? == some '#'

/-- The key and the value of a stripped line. -/
def readDirective (line : Text) : Option (Text × Text) :=
  if isSilent line || !line.contains '=' then none
  else
    some (trim isWhitespace (line.takeWhile (· != '=')),
      trim isWhitespace (line.dropWhile (· != '=')).tail)

/-- `_read_directives`. -/
def readDirectives (content : Text) : List (Text × Text) :=
  (readLines content).filterMap readDirective

/-- The values of a key, in the order of the file. -/
def valuesOf (key : Text) (directives : List (Text × Text)) : List Text :=
  (directives.filter fun found => found.1 = key).map Prod.snd

/-- `_required_single`. -/
def requiredSingle (directives : List (Text × Text)) (key : Text) : Except Refusal Text :=
  match valuesOf key directives with
  | [value] => .ok value
  | _ => .error (.notOnce key)

/-- Stripped parts between commas. -/
def commaParts (value : Text) : List Text :=
  (value.splitOn ',').map (trim isWhitespace)

/-- `_option_values`. -/
def optionValues (directives : List (Text × Text)) (name : Text) : Except Refusal (List Address) :=
  match (valuesOf optionKey directives).find? (optionFront name).isPrefixOf with
  | some value => (commaParts (value.drop (optionFront name).length)).mapM readAddress
  | none => .error (.missingOption name)

/-- `DHCPSettings(...)` on the texts of a file. -/
def settingsOf (interface : Text) (rangeStart rangeEnd subnetMask leaseDuration : Text)
    (gateway : Address) (dnsServers ntpServers : List Address) (domain : Text) :
    Except Refusal Settings := do
  let interface ← Stripped.validate interface
  let rangeStart ← readAddress rangeStart
  let rangeEnd ← readAddress rangeEnd
  let subnetMask ← readAddress subnetMask
  let leaseDuration ← LeaseDuration.validate leaseDuration
  let domain ← Hostname.validate "domain must be a valid DNS name" domain
  settingsContract interface rangeStart rangeEnd subnetMask leaseDuration gateway dnsServers
    ntpServers domain

/-- The settings that the directives of a main file declare. -/
def readDirectiveSettings (directives : List (Text × Text)) : Except Refusal Settings := do
  let range ← requiredSingle directives rangeKey
  match commaParts range with
  | [rangeStart, rangeEnd, subnetMask, leaseDuration] => do
      let gateways ← optionValues directives routerOption
      let dnsServers ← optionValues directives dnsOption
      let ntpServers ← optionValues directives ntpOption
      let interface ← requiredSingle directives interfaceKey
      let domain ← requiredSingle directives domainKey
      match gateways with
      | gateway :: _ =>
          settingsOf interface rangeStart rangeEnd subnetMask leaseDuration gateway dnsServers
            ntpServers domain
      | [] => .error (.missingOption routerOption)
  | _ => .error (.valueCount rangeKey 4)

/-- One line of a reservation file. -/
def readReservation (category : Category) (number : Nat) (line : Text) :
    Except Refusal (Option Reservation) :=
  if isSilent line then .ok none
  else if !hostFront.isPrefixOf line then .error (.unsupportedLine category number)
  else
    match commaParts (line.drop hostFront.length) with
    | [macAddress, address, hostname] => do
        let macAddress ← MacAddress.validate macAddress
        let address ← readAddress address
        let hostname ← Hostname.validate "hostname must be a valid DNS name" hostname
        pure (some ⟨macAddress, address, hostname, category, []⟩)
    | _ => .error (.invalidReservation category number)

/-- The reservations of numbered lines. -/
def readReservationLines (category : Category) : Nat → List Text →
    Except Refusal (List Reservation)
  | _, [] => .ok []
  | number, line :: lines => do
      let first ← readReservation category number line
      let rest ← readReservationLines category (number + 1) lines
      pure (first.toList ++ rest)

/-- `_read_reservations`; a missing file holds none. -/
def readReservations (category : Category) : Option Text → Except Refusal (List Reservation)
  | none => .ok []
  | some content => readReservationLines category 1 (readLines content)

/-! ## The repository -/

theorem defaultInterface_stripped : trim isContractSpace ['e', 't', 'h', '0'] =
    ['e', 't', 'h', '0'] := rfl

theorem defaultInterface_nonempty : ['e', 't', 'h', '0'] ≠ [] := by simp

theorem defaultLease_valid : isLeaseDuration ['2', '4', 'h'] = true := rfl

theorem defaultDomain_valid : isHostname "ohana.lan".toList = true := by decide

theorem defaultDomain_lower : lower "ohana.lan".toList = "ohana.lan".toList := by decide

theorem defaultServers : [(Address.ofOctets 192 168 1 11), .ofOctets 192 168 1 12] ≠ [] ∧
    [(Address.ofOctets 192 168 1 10)] ≠ [] := by simp

theorem defaultRange_ordered : (Address.ofOctets 192 168 1 100).value ≤
    (Address.ofOctets 192 168 1 199).value := by decide

theorem defaultRange_subnet :
    (Address.ofOctets 192 168 1 100).value &&& (Address.ofOctets 255 255 255 0).value =
        (Address.ofOctets 192 168 1 199).value &&& (Address.ofOctets 255 255 255 0).value ∧
      (Address.ofOctets 192 168 1 100).value &&& (Address.ofOctets 255 255 255 0).value =
        (Address.ofOctets 192 168 1 1).value &&& (Address.ofOctets 255 255 255 0).value := by
  decide

/-- `DEFAULT_SETTINGS`. -/
def defaultSettings : Settings where
  interface := ⟨['e', 't', 'h', '0'], defaultInterface_stripped, defaultInterface_nonempty⟩
  rangeStart := .ofOctets 192 168 1 100
  rangeEnd := .ofOctets 192 168 1 199
  subnetMask := .ofOctets 255 255 255 0
  leaseDuration := ⟨['2', '4', 'h'], defaultLease_valid⟩
  gateway := .ofOctets 192 168 1 1
  dnsServers := [.ofOctets 192 168 1 11, .ofOctets 192 168 1 12]
  ntpServers := [.ofOctets 192 168 1 10]
  domain := ⟨"ohana.lan".toList, defaultDomain_valid, defaultDomain_lower⟩
  servers := defaultServers
  ordered := defaultRange_ordered
  subnet := defaultRange_subnet

/-- The files: the main one and one of each category. -/
structure Files where
  main : Option Text
  reservations : Category → Option Text

/-- `DnsmasqDHCPRepository`: the categories with a configured file, in order,
and the node that the main file names. -/
structure Repository where
  reservationPaths : List Category
  serverNodeId : Text
  distinct : reservationPaths.Nodup

namespace Repository

variable (repository : Repository)

/-- The reservations of the configured files, one file after another. -/
def readAllReservations (files : Files) : List Category → Except Refusal (List Reservation)
  | [] => .ok []
  | category :: categories => do
      let first ← readReservations category (files.reservations category)
      let rest ← readAllReservations files categories
      pure (first ++ rest)

/-- `read_settings`; without a main file the settings are the default ones. -/
def readSettings : Option Text → Except Refusal Settings
  | none => .ok defaultSettings
  | some content => readDirectiveSettings (readDirectives content)

/-- `read_configuration`. -/
def readConfiguration (files : Files) : Except Refusal Configuration := do
  let settings ← readSettings files.main
  let reservations ← readAllReservations files repository.reservationPaths
  configurationContract repository.serverNodeId settings reservations

/-- The files that `write` leaves when dnsmasq accepts them. -/
def write (configuration : Configuration) (files : Files) : Files where
  main := some (renderMain configuration.settings repository.serverNodeId)
  reservations category :=
    if category ∈ repository.reservationPaths then
      some (renderReservations category
        (configuration.reservations.filter fun row => row.category = category))
    else files.reservations category

end Repository

end OhanaAgent.Host
