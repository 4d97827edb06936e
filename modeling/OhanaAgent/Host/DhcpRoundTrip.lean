import OhanaAgent.Host.Dhcp
import OhanaAgent.Store.Transaction

/-!
# Reading the written DHCP files back

Every field but the name of the interface is made of letters, digits and a few
marks, so it survives the line and comma format of dnsmasq.  The name of the
interface is written as it is given: it is read back when it stands on one line
and no white space surrounds it, and otherwise the main file declares something
else.
-/

namespace OhanaAgent.Host

open Encoding (OneLine Trimmed isSeparator joinLines joinLines_cons_concat_nil splitLines
  splitLines_head splitLines_joinLines splitLines_joinLines_append splitLines_universalNewlines
  trim trim_append trim_eq_self_iff trim_rdropWhile trim_sublist universalNewlines)
open Encoding.Json (Text)
open Privacy (isWhitespace)

/-! ## Solid texts -/

/-- A text without white space and line boundaries, and not empty. -/
def Solid (text : Text) : Prop :=
  text ≠ [] ∧ ∀ c ∈ text, isSeparator c = false ∧ isWhitespace c = false

instance (text : Text) : Decidable (Solid text) :=
  inferInstanceAs (Decidable (_ ∧ ∀ c ∈ text, isSeparator c = false ∧ isWhitespace c = false))

namespace Solid

variable {first second text : Text}

theorem oneLine (solid : Solid text) : OneLine text :=
  fun c member => (solid.2 c member).1

theorem trimmed (solid : Solid text) : Trimmed isWhitespace text :=
  ⟨fun c member => (solid.2 c (List.mem_of_mem_head? member)).2,
    fun c member => (solid.2 c (List.mem_of_mem_getLast? member)).2⟩

theorem trim_eq (solid : Solid text) : trim isWhitespace text = text :=
  trim_eq_self_iff.mpr solid.trimmed

theorem append (left : Solid first) (right : Solid second) : Solid (first ++ second) := by
  refine ⟨List.append_ne_nil_of_left_ne_nil left.1 second, ?_⟩
  intro c member
  rcases List.mem_append.mp member with member | member
  · exact left.2 c member
  · exact right.2 c member

/-- Solid parts between solid separators. -/
theorem intercalate {separator : Char} {parts : List Text} (mark : Solid [separator])
    (some' : parts ≠ []) (solid : ∀ part ∈ parts, Solid part) :
    Solid ([separator].intercalate parts) := by
  induction parts with
  | nil => exact absurd rfl some'
  | cons part parts ih =>
      cases parts with
      | nil => simpa [List.intercalate] using solid part List.mem_cons_self
      | cons next parts =>
          have rest := ih (by simp) fun other member => solid other (List.mem_cons_of_mem part member)
          have joined : [separator].intercalate (part :: next :: parts) =
              part ++ ([separator] ++ [separator].intercalate (next :: parts)) := by
            simp [List.intercalate]
          rw [joined]
          exact (solid part List.mem_cons_self).append (mark.append rest)

end Solid

theorem IsField.solid {text : Text} (field : IsField text) : Solid text :=
  ⟨field.1, fun c member =>
    ⟨(isFieldChar_plain (field.2 c member)).1, (isFieldChar_plain (field.2 c member)).2.1⟩⟩

theorem IsField.no_comma {text : Text} (field : IsField text) : ',' ∉ text :=
  fun member => (isFieldChar_plain (field.2 _ member)).2.2.1 rfl

theorem isField_address (address : Address) : IsField address.text := by
  refine ⟨address.text_nonempty, ?_⟩
  intro c member
  rcases Address.mem_text member with digit | rfl
  · exact isFieldChar_of_isDigit digit
  · decide

theorem Hostname.isField (name : Hostname) : IsField name.text :=
  isField_of_isHostname name.valid

theorem MacAddress.isField (address : MacAddress) : IsField address.text :=
  isField_of_isMacAddress address.valid

theorem LeaseDuration.isField (duration : LeaseDuration) : IsField duration.text :=
  isField_of_isLeaseDuration duration.valid

/-- Parts without commas are read back. -/
theorem commaParts_intercalate {parts : List Text} (some' : parts ≠ [])
    (fields : ∀ part ∈ parts, IsField part) : commaParts ([','].intercalate parts) = parts := by
  rw [commaParts, List.splitOn_intercalate ',' (fun part member => (fields part member).no_comma)
    some']
  calc parts.map (trim isWhitespace) = parts.map id :=
        List.map_congr_left fun part member => (fields part member).solid.trim_eq
    _ = parts := List.map_id parts

/-! ## Contracts on their own values -/

theorem trim_contract {text : Text} (solid : Solid text) : trim isContractSpace text = text := by
  rw [trim_eq_self_iff]
  refine ⟨fun c member => ?_, fun c member => ?_⟩
  · simp [isContractSpace, solid.trimmed.1 c member]
  · simp [isContractSpace, solid.trimmed.2 c member]

theorem Hostname.validate_text (message : String) (name : Hostname) :
    Hostname.validate message name.text = .ok name := by
  have same := trim_contract name.isField.solid
  simp [Hostname.validate, same, name.valid, name.normalized]

theorem MacAddress.validate_text (address : MacAddress) :
    MacAddress.validate address.text = .ok address := by
  have same := trim_contract address.isField.solid
  simp [MacAddress.validate, same, address.valid, address.normalized]

theorem LeaseDuration.validate_text (duration : LeaseDuration) :
    LeaseDuration.validate duration.text = .ok duration := by
  have same := trim_contract duration.isField.solid
  simp [LeaseDuration.validate, same, duration.valid]

theorem Stripped.validate_text (field : Stripped) : Stripped.validate field.text = .ok field := by
  simp [Stripped.validate, field.stripped, field.nonempty]

theorem readAddress_text (address : Address) : readAddress address.text = .ok address := by
  simp [readAddress, Address.parse_text]

theorem mapM_readAddress (addresses : List Address) :
    (addresses.map Address.text).mapM readAddress = .ok addresses := by
  induction addresses with
  | nil => rfl
  | cons address addresses ih =>
      rw [List.map_cons, List.mapM_cons, readAddress_text, ih]
      rfl

/-- The contract of the settings gives them back, with the interface it reads. -/
theorem settingsOf_texts (settings : Settings) (interface : Text) :
    settingsOf interface settings.rangeStart.text settings.rangeEnd.text settings.subnetMask.text
        settings.leaseDuration.text settings.gateway settings.dnsServers settings.ntpServers
        settings.domain.text =
      (Stripped.validate interface).map fun read => { settings with interface := read } := by
  simp only [settingsOf, readAddress_text, LeaseDuration.validate_text, Hostname.validate_text]
  cases Stripped.validate interface with
  | error refusal => rfl
  | ok read =>
      have servers := settings.servers
      have ordered := settings.ordered
      have subnet := settings.subnet
      show settingsContract _ _ _ _ _ _ _ _ _ = _
      rw [settingsContract, dif_pos servers, dif_pos ordered, dif_pos subnet]
      rfl

/-! ## Directives -/

/-- The key of a directive: no text that a reader would split or skip. -/
def IsKey (key : Text) : Prop :=
  Solid key ∧ '=' ∉ key ∧ key.head? ≠ some '#'

instance (key : Text) : Decidable (IsKey key) :=
  inferInstanceAs (Decidable (_ ∧ '=' ∉ key ∧ _))

theorem solid_equals : Solid ['='] := by decide

theorem trim_directive {key : Text} (isKey : IsKey key) (value : Text) :
    trim isWhitespace (directive key value) = directive key (value.rdropWhile isWhitespace) := by
  have front := trim_append (isKey.1.append solid_equals).trimmed (by simp) value
  simpa [directive] using front

/-- A directive is read back, with its value stripped. -/
theorem readDirective_directive {key : Text} (isKey : IsKey key) (value : Text) :
    readDirective (trim isWhitespace (directive key value)) =
      some (key, trim isWhitespace value) := by
  obtain ⟨solid, noEquals, noHash⟩ := isKey
  have before : ∀ c ∈ key, (c != '=') = true := by
    intro c member
    simp only [bne_iff_ne]
    rintro rfl
    exact noEquals member
  rw [trim_directive ⟨solid, noEquals, noHash⟩, directive]
  have loud : isSilent (key ++ '=' :: value.rdropWhile isWhitespace) = false := by
    cases key with
    | nil => exact absurd rfl solid.1
    | cons c key => simpa [isSilent] using noHash
  simp only [readDirective, loud, List.takeWhile_append_of_pos before,
    List.dropWhile_append_of_pos before]
  simp [solid.trim_eq, trim_rdropWhile]

theorem isKey_interface : IsKey interfaceKey := by decide

theorem isKey_range : IsKey rangeKey := by decide

theorem isKey_option : IsKey optionKey := by decide

theorem isKey_domain : IsKey domainKey := by decide

theorem isKey_local : IsKey localKey := by decide

theorem isKey_interfaceName : IsKey interfaceNameKey := by decide

theorem isKey_host : IsKey hostKey := by decide

theorem solid_comma : Solid [','] := by decide

theorem solid_rangeValue (settings : Settings) : Solid (rangeValue settings) := by
  apply Solid.intercalate solid_comma (by simp)
  intro part member
  simp only [List.mem_cons, List.not_mem_nil, or_false] at member
  rcases member with rfl | rfl | rfl | rfl
  · exact (isField_address _).solid
  · exact (isField_address _).solid
  · exact (isField_address _).solid
  · exact settings.leaseDuration.isField.solid

theorem solid_addressList {addresses : List Address} (some' : addresses ≠ []) :
    Solid (addressList addresses) := by
  apply Solid.intercalate solid_comma (by simpa using some')
  intro part member
  obtain ⟨address, _, rfl⟩ := List.mem_map.mp member
  exact (isField_address address).solid

theorem solid_optionFront {name : Text} (solid : Solid name) : Solid (optionFront name) := by
  have front : Solid "option:".toList := by decide
  exact (front.append solid).append solid_comma

theorem solid_router : Solid routerOption := by decide

theorem solid_dns : Solid dnsOption := by decide

theorem solid_ntp : Solid ntpOption := by decide

theorem oneLine_directive {key value : Text} (isKey : IsKey key) (clean : OneLine value) :
    OneLine (directive key value) := by
  have front := (isKey.1.append solid_equals).oneLine.append clean
  simpa [directive] using front

theorem oneLine_interfaceName {settings : Settings} {serverNodeId : Text}
    (interface : OneLine settings.interface.text) (node : OneLine serverNodeId) :
    OneLine (interfaceName settings serverNodeId) := by
  have dot : OneLine ['.'] := by decide
  have tail : OneLine "/4".toList := by decide
  have whole := node.append (dot.append (settings.domain.isField.solid.oneLine.append
    (solid_comma.oneLine.append (interface.append tail))))
  simpa [interfaceName] using whole

/-- The lines of the main file up to the name of the interface. -/
def frontLines (settings : Settings) : List Text :=
  header "Ohana-House".toList "Configuration DHCP gérée par Ohana-Agent".toList ++
    (settingsBlocks settings).flatMap (· ++ [[]]) ++ ["no-hosts".toList]

theorem mainLines_eq (settings : Settings) (serverNodeId : Text) :
    mainLines settings serverNodeId = frontLines settings ++
      [directive interfaceNameKey (interfaceName settings serverNodeId)] := by
  simp [mainLines, frontLines]

theorem solid_routerValue (settings : Settings) :
    Solid (optionFront routerOption ++ settings.gateway.text) :=
  (solid_optionFront solid_router).append (isField_address settings.gateway).solid

theorem solid_dnsValue (settings : Settings) :
    Solid (optionFront dnsOption ++ addressList settings.dnsServers) :=
  (solid_optionFront solid_dns).append (solid_addressList settings.servers.1)

theorem solid_ntpValue (settings : Settings) :
    Solid (optionFront ntpOption ++ addressList settings.ntpServers) :=
  (solid_optionFront solid_ntp).append (solid_addressList settings.servers.2)

theorem solid_localValue (settings : Settings) :
    Solid ('/' :: (settings.domain.text ++ ['/'])) := by
  have mark : Solid ['/'] := by decide
  exact mark.append (settings.domain.isField.solid.append mark)

theorem frontLines_oneLine {settings : Settings} (interface : OneLine settings.interface.text) :
    ∀ line ∈ frontLines settings, OneLine line := by
  have empty : OneLine [] := by decide
  have router := oneLine_directive isKey_option (solid_routerValue settings).oneLine
  have dns := oneLine_directive isKey_option (solid_dnsValue settings).oneLine
  have ntp := oneLine_directive isKey_option (solid_ntpValue settings).oneLine
  simp only [frontLines, header, settingsBlocks, List.flatMap_cons, List.flatMap_nil,
    List.cons_append, List.nil_append, List.append_nil, List.forall_mem_cons]
  exact ⟨by decide, by decide, by decide, by decide, empty,
    oneLine_directive isKey_interface interface, by decide, empty, by decide,
    by decide, empty, by decide, empty,
    oneLine_directive isKey_range (solid_rangeValue settings).oneLine, empty, router, dns, ntp,
    empty, oneLine_directive isKey_domain settings.domain.isField.solid.oneLine,
    oneLine_directive isKey_local (solid_localValue settings).oneLine, by decide, empty,
    by decide, by simp⟩

theorem mainLines_oneLine {settings : Settings} {serverNodeId : Text}
    (interface : OneLine settings.interface.text) (node : OneLine serverNodeId) :
    ∀ line ∈ mainLines settings serverNodeId, OneLine line := by
  intro line member
  rw [mainLines_eq] at member
  rcases List.mem_append.mp member with member | member
  · exact frontLines_oneLine interface line member
  · obtain rfl := List.mem_singleton.mp member
    exact oneLine_directive isKey_interfaceName (oneLine_interfaceName interface node)

/-- The lines of a rendered file are read back, stripped. -/
theorem readLines_joinLines {lines : List Text} (clean : ∀ line ∈ lines, OneLine line) :
    readLines (joinLines (lines ++ [[]])) = lines.map (trim isWhitespace) := by
  rw [readLines, splitLines_universalNewlines, splitLines_joinLines clean]

/-- What the main file declares. -/
def mainDirectives (settings : Settings) (serverNodeId : Text) : List (Text × Text) :=
  [(interfaceKey, trim isWhitespace settings.interface.text), (rangeKey, rangeValue settings),
    (optionKey, optionFront routerOption ++ settings.gateway.text),
    (optionKey, optionFront dnsOption ++ addressList settings.dnsServers),
    (optionKey, optionFront ntpOption ++ addressList settings.ntpServers),
    (domainKey, settings.domain.text), (localKey, '/' :: (settings.domain.text ++ ['/'])),
    (interfaceNameKey, trim isWhitespace (interfaceName settings serverNodeId))]

theorem readDirective_solid {key value : Text} (isKey : IsKey key) (solid : Solid value) :
    readDirective (trim isWhitespace (directive key value)) = some (key, value) := by
  rw [readDirective_directive isKey, solid.trim_eq]

theorem readDirectives_renderMain {settings : Settings} {serverNodeId : Text}
    (interface : OneLine settings.interface.text) (node : OneLine serverNodeId) :
    readDirectives (renderMain settings serverNodeId) = mainDirectives settings serverNodeId := by
  have router := readDirective_solid isKey_option (solid_routerValue settings)
  have dns := readDirective_solid isKey_option (solid_dnsValue settings)
  have ntp := readDirective_solid isKey_option (solid_ntpValue settings)
  have range := readDirective_solid isKey_range (solid_rangeValue settings)
  have domain := readDirective_solid isKey_domain settings.domain.isField.solid
  have local' := readDirective_solid isKey_local (solid_localValue settings)
  have blank : readDirective (trim isWhitespace []) = none := by decide
  have rule : readDirective (trim isWhitespace
    "#################################################".toList) = none := by decide
  have title : readDirective (trim isWhitespace ("# ".toList ++ "Ohana-House".toList)) = none := by
    decide
  have note : readDirective (trim isWhitespace
    ("# ".toList ++ "Configuration DHCP gérée par Ohana-Agent".toList)) = none := by decide
  have flags : ∀ flag ∈ ["bind-interfaces".toList, "domain-needed".toList, "bogus-priv".toList,
      "dhcp-authoritative".toList, "expand-hosts".toList, "no-hosts".toList],
      readDirective (trim isWhitespace flag) = none := by decide
  simp only [List.forall_mem_cons] at flags
  obtain ⟨bind, needed, bogus, authoritative, expand, hosts, _⟩ := flags
  rw [readDirectives, renderMain, readLines_joinLines (mainLines_oneLine interface node),
    List.filterMap_map, mainLines_eq]
  simp only [frontLines, header, settingsBlocks, List.flatMap_cons, List.flatMap_nil,
    List.cons_append, List.nil_append, List.append_nil, List.filterMap_cons, List.filterMap_nil,
    Function.comp_apply, rule, title, note, blank, bind, needed, bogus, authoritative, expand,
    hosts, router, dns, ntp, range, domain, local', readDirective_directive isKey_interface,
    readDirective_directive isKey_interfaceName]
  rfl

theorem valuesOf_range (settings : Settings) (serverNodeId : Text) :
    valuesOf rangeKey (mainDirectives settings serverNodeId) = [rangeValue settings] := rfl

theorem valuesOf_interface (settings : Settings) (serverNodeId : Text) :
    valuesOf interfaceKey (mainDirectives settings serverNodeId) =
      [trim isWhitespace settings.interface.text] := rfl

theorem valuesOf_domain (settings : Settings) (serverNodeId : Text) :
    valuesOf domainKey (mainDirectives settings serverNodeId) = [settings.domain.text] := rfl

theorem valuesOf_option (settings : Settings) (serverNodeId : Text) :
    valuesOf optionKey (mainDirectives settings serverNodeId) =
      [optionFront routerOption ++ settings.gateway.text,
        optionFront dnsOption ++ addressList settings.dnsServers,
        optionFront ntpOption ++ addressList settings.ntpServers] := rfl

/-- The parts of a list of addresses are read back. -/
theorem mapM_commaParts {addresses : List Address} (some' : addresses ≠ []) :
    (commaParts (addressList addresses)).mapM readAddress = .ok addresses := by
  have fields : ∀ part ∈ addresses.map Address.text, IsField part := by
    intro part member
    obtain ⟨address, _, rfl⟩ := List.mem_map.mp member
    exact isField_address address
  rw [addressList, commaParts_intercalate (by simpa using some') fields, mapM_readAddress]

/-- An option that is found gives its addresses. -/
theorem optionValues_of_find {directives : List (Text × Text)} {name : Text}
    {addresses : List Address} (some' : addresses ≠ [])
    (found : (valuesOf optionKey directives).find? (optionFront name).isPrefixOf =
      some (optionFront name ++ addressList addresses)) :
    optionValues directives name = .ok addresses := by
  simp only [optionValues, found, List.drop_left, mapM_commaParts some']

theorem isPrefixOf_append (front text : Text) : front.isPrefixOf (front ++ text) = true := by
  simp

theorem addressList_single (address : Address) : addressList [address] = address.text := by
  simp [addressList, List.intercalate]

theorem optionValues_router (settings : Settings) (serverNodeId : Text) :
    optionValues (mainDirectives settings serverNodeId) routerOption = .ok [settings.gateway] := by
  apply optionValues_of_find (by simp)
  rw [valuesOf_option, List.find?_cons_of_pos (isPrefixOf_append _ _), addressList_single]

theorem optionValues_dns (settings : Settings) (serverNodeId : Text) :
    optionValues (mainDirectives settings serverNodeId) dnsOption = .ok settings.dnsServers := by
  have router : ¬ (optionFront dnsOption).isPrefixOf
      (optionFront routerOption ++ settings.gateway.text) = true := by
    simp only [Bool.not_eq_true]
    rfl
  apply optionValues_of_find settings.servers.1
  rw [valuesOf_option, List.find?_cons_of_neg router,
    List.find?_cons_of_pos (isPrefixOf_append _ _)]

theorem optionValues_ntp (settings : Settings) (serverNodeId : Text) :
    optionValues (mainDirectives settings serverNodeId) ntpOption = .ok settings.ntpServers := by
  have router : ¬ (optionFront ntpOption).isPrefixOf
      (optionFront routerOption ++ settings.gateway.text) = true := by
    simp only [Bool.not_eq_true]
    rfl
  have dns : ¬ (optionFront ntpOption).isPrefixOf
      (optionFront dnsOption ++ addressList settings.dnsServers) = true := by
    simp only [Bool.not_eq_true]
    rfl
  apply optionValues_of_find settings.servers.2
  rw [valuesOf_option, List.find?_cons_of_neg router, List.find?_cons_of_neg dns,
    List.find?_cons_of_pos (isPrefixOf_append _ _)]

theorem commaParts_rangeValue (settings : Settings) : commaParts (rangeValue settings) =
    [settings.rangeStart.text, settings.rangeEnd.text, settings.subnetMask.text,
      settings.leaseDuration.text] := by
  apply commaParts_intercalate (by simp)
  intro part member
  simp only [List.mem_cons, List.not_mem_nil, or_false] at member
  rcases member with rfl | rfl | rfl | rfl
  · exact isField_address _
  · exact isField_address _
  · exact isField_address _
  · exact settings.leaseDuration.isField

/-- The settings are read back, with the interface stripped of white space. -/
theorem readSettings_renderMain {settings : Settings} {serverNodeId : Text}
    (interface : OneLine settings.interface.text) (node : OneLine serverNodeId) :
    Repository.readSettings (some (renderMain settings serverNodeId)) =
      (Stripped.validate (trim isWhitespace settings.interface.text)).map
        fun read => { settings with interface := read } := by
  rw [Repository.readSettings, readDirectives_renderMain interface node, ← settingsOf_texts]
  have range : requiredSingle (mainDirectives settings serverNodeId) rangeKey =
      .ok (rangeValue settings) := by
    rw [requiredSingle, valuesOf_range]
  have name : requiredSingle (mainDirectives settings serverNodeId) interfaceKey =
      .ok (trim isWhitespace settings.interface.text) := by
    rw [requiredSingle, valuesOf_interface]
  have domain : requiredSingle (mainDirectives settings serverNodeId) domainKey =
      .ok settings.domain.text := by
    rw [requiredSingle, valuesOf_domain]
  simp only [readDirectiveSettings, range, bind, Except.bind, commaParts_rangeValue,
    optionValues_router, optionValues_dns, optionValues_ntp, name, domain]

/-! ## Reservations -/

/-- A reservation without its description, which no file holds. -/
def Reservation.plain (row : Reservation) : Reservation :=
  { row with description := [] }

theorem reservation_fields (row : Reservation) :
    ∀ part ∈ [row.macAddress.text, row.address.text, row.hostname.text], IsField part := by
  intro part member
  simp only [List.mem_cons, List.not_mem_nil, or_false] at member
  rcases member with rfl | rfl | rfl
  · exact row.macAddress.isField
  · exact isField_address row.address
  · exact row.hostname.isField

theorem solid_reservationLine (row : Reservation) : Solid (reservationLine row) := by
  have parts := Solid.intercalate solid_comma (by simp)
    fun part member => (reservation_fields row part member).solid
  simpa [reservationLine, directive] using (isKey_host.1.append solid_equals).append parts

/-- The line of a reservation is read back. -/
theorem readReservation_reservationLine (number : Nat) (row : Reservation) :
    readReservation row.category number (reservationLine row) = .ok (some row.plain) := by
  have front (value : Text) : directive hostKey value = hostFront ++ value := by
    simp [directive, hostFront]
  have loud : isSilent (reservationLine row) = false := rfl
  have named : hostFront.isPrefixOf (reservationLine row) = true := by
    rw [reservationLine, front]
    exact isPrefixOf_append _ _
  have rest : (reservationLine row).drop hostFront.length =
      [','].intercalate [row.macAddress.text, row.address.text, row.hostname.text] := by
    rw [reservationLine, front, List.drop_left]
  simp only [readReservation, loud, named, rest,
    commaParts_intercalate (List.cons_ne_nil _ _) (reservation_fields row),
    MacAddress.validate_text, readAddress_text, Hostname.validate_text, bind, Except.bind]
  rfl

/-- Silent lines are skipped. -/
theorem readReservationLines_append {category : Category} {front : List Text}
    (silent : ∀ line ∈ front, isSilent line = true) (number : Nat) (lines : List Text) :
    readReservationLines category number (front ++ lines) =
      readReservationLines category (number + front.length) lines := by
  induction front generalizing number with
  | nil => rfl
  | cons line front ih =>
      have skipped : readReservation category number line = .ok none := by
        simp [readReservation, silent line List.mem_cons_self]
      rw [List.cons_append, readReservationLines, skipped,
        ih fun other member => silent other (List.mem_cons_of_mem line member)]
      simp only [bind, Except.bind, List.length_cons, Nat.add_assoc, Nat.add_comm 1]
      cases readReservationLines category (number + (front.length + 1)) lines with
      | error refusal => rfl
      | ok rows => rfl

theorem readReservationLines_map {category : Category} {rows : List Reservation}
    (same : ∀ row ∈ rows, row.category = category) (number : Nat) :
    readReservationLines category number (rows.map reservationLine) =
      .ok (rows.map Reservation.plain) := by
  induction rows generalizing number with
  | nil => rfl
  | cons row rows ih =>
      obtain rfl := same row List.mem_cons_self
      rw [List.map_cons, readReservationLines, readReservation_reservationLine,
        ih fun other member => same other (List.mem_cons_of_mem row member)]
      rfl

theorem header_reservations (category : Category) :
    ∀ line ∈ header category.label "Réservations gérées par Ohana-Agent".toList,
      OneLine line ∧ isSilent (trim isWhitespace line) = true := by
  cases category <;> decide

/-- The file of a category is read back, ordered by address. -/
theorem readReservations_render {category : Category} {rows : List Reservation}
    (same : ∀ row ∈ rows, row.category = category) :
    readReservations category (some (renderReservations category rows)) =
      .ok ((sortedReservations rows).map Reservation.plain) := by
  have sorted : ∀ row ∈ sortedReservations rows, row.category = category := by
    intro row member
    exact same row ((List.perm_insertionSort _ rows).mem_iff.mp member)
  have clean : ∀ line ∈ header category.label "Réservations gérées par Ohana-Agent".toList ++
      (sortedReservations rows).map reservationLine, OneLine line := by
    intro line member
    rcases List.mem_append.mp member with member | member
    · exact (header_reservations category line member).1
    · obtain ⟨row, _, rfl⟩ := List.mem_map.mp member
      exact (solid_reservationLine row).oneLine
  have silent : ∀ line ∈ (header category.label
      "Réservations gérées par Ohana-Agent".toList).map (trim isWhitespace),
      isSilent line = true := by
    intro line member
    obtain ⟨given, found, rfl⟩ := List.mem_map.mp member
    exact (header_reservations category given found).2
  have stripped : ((sortedReservations rows).map reservationLine).map (trim isWhitespace) =
      (sortedReservations rows).map reservationLine := by
    rw [List.map_map]
    exact List.map_congr_left fun row _ => (solid_reservationLine row).trim_eq
  rw [readReservations, renderReservations, readLines_joinLines clean, List.map_append, stripped,
    readReservationLines_append silent, readReservationLines_map sorted]

/-! ## The whole configuration -/

/-- Rows gathered class by class are the rows in another order. -/
theorem perm_flatMap_filter {α β : Type} [DecidableEq β] {f : α → β} {classes : List β}
    (distinct : classes.Nodup) (rows : List α) (covered : ∀ row ∈ rows, f row ∈ classes) :
    (classes.flatMap fun label => rows.filter fun row => f row = label).Perm rows := by
  induction rows with
  | nil => simp
  | cons row rows ih =>
      have rest := ih fun other member => covered other (List.mem_cons_of_mem row member)
      obtain ⟨before, after, rfl⟩ := List.append_of_mem (covered row List.mem_cons_self)
      have apart : ∀ label ∈ before ++ after, f row ≠ label := by
        rintro label member rfl
        exact (List.nodup_cons.mp (List.nodup_middle.mp distinct)).1 member
      have skip : ∀ labels : List β, (∀ label ∈ labels, f row ≠ label) →
          (labels.flatMap fun label => (row :: rows).filter fun row => f row = label) =
            labels.flatMap fun label => rows.filter fun row => f row = label := by
        intro labels other
        apply List.flatMap_congr
        intro label member
        exact List.filter_cons_of_neg (by simpa using other label member)
      rw [List.flatMap_append, List.flatMap_cons] at rest ⊢
      rw [skip before fun label member => apart label (List.mem_append_left after member),
        skip after fun label member => apart label (List.mem_append_right before member),
        List.filter_cons_of_pos (by simp), List.cons_append]
      exact List.perm_middle.trans (rest.cons row)

/-- The reservations of one category as they are read back. -/
def readBack (rows : List Reservation) (category : Category) : List Reservation :=
  (sortedReservations (rows.filter fun row => row.category = category)).map Reservation.plain

theorem readAllReservations_write (repository : Repository) (configuration : Configuration)
    (files : Files) (categories : List Category)
    (configured : ∀ category ∈ categories, category ∈ repository.reservationPaths) :
    Repository.readAllReservations (repository.write configuration files) categories =
      .ok (categories.flatMap (readBack configuration.reservations)) := by
  induction categories with
  | nil => rfl
  | cons category categories ih =>
      have same : ∀ row ∈ configuration.reservations.filter fun row => row.category = category,
          row.category = category := by
        intro row member
        simpa using (List.mem_filter.mp member).2
      rw [Repository.readAllReservations,
        ih fun other member => configured other (List.mem_cons_of_mem category member)]
      simp only [Repository.write, configured category List.mem_cons_self, if_true,
        readReservations_render same]
      rfl

theorem readBack_perm (rows : List Reservation) (category : Category) :
    (readBack rows category).Perm
      ((rows.filter fun row => row.category = category).map Reservation.plain) :=
  (List.perm_insertionSort _ _).map _

/-- What decides uniqueness is read back. -/
theorem unique_of_perm {read rows : List Reservation}
    (perm : read.Perm (rows.map Reservation.plain)) (unique : Unique rows) : Unique read := by
  obtain ⟨macs, addresses, names⟩ := unique
  refine ⟨?_, ?_, ?_⟩
  · rw [(perm.map _).nodup_iff, List.map_map]
    exact macs
  · rw [(perm.map _).nodup_iff, List.map_map]
    exact addresses
  · rw [(perm.map _).nodup_iff, List.map_map]
    exact names

/-- All categories together are read back, up to order and description. -/
theorem readBack_all {classes : List Category} (distinct : classes.Nodup)
    (complete : ∀ category, category ∈ classes) (rows : List Reservation) :
    (classes.flatMap (readBack rows)).Perm (rows.map Reservation.plain) := by
  have gathered := perm_flatMap_filter (f := Reservation.category) distinct rows
    fun row _ => complete row.category
  have each : (classes.flatMap (readBack rows)).Perm (classes.flatMap fun category =>
      (rows.filter fun row => row.category = category).map Reservation.plain) :=
    List.Perm.flatMap_left classes fun category _ => readBack_perm rows category
  refine each.trans ?_
  rw [← List.map_flatMap]
  exact gathered.map Reservation.plain

theorem readConfiguration_write (repository : Repository) (configuration : Configuration)
    (files : Files) (interface : OneLine configuration.settings.interface.text)
    (node : OneLine repository.serverNodeId) :
    repository.readConfiguration (repository.write configuration files) =
      (Stripped.validate (trim isWhitespace configuration.settings.interface.text)).bind
        fun read => configurationContract repository.serverNodeId
          { configuration.settings with interface := read }
          (repository.reservationPaths.flatMap (readBack configuration.reservations)) := by
  have reservations := readAllReservations_write repository configuration files
    repository.reservationPaths fun _ => id
  have settings := readSettings_renderMain interface node
  have main : (repository.write configuration files).main =
      some (renderMain configuration.settings repository.serverNodeId) := rfl
  rw [Repository.readConfiguration, main, settings, reservations]
  cases Stripped.validate (trim isWhitespace configuration.settings.interface.text) with
  | error refusal => rfl
  | ok read => rfl

/-! ## Directives of the main file -/

/-- The lines of a file that say something. -/
def directiveLines (content : Text) : List Text :=
  (readLines content).filter fun line => !isSilent line

theorem interfaceName_end (settings : Settings) (serverNodeId : Text) :
    (interfaceName settings serverNodeId).rdropWhile isWhitespace =
      interfaceName settings serverNodeId := by
  have split : interfaceName settings serverNodeId =
      serverNodeId ++ '.' :: settings.domain.text ++ ',' :: settings.interface.text ++ ['/'] ++
        ['4'] := by
    simp [interfaceName]
  rw [split, List.rdropWhile_concat_neg _ _ _ (by decide)]

theorem trim_directive_solid {key value : Text} (isKey : IsKey key) (solid : Solid value) :
    trim isWhitespace (directive key value) = directive key value := by
  have whole := (isKey.1.append (solid_equals.append solid)).trim_eq
  simpa [directive] using whole

/-- With a stripped interface no line of the main file has white space around. -/
theorem mainLines_stripped {settings : Settings} (serverNodeId : Text)
    (stripped : trim isWhitespace settings.interface.text = settings.interface.text) :
    ∀ line ∈ mainLines settings serverNodeId, trim isWhitespace line = line := by
  have interface : trim isWhitespace (directive interfaceKey settings.interface.text) =
      directive interfaceKey settings.interface.text := by
    have ends : settings.interface.text.rdropWhile isWhitespace = settings.interface.text := by
      rw [List.rdropWhile_eq_self_iff]
      intro some'
      have last := (trim_eq_self_iff.mp stripped).2 _ (List.getLast?_eq_some_getLast some')
      simp [last]
    rw [trim_directive isKey_interface, ends]
  have name : trim isWhitespace (directive interfaceNameKey (interfaceName settings serverNodeId)) =
      directive interfaceNameKey (interfaceName settings serverNodeId) := by
    rw [trim_directive isKey_interfaceName, interfaceName_end]
  have router := trim_directive_solid isKey_option (solid_routerValue settings)
  have dns := trim_directive_solid isKey_option (solid_dnsValue settings)
  have ntp := trim_directive_solid isKey_option (solid_ntpValue settings)
  simp only [mainLines_eq, frontLines, header, settingsBlocks, List.flatMap_cons,
    List.flatMap_nil, List.cons_append, List.nil_append, List.append_nil, List.forall_mem_cons]
  exact ⟨by decide, by decide, by decide, by decide, rfl,
    interface, by decide, rfl, by decide, by decide, rfl,
    by decide, rfl, trim_directive_solid isKey_range (solid_rangeValue settings), rfl,
    router, dns, ntp, rfl, trim_directive_solid isKey_domain settings.domain.isField.solid,
    trim_directive_solid isKey_local (solid_localValue settings), by decide, rfl,
    by decide, name, by simp⟩

theorem isSilent_directive {key : Text} (isKey : IsKey key) (value : Text) :
    isSilent (directive key value) = false := by
  obtain ⟨solid, _, noHash⟩ := isKey
  cases key with
  | nil => exact absurd rfl solid.1
  | cons c key => simpa [isSilent, directive] using noHash

/-- A value that spreads over lines is cut at its first line boundary. -/
theorem directive_mem_of_broken {front : List Text} (more : List Text) {key value : Text} (isKey : IsKey key)
    (clean : ∀ line ∈ front, OneLine line) (broken : ¬ OneLine value) :
    ∃ kept, OneLine kept ∧ directive key kept ∈
      directiveLines (joinLines (front ++ directive key value :: more ++ [[]])) := by
  have visible : ∀ c ∈ key ++ ['='], (!isSeparator c) = true := by
    intro c member
    simp [(isKey.1.append solid_equals).oneLine c member]
  have cut (tail : Text) : (value ++ tail).takeWhile (fun c => !isSeparator c) =
      value.takeWhile fun c => !isSeparator c := by
    rw [List.takeWhile_append, if_neg]
    intro whole
    apply broken
    intro c member
    rw [← (List.takeWhile_prefix _).eq_of_length whole] at member
    simpa using List.mem_takeWhile_imp member
  have head : directive key (value.takeWhile fun c => !isSeparator c) ∈
      splitLines (joinLines (directive key value :: (more ++ [[]]))) := by
    apply List.mem_of_mem_head?
    rw [joinLines_cons_concat_nil, splitLines_head (by simp [directive])]
    have front : directive key value ++ '\n' :: joinLines (more ++ [[]]) =
        (key ++ ['=']) ++ (value ++ '\n' :: joinLines (more ++ [[]])) := by
      simp [directive]
    rw [front, List.takeWhile_append_of_pos visible, cut]
    simp [directive]
  refine ⟨(value.takeWhile fun c => !isSeparator c).rdropWhile isWhitespace, ?_, ?_⟩
  · intro c member
    have inside := (List.rdropWhile_prefix _ _).subset member
    simpa using List.mem_takeWhile_imp inside
  · refine List.mem_filter.mpr ⟨?_, by simp [isSilent_directive isKey]⟩
    rw [readLines, splitLines_universalNewlines, splitLines_joinLines_append clean,
      ← trim_directive isKey]
    exact List.mem_map_of_mem (List.mem_append_right _ head)

/-! ## The round trip -/

/-- The written files give the configuration back, and the main file holds no
directive other than those of its template. -/
def RoundTrips (repository : Repository) (configuration : Configuration) (files : Files) : Prop :=
  (∃ read, repository.readConfiguration (repository.write configuration files) = .ok read ∧
    read.settings = configuration.settings ∧
    (read.reservations.map Reservation.plain).Perm
      (configuration.reservations.map Reservation.plain)) ∧
  ∀ line ∈ directiveLines (renderMain configuration.settings repository.serverNodeId),
    line ∈ mainLines configuration.settings repository.serverNodeId

/-- What the main file can carry: the interface on one line without white space
around it, and a node name on one line that is not blank. -/
def Carried (repository : Repository) (configuration : Configuration) : Prop :=
  OneLine configuration.settings.interface.text ∧
    trim isWhitespace configuration.settings.interface.text =
      configuration.settings.interface.text ∧
    OneLine repository.serverNodeId ∧ trim isContractSpace repository.serverNodeId ≠ []

instance (repository : Repository) (configuration : Configuration) :
    Decidable (Carried repository configuration) :=
  inferInstanceAs (Decidable (OneLine _ ∧ _ ∧ OneLine _ ∧ _))

theorem roundTrips_of_carried {repository : Repository}
    (complete : ∀ category, category ∈ repository.reservationPaths)
    {configuration : Configuration} (files : Files)
    (carried : Carried repository configuration) : RoundTrips repository configuration files := by
  obtain ⟨interface, stripped, node, named⟩ := carried
  have gathered := readBack_all repository.distinct complete configuration.reservations
  have unique := unique_of_perm gathered configuration.unique
  constructor
  · refine ⟨⟨⟨trim isContractSpace repository.serverNodeId,
      Encoding.trim_trim repository.serverNodeId, named⟩, configuration.settings, _, unique⟩,
      ?_, rfl, ?_⟩
    · rw [readConfiguration_write repository configuration files interface node, stripped,
        Stripped.validate_text]
      simp only [Except.bind, configurationContract, Stripped.validate, dif_pos named, bind,
        dif_pos unique]
      rfl
    · have again := gathered.map Reservation.plain
      rwa [List.map_map] at again
  · intro line member
    have inside := (List.mem_filter.mp member).1
    rw [renderMain, readLines_joinLines (mainLines_oneLine interface node)] at inside
    obtain ⟨given, found, rfl⟩ := List.mem_map.mp inside
    rwa [mainLines_stripped repository.serverNodeId stripped given found]

/-- A directive of the main file whose key no other line shares. -/
theorem value_of_mem {lines : List Text} {key value other : Text}
    (only : lines.filter (key ++ ['=']).isPrefixOf = [directive key value])
    (member : directive key other ∈ lines) : other = value := by
  have front : directive key other = (key ++ ['=']) ++ other := by
    simp [directive]
  have kept : directive key other ∈ lines.filter (key ++ ['=']).isPrefixOf :=
    List.mem_filter.mpr ⟨member, by rw [front]; exact isPrefixOf_append _ other⟩
  rw [only] at kept
  simpa [directive] using List.mem_singleton.mp kept

theorem filter_interface (settings : Settings) (serverNodeId : Text) :
    (mainLines settings serverNodeId).filter (interfaceKey ++ ['=']).isPrefixOf =
      [directive interfaceKey settings.interface.text] := rfl

theorem filter_interfaceName (settings : Settings) (serverNodeId : Text) :
    (mainLines settings serverNodeId).filter (interfaceNameKey ++ ['=']).isPrefixOf =
      [directive interfaceNameKey (interfaceName settings serverNodeId)] := rfl

/-- The lines of the main file before the interface and after it. -/
theorem mainLines_split (settings : Settings) (serverNodeId : Text) :
    ∃ more, mainLines settings serverNodeId =
      header "Ohana-House".toList "Configuration DHCP gérée par Ohana-Agent".toList ++
        directive interfaceKey settings.interface.text :: more :=
  ⟨_, rfl⟩

theorem header_oneLine : ∀ line ∈ header "Ohana-House".toList
    "Configuration DHCP gérée par Ohana-Agent".toList, OneLine line := by
  decide

/-- A text that two strippings give back was stripped. -/
theorem eq_of_trim_trim {text : Text}
    (same : trim isContractSpace (trim isWhitespace text) = text) :
    trim isWhitespace text = text := by
  apply (trim_sublist isWhitespace text).eq_of_length_le
  calc text.length = (trim isContractSpace (trim isWhitespace text)).length := by rw [same]
    _ ≤ (trim isWhitespace text).length := (trim_sublist _ _).length_le

theorem Stripped.validate_eq_ok {given : Text} {read : Stripped}
    (found : Stripped.validate given = .ok read) :
    read.text = trim isContractSpace given ∧ trim isContractSpace given ≠ [] := by
  unfold Stripped.validate at found
  split at found
  · rename_i nonempty
    cases found
    exact ⟨rfl, nonempty⟩
  · contradiction

theorem configurationContract_eq_ok {serverNodeId : Text} {settings : Settings}
    {reservations : List Reservation} {read : Configuration}
    (found : configurationContract serverNodeId settings reservations = .ok read) :
    read.settings = settings ∧ trim isContractSpace serverNodeId ≠ [] := by
  obtain ⟨node, validated, rest⟩ := Store.bind_eq_ok.mp found
  split at rest
  · cases rest
    exact ⟨rfl, (Stripped.validate_eq_ok validated).2⟩
  · contradiction

theorem carried_of_roundTrips {repository : Repository} {configuration : Configuration}
    {files : Files} (roundTrips : RoundTrips repository configuration files) :
    Carried repository configuration := by
  obtain ⟨⟨read, found, same, _⟩, only⟩ := roundTrips
  have interface : OneLine configuration.settings.interface.text := by
    by_contra broken
    obtain ⟨more, split⟩ := mainLines_split configuration.settings repository.serverNodeId
    obtain ⟨kept, clean, member⟩ := directive_mem_of_broken more isKey_interface
      header_oneLine broken
    rw [← split] at member
    have equal := value_of_mem (filter_interface _ _) (only _ member)
    exact broken (equal ▸ clean)
  have node : OneLine repository.serverNodeId := by
    by_contra broken
    have spread : ¬ OneLine (interfaceName configuration.settings repository.serverNodeId) := by
      intro clean
      apply broken
      intro c member
      exact clean c (by simp [interfaceName, member])
    obtain ⟨kept, clean, member⟩ := directive_mem_of_broken [] isKey_interfaceName
      (frontLines_oneLine interface) spread
    rw [← mainLines_eq] at member
    have equal := value_of_mem (filter_interfaceName _ _) (only _ member)
    exact spread (equal ▸ clean)
  rw [readConfiguration_write repository configuration files interface node] at found
  obtain ⟨name, validated, rest⟩ := Store.bind_eq_ok.mp found
  obtain ⟨settings, named⟩ := configurationContract_eq_ok rest
  have kept : name = configuration.settings.interface :=
    congrArg Settings.interface (settings.symm.trans same)
  refine ⟨interface, eq_of_trim_trim ?_, node, named⟩
  rw [← (Stripped.validate_eq_ok validated).1, kept]

/-- The written files give the configuration back exactly when the main file can
carry its interface and the name of the node. -/
theorem written_files_round_trip_iff (repository : Repository)
    (complete : ∀ category, category ∈ repository.reservationPaths)
    (configuration : Configuration) (files : Files) :
    RoundTrips repository configuration files ↔ Carried repository configuration :=
  ⟨carried_of_roundTrips, roundTrips_of_carried complete files⟩

/-! ## A server with one reservation -/

theorem categories_nodup : [Category.infrastructure, .servers, .network, .homeAutomation,
    .critical].Nodup := by decide

theorem node_stripped : trim isContractSpace ['i', 'n', 'f', 'r', 'a'] =
    ['i', 'n', 'f', 'r', 'a'] := rfl

theorem node_nonempty : ['i', 'n', 'f', 'r', 'a'] ≠ [] := by simp

theorem nasAddress_valid : isMacAddress "AA:BB:CC:DD:EE:01".toList = true := by decide

theorem nasAddress_upper : upper "AA:BB:CC:DD:EE:01".toList = "AA:BB:CC:DD:EE:01".toList := by
  decide

theorem nasName_valid : isHostname ['n', 'a', 's'] = true := by decide

theorem nasName_lower : lower ['n', 'a', 's'] = ['n', 'a', 's'] := by decide

/-- A reservation. -/
def nas : Reservation where
  macAddress := ⟨"AA:BB:CC:DD:EE:01".toList, nasAddress_valid, nasAddress_upper⟩
  address := .ofOctets 192 168 1 20
  hostname := ⟨['n', 'a', 's'], nasName_valid, nasName_lower⟩
  category := .servers
  description := []

theorem unique_nas : Unique [nas] := by
  simp [Unique]

/-- A repository with the five files. -/
def fullRepository : Repository where
  reservationPaths := [.infrastructure, .servers, .network, .homeAutomation, .critical]
  serverNodeId := ['i', 'n', 'f', 'r', 'a']
  distinct := categories_nodup

theorem fullRepository_complete (category : Category) :
    category ∈ fullRepository.reservationPaths := by
  cases category <;> decide

/-- The default settings on another interface, with one reservation. -/
def configurationOn (interface : Stripped) : Configuration where
  serverNodeId := ⟨['i', 'n', 'f', 'r', 'a'], node_stripped, node_nonempty⟩
  settings := { defaultSettings with interface := interface }
  reservations := [nas]
  unique := unique_nas

/-- Nothing is written yet. -/
def noFiles : Files where
  main := none
  reservations _ := none

theorem written_files_round_trip_default :
    RoundTrips fullRepository (configurationOn defaultSettings.interface) noFiles :=
  (written_files_round_trip_iff fullRepository fullRepository_complete
    (configurationOn defaultSettings.interface) noFiles).mpr (by decide)

theorem twoLines_stripped : trim isContractSpace "eth0\nport=0".toList =
    "eth0\nport=0".toList := by decide

theorem twoLines_nonempty : "eth0\nport=0".toList ≠ [] := by decide

/-- An interface whose name goes on with a directive of its own. -/
def twoLines : Stripped :=
  ⟨"eth0\nport=0".toList, twoLines_stripped, twoLines_nonempty⟩

/-- Such an interface passes its contract and adds a directive to the main file. -/
theorem two_line_interface_not_read_back :
    ¬ ∀ (repository : Repository), (∀ category, category ∈ repository.reservationPaths) →
      ∀ (configuration : Configuration) (files : Files),
        RoundTrips repository configuration files := by
  intro all
  have carried := carried_of_roundTrips
    (all fullRepository fullRepository_complete (configurationOn twoLines) noFiles)
  exact absurd carried.1 (by decide)

end OhanaAgent.Host
