import OhanaAgent.Host.AdguardReservations
import OhanaAgent.Host.FailedDhcpWrites

/-!
# The purge of stale leases

The agent names the devices of the stale leases in its request, and the root
helper removes every line of the lease database with one of these devices.  The
two agree on the lines when no device has a stale lease beside one that is not,
and the helper reads the request as long as it is not too large.
-/

namespace OhanaAgent.Host

open Encoding (joinLines oneLine_of_mem_splitLines splitLines splitLines_joinLines
  splitLines_universalNewlines splitOn_map trim universalNewlines)
open Encoding.Json
open Privacy (isWhitespace)
open Store

/-! ## The helper -/

/-- A path as the helper finds it: nothing, a regular file, or something else, a
link included, which `path.exists()` may find or not. -/
inductive Entry where
  | absent
  | regular (bytes : ByteArray)
  | irregular (found : Bool)

/-- `DHCPReloadError`, or a text that is not decoded. -/
inductive ReloadError where
  | notRegular
  | tooLarge
  | invalidRequest
  | undecodable
  | unsupported
  | invalidList
  | invalidMac
  | leasesNotRegular
  | systemctl (detail : Text)
  deriving DecidableEq

/-- `str.upper`, which is known on ASCII texts. -/
structure Uppercase where
  apply : Text → Text
  ascii : ∀ text, (∀ c ∈ text, c.toNat < 128) → apply text = upper text

def maximumRequestBytes : Nat := 64 * 1024

/-- An upper-case hexadecimal digit. -/
def isUpperHexDigit (c : Char) : Bool :=
  (48 ≤ c.toNat && c.toNat ≤ 57) || (65 ≤ c.toNat && c.toNat ≤ 70)

/-- `MAC_ADDRESS_PATTERN` of the helper. -/
def isUpperMacAddress (text : Text) : Bool :=
  (text.splitOn ':').length == 6 &&
    (text.splitOn ':').all fun octet => octet.length == 2 && octet.all isUpperHexDigit

/-- The texts of an array of texts. -/
def stringItems : Items → Option (List Text)
  | .nil => some []
  | .cons (.string content) rest => (stringItems rest).map (content :: ·)
  | .cons _ _ => none

def staleLeaseMacsKey : Text := "stale_lease_macs".toList

/-- `str.split()`. -/
def words (text : Text) : List Text :=
  (text.splitOnP isWhitespace).filter fun part => !part.isEmpty

/-- `text.read_text(encoding="utf-8").splitlines()`, of a text that is decoded. -/
def fileLines (content : Text) : List Text :=
  splitLines (universalNewlines content)

section Helper

variable (uppercase : Uppercase)

/-- The addresses of the document of a request. -/
def readDocument : Value → Except ReloadError (List Text)
  | .object fields =>
      if isOne (fields.lookup schemaKey) then
        match fields.lookup staleLeaseMacsKey with
        | some (.array items) =>
            match stringItems items with
            | none => .error .invalidList
            | some rawMacs =>
                let macs := rawMacs.map uppercase.apply
                if macs.all isUpperMacAddress then .ok macs else .error .invalidMac
        | _ => .error .invalidList
      else .error .unsupported
  | _ => .error .unsupported

/-- `_read_request`. -/
def readRequest : Entry → Except ReloadError (List Text)
  | .regular bytes =>
      if maximumRequestBytes < bytes.size then .error .tooLarge
      else
        match decodeBytes bytes with
        | none => .error .undecodable
        | some content =>
            match loads (universalNewlines content) with
            | none => .error .invalidRequest
            | some document => readDocument uppercase document
  | _ => .error .notRegular

/-- A line is removed: its second word is one of the addresses. -/
def isPurged (staleMacs : List Text) (line : Text) : Bool :=
  match words line with
  | _ :: mac :: _ => decide (uppercase.apply mac ∈ staleMacs)
  | _ => false

/-- The content that is written back. -/
def leaseText (lines : List Text) : Text :=
  if lines = [] then [] else joinLines lines ++ ['\n']

/-- `_purge_stale_leases`, with the file it leaves. -/
def purgeStaleLeases (staleMacs : List Text) (leases : Entry) :
    Except ReloadError (Nat × Entry) :=
  if staleMacs = [] then .ok (0, leases)
  else
    match leases with
    | .absent => .ok (0, leases)
    | .irregular found => if found then .error .leasesNotRegular else .ok (0, leases)
    | .regular bytes =>
        match decodeBytes bytes with
        | none => .error .undecodable
        | some content =>
            let lines := fileLines content
            let retained := lines.filter fun line => !isPurged uppercase staleMacs line
            let removed := lines.countP fun line => isPurged uppercase staleMacs line
            .ok (removed, if removed = 0 then leases else .regular (encodeText (leaseText retained)))

/-- What `systemctl` raises on an action. -/
structure Systemctl where
  stop : Option Text
  start : Option Text

/-- `apply_reload`, with the lease database it leaves. -/
def applyReload (systemctl : Systemctl) (request leases : Entry) :
    Except ReloadError Nat × Entry :=
  match readRequest uppercase request with
  | .error failure => (.error failure, leases)
  | .ok staleMacs =>
      match systemctl.stop with
      | some detail => (.error (.systemctl detail), leases)
      | none =>
          let purged := purgeStaleLeases uppercase staleMacs leases
          let left := match purged with
            | .ok (_, left) => left
            | .error _ => leases
          -- dnsmasq starts again in any case
          match systemctl.start with
          | some detail => (.error (.systemctl detail), left)
          | none => (purged.map Prod.fst, left)

end Helper

/-! ## Contradictions -/

namespace Configuration

/-- A lease contradicts a reservation: the device has another address reserved, or
the address is reserved for another device. -/
def Contradicts (configuration : Configuration) (lease : Lease) : Prop :=
  ∃ row ∈ configuration.reservations,
    (row.macAddress.text = lease.macAddress.text ∧ row.address ≠ lease.address) ∨
      (row.address = lease.address ∧ row.macAddress.text ≠ lease.macAddress.text)

instance (configuration : Configuration) (lease : Lease) :
    Decidable (configuration.Contradicts lease) :=
  inferInstanceAs (Decidable (∃ row ∈ configuration.reservations, _))

variable {configuration : Configuration} {lease : Lease}

/-- The only reservation with a property is the last one. -/
theorem lastReservation_any_iff {holds test : Reservation → Bool}
    (single : ∀ first ∈ configuration.reservations, ∀ second ∈ configuration.reservations,
      holds first → holds second → first = second) :
    (configuration.lastReservation holds).any test = true ↔
      ∃ row ∈ configuration.reservations, holds row = true ∧ test row = true := by
  unfold lastReservation
  constructor
  · intro passed
    rw [Option.any_eq_true] at passed
    rcases passed with ⟨row, found, tested⟩
    exact ⟨row, List.mem_reverse.mp (List.mem_of_find?_eq_some found), List.find?_some found,
      tested⟩
  · rintro ⟨row, inside, held, tested⟩
    have some' : (configuration.reservations.reverse.find? holds).isSome :=
      List.find?_isSome.mpr ⟨row, List.mem_reverse.mpr inside, held⟩
    rcases Option.isSome_iff_exists.mp some' with ⟨last, found⟩
    have same : last = row := single last
      (List.mem_reverse.mp (List.mem_of_find?_eq_some found)) row inside (List.find?_some found) held
    rw [found, same]
    exact tested

/-- Reservations of one device are one reservation. -/
theorem eq_of_macAddress {first second : Reservation}
    (firstMem : first ∈ configuration.reservations) (secondMem : second ∈ configuration.reservations)
    (same : first.macAddress.text = second.macAddress.text) : first = second :=
  List.inj_on_of_nodup_map configuration.unique.1 firstMem secondMem (congrArg lower same)

/-- Reservations of one address are one reservation. -/
theorem eq_of_address {first second : Reservation}
    (firstMem : first ∈ configuration.reservations) (secondMem : second ∈ configuration.reservations)
    (same : first.address = second.address) : first = second :=
  List.inj_on_of_nodup_map configuration.unique.2.1 firstMem secondMem same

/-- The stale leases are those that contradict a reservation. -/
theorem isStale_iff : configuration.isStale lease = true ↔ configuration.Contradicts lease := by
  have byMac := @lastReservation_any_iff configuration
    (fun row => row.macAddress.text = lease.macAddress.text) (fun row => lease.address ≠ row.address)
    (by
      intro first firstMem second secondMem firstHolds secondHolds
      exact eq_of_macAddress firstMem secondMem
        ((of_decide_eq_true firstHolds).trans (of_decide_eq_true secondHolds).symm))
  have byAddress := @lastReservation_any_iff configuration
    (fun row => row.address = lease.address)
    (fun row => lease.macAddress.text ≠ row.macAddress.text)
    (by
      intro first firstMem second secondMem firstHolds secondHolds
      exact eq_of_address firstMem secondMem
        ((of_decide_eq_true firstHolds).trans (of_decide_eq_true secondHolds).symm))
  rw [isStale, Bool.or_eq_true, reservedAddress, reservedMac, Option.any_map, Option.any_map]
  constructor
  · rintro (other | taken)
    · rcases byMac.mp other with ⟨row, inside, same, different⟩
      exact ⟨row, inside, Or.inl ⟨of_decide_eq_true same, (of_decide_eq_true different).symm⟩⟩
    · rcases byAddress.mp taken with ⟨row, inside, same, different⟩
      exact ⟨row, inside, Or.inr ⟨of_decide_eq_true same, (of_decide_eq_true different).symm⟩⟩
  · rintro ⟨row, inside, ⟨same, different⟩ | ⟨same, different⟩⟩
    · left
      exact byMac.mpr ⟨row, inside, decide_eq_true same, decide_eq_true different.symm⟩
    · right
      exact byAddress.mpr ⟨row, inside, decide_eq_true same, decide_eq_true different.symm⟩

end Configuration

/-! ## Lines -/

/-- The lease of a line. -/
def lineLease (line : Text) : Option Lease :=
  match readLease 0 (trim isWhitespace line) with
  | .ok lease => lease
  | .error _ => none

/-- The line of a lease that contradicts a reservation. -/
def Contradicting (configuration : Configuration) (line : Text) : Prop :=
  ∃ lease ∈ lineLease line, configuration.Contradicts lease

instance (configuration : Configuration) (line : Text) :
    Decidable (Contradicting configuration line) :=
  decidable_of_iff ((lineLease line).any fun lease => configuration.Contradicts lease) (by
    rw [Option.any_eq_true]
    simp [Contradicting])

theorem words_append_cons {c : Char} (blank : isWhitespace c = true) (front rest : Text) :
    words (front ++ c :: rest) = words front ++ words rest := by
  rw [words, List.splitOnP_append_cons front rest blank, List.filter_append]
  rfl

/-- White space at the ends is no word. -/
theorem words_trim (text : Text) : words (trim isWhitespace text) = words text := by
  have front (text : Text) : words (text.dropWhile isWhitespace) = words text := by
    induction text with
    | nil => rfl
    | cons c rest inductionHypothesis =>
        by_cases blank : isWhitespace c = true
        · rw [List.dropWhile_cons_of_pos blank, inductionHypothesis]
          exact (words_append_cons blank [] rest).symm
        · rw [List.dropWhile_cons_of_neg blank]
  have back (text : Text) : words (text.rdropWhile isWhitespace) = words text := by
    induction text using List.reverseRecOn with
    | nil => rfl
    | append_singleton front c inductionHypothesis =>
        by_cases blank : isWhitespace c = true
        · rw [List.rdropWhile_concat_pos _ _ _ blank, inductionHypothesis]
          exact ((words_append_cons blank front []).trans (List.append_nil _)).symm
        · rw [List.rdropWhile_concat_neg _ _ _ blank]
  rw [trim, back, front]

/-- A part has no character of the class that splits. -/
theorem plain_of_mem_splitOnP {α : Type*} {p : α → Bool} {text part : List α}
    (member : part ∈ text.splitOnP p) : ∀ c ∈ part, p c = false := by
  induction text generalizing part with
  | nil =>
      rw [List.splitOnP_nil, List.mem_singleton] at member
      simp [member]
  | cons first rest inductionHypothesis =>
      rw [List.splitOnP_cons_eq_if_modifyHead] at member
      split at member
      · rcases List.mem_cons.mp member with rfl | later
        · simp
        · exact inductionHypothesis later
      · rename_i visible
        rcases List.exists_cons_of_ne_nil (List.splitOnP_ne_nil p rest) with ⟨head, tail, split⟩
        rw [split, List.modifyHead_cons] at member
        rw [split] at inductionHypothesis
        rcases List.mem_cons.mp member with rfl | later
        · intro c inside
          rcases List.mem_cons.mp inside with rfl | inside
          · exact Bool.eq_false_of_not_eq_true visible
          · exact inductionHypothesis List.mem_cons_self c inside
        · exact inductionHypothesis (List.mem_cons_of_mem head later)

/-- Nothing is trimmed from a word. -/
theorem trim_word {text word : Text} (member : word ∈ words text) :
    trim isContractSpace word = word := by
  have plain : ∀ c ∈ word, isContractSpace c = false := fun c inside => by
    rw [isContractSpace, plain_of_mem_splitOnP (List.mem_filter.mp member).1 c inside,
      Bool.false_and]
  rw [Encoding.trim_eq_self_iff]
  exact ⟨fun c first => plain c (List.mem_of_head? first),
    fun c last => plain c (List.mem_of_getLast? last)⟩

/-- A validated lease has its address in upper case. -/
theorem macAddress_of_validate {expiresAt : Int} {mac address : Text}
    {hostname clientId : Option Text} {lease : Lease}
    (valid : Lease.validate expiresAt mac address hostname clientId = .ok lease) :
    isMacAddress (trim isContractSpace mac) = true ∧
      lease.macAddress.text = upper (trim isContractSpace mac) := by
  unfold Lease.validate MacAddress.validate at valid
  split at valid
  · by_cases shaped : isMacAddress (trim isContractSpace mac) = true
    · rw [dif_pos shaped] at valid
      cases parsed : Address.parse address with
      | none =>
          rw [parsed] at valid
          cases valid
      | some address =>
          rw [parsed] at valid
          cases valid
          exact ⟨shaped, rfl⟩
    · rw [dif_neg shaped] at valid
      cases valid
  · cases valid

/-- A line that is read is blank, or has five words and a lease. -/
theorem readLease_cases {number : Nat} {line : Text} {found : Option Lease}
    (read : readLease number line = .ok found) :
    (line = [] ∧ found = none) ∨
      ∃ expiresAt mac address hostname clientId more instant lease,
        words line = expiresAt :: mac :: address :: hostname :: clientId :: more ∧
          Lease.validate instant mac address (optional hostname) (optional clientId) =
            .ok lease ∧ found = some lease := by
  unfold readLease at read
  split at read
  · rename_i blank
    cases read
    exact Or.inl ⟨blank, rfl⟩
  · split at read
    · rename_i expiresAt mac address hostname clientId more parts
      split at read
      · cases read
      · rename_i instant _
        cases valid : Lease.validate instant mac address (optional hostname)
            (optional clientId) with
        | error failure =>
            rw [valid] at read
            cases read
        | ok lease =>
            rw [valid] at read
            cases read
            exact Or.inr ⟨expiresAt, mac, address, hostname, clientId, more, instant, lease, parts,
              valid, rfl⟩
    · cases read

/-- The second word of the line of a lease is its address, in some case. -/
theorem words_of_lineLease {line : Text} {lease : Lease} (found : lineLease line = some lease) :
    ∃ first mac rest, words line = first :: mac :: rest ∧ isMacAddress mac = true ∧
      lease.macAddress.text = upper mac := by
  unfold lineLease at found
  split at found
  · rename_i read
    subst found
    rcases readLease_cases read with ⟨_, none'⟩ |
      ⟨expiresAt, mac, address, _, _, _, _, _, parts, valid, same⟩
    · cases none'
    · cases same
      rw [words_trim] at parts
      have word : mac ∈ words line := by
        rw [parts]
        exact List.mem_cons_of_mem _ List.mem_cons_self
      have shape := macAddress_of_validate valid
      rw [trim_word word] at shape
      exact ⟨expiresAt, mac, _, parts, shape⟩
  · cases found

/-- The number of a line is only named in errors. -/
theorem readLease_zero {number : Nat} {line : Text} {found : Option Lease}
    (read : readLease number line = .ok found) : readLease 0 line = .ok found := by
  unfold readLease at read ⊢
  split at read
  · rename_i blank
    rw [if_pos blank]
    exact read
  · rename_i visible
    rw [if_neg visible]
    split at read
    · exact read
    · cases read

/-- The leases are those of the lines, and a line without a lease has no word. -/
theorem readLeaseLines_eq_ok {lines : List Text} {number : Nat} {leases : List Lease}
    (read : readLeaseLines number (lines.map (trim isWhitespace)) = .ok leases) :
    leases = lines.filterMap lineLease ∧ ∀ line ∈ lines, lineLease line = none → words line = [] := by
  induction lines generalizing number leases with
  | nil =>
      cases read
      exact ⟨rfl, fun _ inside => absurd inside List.not_mem_nil⟩
  | cons line rest inductionHypothesis =>
      rcases bind_eq_ok.mp read with ⟨first, firstRead, read⟩
      rcases bind_eq_ok.mp read with ⟨others, othersRead, same⟩
      cases same
      rcases inductionHypothesis othersRead with ⟨rfl, blanks⟩
      have own : lineLease line = first := by
        rw [lineLease, readLease_zero firstRead]
      constructor
      · rw [List.filterMap_cons, own]
        cases first <;> rfl
      · intro other inside none'
        rcases List.mem_cons.mp inside with rfl | later
        · rw [own] at none'
          subst none'
          rcases readLease_cases firstRead with ⟨blank, _⟩ |
            ⟨_, _, _, _, _, _, _, _, _, _, some'⟩
          · rw [← words_trim, blank]
            rfl
          · cases some'
        · exact blanks other later none'

/-! ## The request -/

/-- An address as the agent writes it. -/
def Written (mac : Text) : Prop :=
  isMacAddress mac = true ∧ upper mac = mac

theorem written_staleLeaseMacs {configuration : Configuration} {leases : List Lease} {mac : Text}
    (member : mac ∈ configuration.staleLeaseMacs leases) : Written mac := by
  rw [Configuration.staleLeaseMacs, List.mem_insertionSort, List.mem_dedup, List.mem_map] at member
  rcases member with ⟨lease, _, rfl⟩
  exact ⟨lease.macAddress.valid, lease.macAddress.normalized⟩

/-- The addresses of the stale leases. -/
theorem mem_staleLeaseMacs_iff {configuration : Configuration} {leases : List Lease} {mac : Text} :
    mac ∈ configuration.staleLeaseMacs leases ↔
      ∃ lease ∈ leases, configuration.Contradicts lease ∧ lease.macAddress.text = mac := by
  rw [Configuration.staleLeaseMacs, List.mem_insertionSort, List.mem_dedup, List.mem_map]
  simp only [List.mem_filter, Configuration.isStale_iff, and_assoc]

theorem escapeChar_of_isFieldChar {c : Char} (field : isFieldChar c = true) :
    escapeChar c = [c] := by
  revert c
  apply of_isFieldChar
  decide

/-- A text of characters that are not escaped is rendered as it is. -/
theorem escape_eq_self {text : Text} (plain : ∀ c ∈ text, escapeChar c = [c]) :
    escape text = text := by
  unfold escape
  induction text with
  | nil => rfl
  | cons c rest inductionHypothesis =>
      rw [List.flatMap_cons, plain c List.mem_cons_self,
        inductionHypothesis fun d inside => plain d (List.mem_cons_of_mem c inside)]
      rfl

theorem escape_of_written {mac : Text} (written : Written mac) : escape mac = mac :=
  escape_eq_self fun c inside =>
    escapeChar_of_isFieldChar ((isField_of_isMacAddress written.1).2 c inside)

/-- An address has seventeen characters. -/
theorem exists_six {parts : List Text} (six : parts.length = 6) :
    ∃ a b c d e f, parts = [a, b, c, d, e, f] := by
  rcases parts with _ | ⟨a, _ | ⟨b, rest⟩⟩
  · cases six
  · cases six
  · obtain ⟨c, d, e, f, rfl⟩ := List.length_eq_four.mp (Nat.add_right_cancel (m := 2) six)
    exact ⟨a, b, c, d, e, f, rfl⟩

theorem length_of_isMacAddress {mac : Text} (valid : isMacAddress mac = true) :
    mac.length = 17 := by
  simp only [isMacAddress, Bool.and_eq_true, beq_iff_eq, List.all_eq_true] at valid
  have joined : [':'].intercalate (mac.splitOn ':') = mac := List.intercalate_splitOn ':'
  rcases valid with ⟨six, pairs⟩
  obtain ⟨a, b, c, d, e, f, parts⟩ := exists_six six
  rw [parts] at joined pairs
  have two (part : Text) (inside : part ∈ [a, b, c, d, e, f]) : part.length = 2 :=
    (pairs part inside).1
  rw [← joined]
  simp [List.intercalate, two a (by simp), two b (by simp), two c (by simp), two d (by simp),
    two e (by simp), two f (by simp)]

/-- The helper accepts the addresses that the agent writes. -/
theorem isUpperMacAddress_of_written {mac : Text} (written : Written mac) :
    isUpperMacAddress mac = true := by
  have field := (isField_of_isMacAddress written.1).2
  have upperDigit : ∀ c, isFieldChar c = true → isHexDigit c = true → c.toUpper = c →
      isUpperHexDigit c = true := by
    intro c
    apply of_isFieldChar
    decide
  have parts : (mac.splitOn ':').map upper = (mac.splitOn ':').map id := by
    have mapped : (upper mac).splitOn ':' = (mac.splitOn ':').map upper :=
      splitOn_map fun c member => (isHexDigit_toUpper (field c member)).2.1
    rw [← mapped, written.2, List.map_id]
  have valid := written.1
  simp only [isMacAddress, isUpperMacAddress, Bool.and_eq_true, beq_iff_eq,
    List.all_eq_true] at valid ⊢
  constructor
  · exact valid.1
  · intro octet among
    have same : octet.map Char.toUpper = octet.map id :=
      (List.map_inj_left.mp parts octet among).trans (List.map_id octet).symm
    constructor
    · exact (valid.2 octet among).1
    · intro c inside
      have hex := (valid.2 octet among).2 c inside
      exact upperDigit c (isFieldChar_of_isHexDigit hex) hex (List.map_inj_left.mp same c inside)

/-- The document of a request. -/
def requestDocument (timeNs : Nat) (macs : List Text) : Value :=
  .object (.cons schemaKey (.number (.ofNat 1))
    (.cons "requested_at_ns".toList (.number (.ofNat timeNs))
      (.cons staleLeaseMacsKey (.array (.ofList (macs.map Value.string))) .nil)))

theorem reloadText_eq (timeNs : Nat) (macs : List Text) :
    reloadText timeNs macs = render (requestDocument timeNs macs) ++ ['\n'] := rfl

theorem distinctKeys_requestDocument (timeNs : Nat) (macs : List Text) :
    DistinctKeys (requestDocument timeNs macs) := by
  have items : DistinctItems (.ofList (macs.map Value.string)) := by
    induction macs with
    | nil => trivial
    | cons mac rest inductionHypothesis => exact ⟨trivial, inductionHypothesis⟩
  have first : schemaKey ∉ ["requested_at_ns".toList, staleLeaseMacsKey] := by decide
  have second : "requested_at_ns".toList ∉ [staleLeaseMacsKey] := by decide
  exact ⟨first, trivial, second, trivial, List.not_mem_nil, items, trivial⟩

theorem stringItems_ofList (macs : List Text) :
    stringItems (.ofList (macs.map Value.string)) = some macs := by
  induction macs with
  | nil => rfl
  | cons mac rest inductionHypothesis =>
      rw [List.map_cons, Items.ofList, stringItems, inductionHypothesis, Option.map_some]

/-- The helper finds the addresses in the document. -/
theorem readDocument_requestDocument (uppercase : Uppercase) (timeNs : Nat) {macs : List Text}
    (written : ∀ mac ∈ macs, Written mac) :
    readDocument uppercase (requestDocument timeNs macs) = .ok macs := by
  have same : macs.map uppercase.apply = macs := by
    rw [List.map_congr_left (g := id), List.map_id]
    intro mac inside
    have ascii : ∀ c ∈ mac, c.toNat < 128 := fun c member =>
      isFieldChar_ascii ((isField_of_isMacAddress (written mac inside).1).2 c member)
    exact (uppercase.ascii mac ascii).trans (written mac inside).2
  have valid : macs.all isUpperMacAddress = true :=
    List.all_eq_true.mpr fun mac inside => isUpperMacAddress_of_written (written mac inside)
  have one : isOne (some (.number (.ofNat 1))) = true := by decide
  have version : (Fields.cons schemaKey (.number (.ofNat 1))
      (.cons "requested_at_ns".toList (.number (.ofNat timeNs))
        (.cons staleLeaseMacsKey (.array (.ofList (macs.map Value.string))) .nil))).lookup
          schemaKey = some (.number (.ofNat 1)) := rfl
  have list : (Fields.cons schemaKey (.number (.ofNat 1))
      (.cons "requested_at_ns".toList (.number (.ofNat timeNs))
        (.cons staleLeaseMacsKey (.array (.ofList (macs.map Value.string))) .nil))).lookup
          staleLeaseMacsKey = some (.array (.ofList (macs.map Value.string))) := rfl
  rw [requestDocument, readDocument, version, if_pos one, list]
  simp only [stringItems_ofList, same, valid, if_true]

/-- The text of a request up to the time. -/
def requestFront : Text := "\x7b\"schema_version\":1,\"requested_at_ns\":".toList

/-- The text of a request between the time and the addresses. -/
def requestMiddle : Text := ",\"stale_lease_macs\":[".toList

/-- The text of a request after the addresses. -/
def requestEnd : Text := "]\x7d\n".toList

theorem reloadText_parts (timeNs : Nat) (macs : List Text) :
    reloadText timeNs macs = requestFront ++ (Nat.toDigits 10 timeNs ++ (requestMiddle ++
      (renderItems (.ofList (macs.map Value.string)) ++ requestEnd))) := by
  have one : Nat.toDigits 10 1 = ['1'] := by decide
  have schema : escape schemaKey = schemaKey := escape_eq_self (by decide)
  have list : escape staleLeaseMacsKey = staleLeaseMacsKey := escape_eq_self (by decide)
  have time : escape "requested_at_ns".toList = "requested_at_ns".toList :=
    escape_eq_self (by decide)
  have rendered : reloadText timeNs macs =
      '\x7b' :: ('\x22' :: (escape schemaKey ++ '\x22' :: ':' :: (Nat.toDigits 10 1 ++ ',' ::
        '\x22' :: (escape "requested_at_ns".toList ++ '\x22' :: ':' ::
          (Nat.toDigits 10 timeNs ++ ',' ::
            '\x22' :: (escape staleLeaseMacsKey ++ '\x22' :: ':' ::
              '[' :: (renderItems (.ofList (macs.map Value.string)) ++ [']'])))))) ++
        ['\x7d']) ++ ['\n'] := rfl
  have front : requestFront = '\x7b' :: '\x22' :: (schemaKey ++ ['\x22', ':', '1', ',', '\x22'] ++
      "requested_at_ns".toList ++ ['\x22', ':']) := by decide
  have middle : requestMiddle = [',', '\x22'] ++ staleLeaseMacsKey ++ ['\x22', ':', '['] := by
    decide
  have last : requestEnd = [']', '\x7d', '\n'] := by decide
  rw [rendered, one, schema, list, time, front, middle, last]
  simp only [List.append_assoc, List.cons_append, List.nil_append]

theorem renderItems_cons_cons {mac next : Text} (written : Written mac) (more : List Text) :
    renderItems (.ofList ((mac :: next :: more).map Value.string)) =
      '\x22' :: (mac ++ ['\x22']) ++
        ',' :: renderItems (.ofList ((next :: more).map Value.string)) := by
  have unfolded : renderItems (.ofList ((mac :: next :: more).map Value.string)) =
      '\x22' :: (escape mac ++ ['\x22']) ++
        ',' :: renderItems (.ofList ((next :: more).map Value.string)) := rfl
  rw [unfolded, escape_of_written written]

theorem renderItems_singleton {mac : Text} (written : Written mac) :
    renderItems (.ofList ([mac].map Value.string)) = '\x22' :: (mac ++ ['\x22']) := by
  have unfolded : renderItems (.ofList ([mac].map Value.string)) =
      '\x22' :: (escape mac ++ ['\x22']) := rfl
  rw [unfolded, escape_of_written written]

/-- The rendered addresses take twenty characters each, without a last comma. -/
theorem length_renderItems {macs : List Text} (written : ∀ mac ∈ macs, Written mac) :
    (renderItems (.ofList (macs.map Value.string))).length = 20 * macs.length - 1 := by
  induction macs with
  | nil => rfl
  | cons mac rest inductionHypothesis =>
      have own := written mac List.mem_cons_self
      have later := inductionHypothesis fun other inside =>
        written other (List.mem_cons_of_mem mac inside)
      have size := length_of_isMacAddress own.1
      cases rest with
      | nil =>
          rw [renderItems_singleton own]
          simp [size]
      | cons next more =>
          rw [renderItems_cons_cons own, List.length_append, List.length_cons (a := ','), later]
          simp [size]
          omega

/-- The characters of a request. -/
def isRequestChar (c : Char) : Bool :=
  c.toNat < 128 && c != '\r'

theorem isRequestChar_of_isFieldChar {c : Char} (field : isFieldChar c = true) :
    isRequestChar c = true := by
  revert c
  apply of_isFieldChar
  decide

theorem all_isRequestChar_reloadText (timeNs : Nat) {macs : List Text}
    (written : ∀ mac ∈ macs, Written mac) :
    ∀ c ∈ reloadText timeNs macs, isRequestChar c = true := by
  have quoted {mac : Text} (own : Written mac) :
      ∀ c ∈ '\x22' :: (mac ++ ['\x22']), isRequestChar c = true := by
    intro c inside
    simp only [List.mem_cons, List.mem_append, List.not_mem_nil, or_false] at inside
    rcases inside with rfl | inside | rfl
    · decide
    · exact isRequestChar_of_isFieldChar ((isField_of_isMacAddress own.1).2 c inside)
    · decide
  have items : ∀ c ∈ renderItems (.ofList (macs.map Value.string)), isRequestChar c = true := by
    induction macs with
    | nil => exact fun c inside => absurd inside List.not_mem_nil
    | cons mac rest inductionHypothesis =>
        have own := written mac List.mem_cons_self
        have later := inductionHypothesis fun other inside =>
          written other (List.mem_cons_of_mem mac inside)
        cases rest with
        | nil =>
            rw [renderItems_singleton own]
            exact quoted own
        | cons next more =>
            intro c inside
            rw [renderItems_cons_cons own, List.mem_append] at inside
            rcases inside with inside | inside
            · exact quoted own c inside
            · rcases List.mem_cons.mp inside with comma | inside
              · rw [comma]
                decide
              · exact later c inside
  have digits : ∀ c ∈ Nat.toDigits 10 timeNs, isRequestChar c = true := fun c inside =>
    isRequestChar_of_isFieldChar (isFieldChar_of_isDigit
      (Nat.isDigit_of_mem_toDigits (by decide) (by decide) inside))
  have fixed : ∀ c ∈ requestFront ++ requestMiddle ++ requestEnd, isRequestChar c = true := by
    decide
  intro c inside
  rw [reloadText_parts] at inside
  simp only [List.mem_append] at inside fixed
  rcases inside with inside | inside | inside | inside | inside
  · exact fixed c (Or.inl (Or.inl inside))
  · exact digits c inside
  · exact fixed c (Or.inl (Or.inr inside))
  · exact items c inside
  · exact fixed c (Or.inr inside)

/-- The bytes of an ASCII text. -/
theorem size_encodeText {text : Text} (ascii : ∀ c ∈ text, c.toNat < 128) :
    (encodeText text).size = text.length := by
  have single : ∀ c ∈ text, (String.utf8EncodeChar c).length = 1 := by
    intro c inside
    have small : c.val.toNat ≤ 127 := Nat.le_of_lt_succ (ascii c inside)
    rw [String.length_utf8EncodeChar, Char.utf8Size, if_pos]
    exact small
  have bytes : (encodeText text).size = (text.flatMap String.utf8EncodeChar).length := by
    rw [encodeText, String.toByteArray_ofList, List.utf8Encode, List.size_toByteArray]
  rw [bytes, List.length_flatMap, List.map_congr_left (g := fun _ => 1) single]
  simp

theorem universalNewlines_eq_self {text : Text} (plain : ∀ c ∈ text, c ≠ '\r') :
    universalNewlines text = text := by
  induction text with
  | nil => rfl
  | cons c rest inductionHypothesis =>
      rw [universalNewlines, if_neg (plain c List.mem_cons_self),
        inductionHypothesis fun d inside => plain d (List.mem_cons_of_mem c inside)]

/-- The bytes of a request for a number of addresses. -/
def requestSize (timeNs count : Nat) : Nat :=
  62 + (Nat.toDigits 10 timeNs).length + (20 * count - 1)

theorem size_reloadText (timeNs : Nat) {macs : List Text} (written : ∀ mac ∈ macs, Written mac) :
    (encodeText (reloadText timeNs macs)).size = requestSize timeNs macs.length := by
  have ascii : ∀ c ∈ reloadText timeNs macs, c.toNat < 128 := by
    intro c inside
    have plain := all_isRequestChar_reloadText timeNs written c inside
    rw [isRequestChar, Bool.and_eq_true] at plain
    exact of_decide_eq_true plain.1
  have front : requestFront.length = 38 := by decide
  have middle : requestMiddle.length = 21 := by decide
  have last : requestEnd.length = 3 := by decide
  rw [size_encodeText ascii, reloadText_parts, List.length_append, List.length_append,
    List.length_append, List.length_append, length_renderItems written, front, middle, last,
    requestSize]
  omega

/-- The helper reads a request of the agent as long as it is not too large. -/
theorem readRequest_written (uppercase : Uppercase) (timeNs : Nat) {macs : List Text}
    (written : ∀ mac ∈ macs, Written mac) :
    readRequest uppercase (.regular (encodeText (reloadText timeNs macs))) =
      if maximumRequestBytes < requestSize timeNs macs.length then .error .tooLarge
      else .ok macs := by
  have plain : ∀ c ∈ reloadText timeNs macs, c ≠ '\r' := by
    intro c inside carriage
    have plain := all_isRequestChar_reloadText timeNs written c inside
    rw [carriage] at plain
    exact absurd plain (by decide)
  have loaded : loads (universalNewlines (reloadText timeNs macs)) =
      some (requestDocument timeNs macs) := by
    rw [universalNewlines_eq_self plain, reloadText_eq,
      loads_render_newline (distinctKeys_requestDocument timeNs macs)]
  rw [readRequest, size_reloadText timeNs written]
  simp only [decodeBytes_encodeText, loaded, readDocument_requestDocument uppercase timeNs written]

/-! ## The lines that are removed -/

/-- The lines that are written back are read as they were. -/
theorem fileLines_leaseText {lines : List Text}
    (clean : ∀ line ∈ lines, Encoding.OneLine line) : fileLines (leaseText lines) = lines := by
  have joined : leaseText lines = joinLines (lines ++ [[]]) := by
    rw [leaseText]
    split
    · rename_i none'
      subst none'
      rfl
    · rename_i some'
      clear clean
      induction lines with
      | nil => exact absurd rfl some'
      | cons line rest inductionHypothesis =>
          cases rest with
          | nil => simp [joinLines, List.intercalate]
          | cons next more =>
              have later := inductionHypothesis (List.cons_ne_nil next more)
              rw [List.cons_append, Encoding.joinLines_cons_concat_nil line (next :: more), ← later]
              simp [joinLines, List.intercalate]
  rw [fileLines, splitLines_universalNewlines, joined, splitLines_joinLines clean]

theorem clean_fileLines {content line : Text} (inside : line ∈ fileLines content) :
    Encoding.OneLine line :=
  oneLine_of_mem_splitLines inside

/-- The helper leaves the lines that it does not remove. -/
theorem purgeStaleLeases_lines (uppercase : Uppercase) (staleMacs : List Text) {bytes : ByteArray}
    {content : Text} (decoded : decodeBytes bytes = some content) :
    ∃ removed left leftContent,
      purgeStaleLeases uppercase staleMacs (.regular bytes) = .ok (removed, .regular left) ∧
        decodeBytes left = some leftContent ∧
          fileLines leftContent =
            (fileLines content).filter fun line => !isPurged uppercase staleMacs line := by
  unfold purgeStaleLeases
  by_cases none' : staleMacs = []
  · have all : ((fileLines content).filter fun line => !isPurged uppercase staleMacs line) =
        fileLines content := by
      rw [List.filter_eq_self]
      intro line _
      rw [none', isPurged]
      split <;> simp
    rw [if_pos none']
    exact ⟨0, bytes, content, rfl, decoded, all.symm⟩
  · rw [if_neg none']
    simp only [decoded]
    split
    · rename_i unchanged
      have all : ((fileLines content).filter fun line => !isPurged uppercase staleMacs line) =
          fileLines content := by
        rw [List.filter_eq_self]
        intro line inside
        have kept := List.countP_eq_zero.mp unchanged line inside
        simpa using kept
      exact ⟨_, bytes, content, rfl, decoded, all.symm⟩
    · refine ⟨_, _, _, rfl, decodeBytes_encodeText _, ?_⟩
      apply fileLines_leaseText
      intro line inside
      exact clean_fileLines (List.mem_filter.mp inside).1

/-- The helper removes the lines of leases with one of the addresses. -/
theorem isPurged_iff (uppercase : Uppercase) {staleMacs : List Text} {line : Text}
    (blank : lineLease line = none → words line = []) :
    isPurged uppercase staleMacs line = true ↔
      ∃ lease, lineLease line = some lease ∧ lease.macAddress.text ∈ staleMacs := by
  cases found : lineLease line with
  | none => simp [isPurged, blank found]
  | some lease =>
      rcases words_of_lineLease found with ⟨first, mac, rest, parts, valid, same⟩
      have ascii : ∀ c ∈ mac, c.toNat < 128 := fun c inside =>
        isFieldChar_ascii ((isField_of_isMacAddress valid).2 c inside)
      rw [isPurged, parts]
      simp [uppercase.ascii mac ascii, same]

theorem contradicting_iff {configuration : Configuration} {line : Text} :
    Contradicting configuration line ↔
      ∃ lease, lineLease line = some lease ∧ configuration.Contradicts lease := by
  simp [Contradicting]

/-! ## Only stale leases are purged -/

/-- Of the lines before, exactly those that contradict a reservation are gone. -/
def PurgedExactly (configuration : Configuration) (before after : List Text) : Prop :=
  after = before.filter (fun line => ¬ Contradicting configuration line) ∧
    ∀ line ∈ after, ¬ Contradicting configuration line

/-- The helper reads a request, and removes exactly the leases that contradict a
reservation. -/
def OnlyStalePurged (uppercase : Uppercase) (systemctl : Systemctl) (configuration : Configuration)
    (request leases : ByteArray) : Prop :=
  ∃ macs content left leftContent,
    readRequest uppercase (.regular request) = .ok macs ∧ decodeBytes leases = some content ∧
      (applyReload uppercase systemctl (.regular request) (.regular leases)).2 = .regular left ∧
        decodeBytes left = some leftContent ∧
          PurgedExactly configuration (fileLines content) (fileLines leftContent)

namespace Configuration

/-- No device has a lease that contradicts a reservation beside one that does not. -/
def Separates (configuration : Configuration) (leases : List Lease) : Prop :=
  ∀ first ∈ leases, ∀ second ∈ leases, first.macAddress.text = second.macAddress.text →
    configuration.Contradicts first → configuration.Contradicts second

instance (configuration : Configuration) (leases : List Lease) :
    Decidable (configuration.Separates leases) :=
  inferInstanceAs (Decidable (∀ first ∈ leases, ∀ second ∈ leases, _ → _ → _))

/-- The devices with a lease that contradicts a reservation. -/
def contradicting (configuration : Configuration) (leases : List Lease) : List Text :=
  ((leases.filter fun lease => configuration.Contradicts lease).map fun lease =>
    lease.macAddress.text).dedup

theorem length_staleLeaseMacs (configuration : Configuration) (leases : List Lease) :
    (configuration.staleLeaseMacs leases).length = (configuration.contradicting leases).length := by
  have same : leases.filter configuration.isStale =
      leases.filter fun lease => configuration.Contradicts lease := by
    apply List.filter_congr
    intro lease _
    rw [Bool.eq_iff_iff, isStale_iff, decide_eq_true_iff]
  rw [staleLeaseMacs, contradicting, List.length_insertionSort, same]

end Configuration

/-- The helper removes exactly the contradicting leases when they are told apart by
their devices. -/
theorem filter_isPurged_iff (uppercase : Uppercase) {configuration : Configuration}
    {lines : List Text} (blank : ∀ line ∈ lines, lineLease line = none → words line = []) :
    (lines.filter fun line => !isPurged uppercase
        (configuration.staleLeaseMacs (lines.filterMap lineLease)) line) =
      (lines.filter fun line => ¬ Contradicting configuration line) ↔
        configuration.Separates (lines.filterMap lineLease) := by
  have purged : ∀ line ∈ lines, isPurged uppercase
      (configuration.staleLeaseMacs (lines.filterMap lineLease)) line = true ↔
        ∃ lease, lineLease line = some lease ∧
          ∃ other ∈ lines.filterMap lineLease, configuration.Contradicts other ∧
            other.macAddress.text = lease.macAddress.text := by
    intro line inside
    rw [isPurged_iff uppercase (blank line inside)]
    simp only [mem_staleLeaseMacs_iff]
  constructor
  · intro same first firstMem second secondMem device contradicts
    rcases List.mem_filterMap.mp secondMem with ⟨line, inside, found⟩
    have gone : isPurged uppercase (configuration.staleLeaseMacs (lines.filterMap lineLease)) line =
        true := (purged line inside).mpr ⟨second, found, first, firstMem, contradicts, device⟩
    have absent : line ∉ lines.filter fun line => ¬ Contradicting configuration line := by
      rw [← same, List.mem_filter]
      simp [gone]
    rw [List.mem_filter, decide_eq_true_iff, not_and, not_not] at absent
    rcases contradicting_iff.mp (absent inside) with ⟨lease, own, wrong⟩
    rw [found] at own
    cases own
    exact wrong
  · intro separates
    apply List.filter_congr
    intro line inside
    rw [Bool.eq_iff_iff, Bool.not_eq_true', ← Bool.not_eq_true, purged line inside,
      decide_eq_true_iff, contradicting_iff]
    apply not_congr
    constructor
    · rintro ⟨lease, found, other, otherMem, wrong, device⟩
      exact ⟨lease, found, separates other otherMem lease
        (List.mem_filterMap.mpr ⟨line, inside, found⟩) device wrong⟩
    · rintro ⟨lease, found, wrong⟩
      exact ⟨lease, found, lease, List.mem_filterMap.mpr ⟨line, inside, found⟩, wrong, rfl⟩

/-- A written request has the helper purge exactly the contradicting leases when they
are told apart by their devices and the request is not too large. -/
theorem onlyStalePurged_iff (uppercase : Uppercase) {systemctl : Systemctl}
    (stops : systemctl.stop = none) (configuration : Configuration) (timeNs : Nat)
    {bytes : ByteArray} {leases : List Lease}
    (read : LeaseDatabase.readLeases ⟨some bytes, none⟩ = .ok leases) :
    OnlyStalePurged uppercase systemctl configuration
        (encodeText (reloadText timeNs (configuration.staleLeaseMacs leases))) bytes ↔
      configuration.Separates leases ∧
        requestSize timeNs (configuration.contradicting leases).length ≤ maximumRequestBytes := by
  rcases bind_eq_ok.mp read with ⟨content, decoded, lines⟩
  have decoded : decodeBytes bytes = some content := by
    unfold readText at decoded
    cases found : decodeBytes bytes with
    | none =>
        rw [found] at decoded
        cases decoded
    | some text =>
        rw [found] at decoded
        cases decoded
        rfl
  have lines : readLeaseLines 1 ((fileLines content).map (trim isWhitespace)) = .ok leases := lines
  rcases readLeaseLines_eq_ok lines with ⟨rfl, blank⟩
  have written : ∀ mac ∈ configuration.staleLeaseMacs ((fileLines content).filterMap lineLease),
      Written mac := fun mac inside => written_staleLeaseMacs inside
  have accepted := readRequest_written uppercase timeNs written
  rw [configuration.length_staleLeaseMacs] at accepted
  rcases purgeStaleLeases_lines uppercase
    (configuration.staleLeaseMacs ((fileLines content).filterMap lineLease)) decoded with
    ⟨removed, left, leftContent, purged, leftDecoded, leftLines⟩
  by_cases small : requestSize timeNs (configuration.contradicting
      ((fileLines content).filterMap lineLease)).length ≤ maximumRequestBytes
  · rw [if_neg (not_lt.mpr small)] at accepted
    have applied : (applyReload uppercase systemctl (.regular (encodeText (reloadText timeNs
        (configuration.staleLeaseMacs ((fileLines content).filterMap lineLease)))))
          (.regular bytes)).2 = .regular left := by
      rw [applyReload, accepted]
      simp only [stops, purged]
      cases systemctl.start <;> rfl
    rw [and_iff_left small, ← filter_isPurged_iff uppercase blank, ← leftLines]
    constructor
    · rintro ⟨_, other, otherLeft, otherContent, _, otherDecoded, otherApplied, otherRead, exact', _⟩
      rw [decoded] at otherDecoded
      cases otherDecoded
      rw [applied] at otherApplied
      cases otherApplied
      rw [leftDecoded] at otherRead
      cases otherRead
      exact exact'
    · intro same
      refine ⟨_, content, left, leftContent, accepted, decoded, applied, leftDecoded, same, ?_⟩
      intro line inside
      rw [same, List.mem_filter] at inside
      exact of_decide_eq_true inside.2
  · rw [if_pos (not_le.mp small)] at accepted
    refine iff_of_false ?_ fun both => small both.2
    rintro ⟨macs, _, _, _, read', _⟩
    rw [accepted] at read'
    cases read'

/-- A guarded block that ends has written its request. -/
theorem reloadRequest_guarded {repository : Repository} {circumstances : Circumstances}
    {configuration : Configuration} {disk working : Disk} {macs : List Text}
    (reload : circumstances.reload = some none)
    (ends : (repository.guarded circumstances configuration macs).run disk = (.ok (), working)) :
    working.reloadRequest = some (encodeText (reloadText circumstances.timeNs macs)) := by
  have loop := run_replaceAll repository circumstances configuration repository.files disk
  unfold Repository.guarded at ends
  cases replaced : replacementFailure circumstances.faults repository.files with
  | some pair =>
      rw [replaced] at loop
      rw [run_bind_of_error loop] at ends
      cases ends
  | none =>
      rw [replaced] at loop
      rw [run_bind_of_ok loop] at ends
      cases validated : validateDnsmasq circumstances.validation with
      | error failure =>
          rw [validated, run_bind_of_error (run_liftExcept _)] at ends
          cases ends
      | ok accepted =>
          rw [validated, run_bind_of_ok (run_liftExcept _), requestReload, reload] at ends
          cases ends
          rfl

/-- What a call that returns has requested. -/
theorem reloadRequest_writeFiles {repository : Repository} {circumstances : Circumstances}
    {configuration : Configuration} {disk : Disk} {state : Configuration × List Lease}
    {leases : List Lease} (reload : circumstances.reload = some none)
    (read : circumstances.leases.readLeases = .ok leases)
    (returned : ((repository.writeFiles circumstances configuration).run disk).1 = .ok state) :
    ((repository.writeFiles circumstances configuration).run disk).2.reloadRequest =
      some (encodeText (reloadText circumstances.timeNs (configuration.staleLeaseMacs leases))) := by
  have prepared : Prepared repository circumstances disk := by
    by_contra unprepared
    rcases writeFiles_of_unprepared configuration unprepared with ⟨raised, stopped⟩
    rw [stopped] at returned
    cases returned
  have unfailing : blockFailure repository circumstances = none := by
    by_contra failing
    rcases Option.ne_none_iff_exists'.mp failing with ⟨⟨replaced, failure⟩, found⟩
    rcases (writeFiles_of_blockFailure configuration prepared found).1 with ⟨raised, error⟩
    rw [error] at returned
    cases returned
  have block := run_guarded repository circumstances configuration
    (configuration.staleLeaseMacs leases) disk
  rw [unfailing] at block
  cases guardedRun : (repository.guarded circumstances configuration
      (configuration.staleLeaseMacs leases)).run disk with
  | mk result working =>
      rw [guardedRun] at block
      rw [show result = .ok () from block.1] at guardedRun
      have passed : (handle (repository.guarded circumstances configuration
          (configuration.staleLeaseMacs leases)) (repository.recover disk.files)).run disk =
            (.ok (), working) := by
        rw [run_handle, guardedRun]
      unfold Repository.writeFiles
      rw [read, run_bind_of_ok (run_liftExcept _), run_bind_of_ok run_get, prepared.2,
        run_bind_of_ok (run_liftExcept _), run_bind_of_ok passed, run_bind_of_ok run_get,
        run_liftExcept]
      exact reloadRequest_guarded reload guardedRun

/-- After a call of `write` that returns, the helper reads the request and purges
exactly the leases that contradict a reservation if and only if no device has such a
lease beside another one and the request is not too large. -/
theorem written_request_purges_iff (uppercase : Uppercase) {systemctl : Systemctl}
    (stops : systemctl.stop = none) {repository : Repository} {circumstances : Circumstances}
    {configuration : Configuration} {disk : Disk} {state : Configuration × List Lease}
    {bytes : ByteArray} {leases : List Lease} (reload : circumstances.reload = some none)
    (file : circumstances.leases = ⟨some bytes, none⟩)
    (read : circumstances.leases.readLeases = .ok leases)
    (returned : ((repository.writeFiles circumstances configuration).run disk).1 = .ok state) :
    ∃ request,
      ((repository.writeFiles circumstances configuration).run disk).2.reloadRequest =
          some request ∧
        (OnlyStalePurged uppercase systemctl configuration request bytes ↔
          configuration.Separates leases ∧
            requestSize circumstances.timeNs (configuration.contradicting leases).length ≤
              maximumRequestBytes) := by
  refine ⟨_, reloadRequest_writeFiles reload read returned, ?_⟩
  rw [file] at read
  exact onlyStalePurged_iff uppercase stops configuration circumstances.timeNs read

/-! ## Leases of a server with one reservation -/

namespace LeasePurge

open FailedWrite

def asciiUppercase : Uppercase where
  apply := upper
  ascii _ _ := rfl

/-- Nothing fails, and the lease database has a content. -/
def holding (content : Text) : Circumstances :=
  { calm with
    leases := ⟨some (encodeText content), none⟩
    leasesAfter := ⟨some (encodeText content), none⟩ }

/-- The leases of the lines of a content. -/
def leasesOf (content : Text) : List Lease :=
  (fileLines content).filterMap lineLease

theorem readLeases_holding {content : Text} {leases : List Lease}
    (read : readLeaseLines 1 (readLines content) = .ok leases) :
    (holding content).leases.readLeases = .ok leases := by
  have decoded : readText none (encodeText content) = .ok content := by
    simp only [readText, decodeBytes_encodeText]
  show (readText none (encodeText content) >>= fun content =>
    readLeaseLines 1 (readLines content)) = _
  rw [decoded, ok_bind, read]

/-- A call of `write` returns whenever the leases are read. -/
theorem returned_holding {content : Text} {leases : List Lease}
    (read : readLeaseLines 1 (readLines content) = .ok leases) :
    ∃ state, ((fullRepository.writeFiles (holding content) oneReservation).run emptyDisk).1 =
      .ok state := by
  rcases writeFiles_of_blockSuccess oneReservation
    (⟨⟨leases, readLeases_holding read⟩, rfl⟩ : Prepared fullRepository (holding content) emptyDisk)
    (rfl : blockFailure fullRepository (holding content) = none) with ⟨answer, _⟩
  have decodable : ∀ file, isDecodable (overwrite fullRepository.files
      (fullRepository.renderedBytes oneReservation) emptyDisk.files file) := by
    intro file
    by_cases written : file ∈ fullRepository.files
    · rw [overwrite_of_mem written]
      exact isDecodable_encodeText _
    · rw [overwrite_of_not_mem written]
      rfl
  rcases (roundTrips_of_carried fullRepository_complete (textsOf emptyDisk.files)
    (by decide : Carried fullRepository oneReservation)).1 with ⟨configuration, found, _⟩
  rw [← textsOf_written] at found
  exact ⟨_, answer.trans (readState_eq_ok (fun _ => rfl) decodable found (readLeases_holding read))⟩

/-- Two leases of the reserved device, at its address and at another one. -/
def twoClients : Text :=
  "1 aa:bb:cc:dd:ee:01 192.168.1.20 nas 01\n1 aa:bb:cc:dd:ee:01 192.168.1.30 nas 02\n".toList

theorem readLeaseLines_twoClients :
    readLeaseLines 1 (readLines twoClients) = .ok (leasesOf twoClients) := by rfl

/-- The lease of a device at its reserved address goes with the one at another
address. -/
theorem lease_at_reserved_address_purged :
    ¬ ∀ (uppercase : Uppercase) (systemctl : Systemctl) (repository : Repository)
      (circumstances : Circumstances) (configuration : Configuration) (disk : Disk)
      (state : Configuration × List Lease) (bytes : ByteArray) (leases : List Lease),
        systemctl.stop = none → circumstances.reload = some none →
        circumstances.leases = ⟨some bytes, none⟩ →
        circumstances.leases.readLeases = .ok leases →
        ((repository.writeFiles circumstances configuration).run disk).1 = .ok state →
          ∃ request,
            ((repository.writeFiles circumstances configuration).run disk).2.reloadRequest =
                some request ∧
              OnlyStalePurged uppercase systemctl configuration request bytes := by
  intro all
  have read := readLeases_holding readLeaseLines_twoClients
  rcases returned_holding readLeaseLines_twoClients with ⟨state, returned⟩
  rcases all asciiUppercase ⟨none, none⟩ fullRepository (holding twoClients) oneReservation
    emptyDisk state (encodeText twoClients) _ rfl rfl rfl read returned with ⟨request, found, only⟩
  have same := Option.some.inj (found.symm.trans (reloadRequest_writeFiles rfl read returned))
  rw [same] at only
  have separates := ((onlyStalePurged_iff asciiUppercase rfl oneReservation _ read).mp only).1
  exact absurd separates (by decide +kernel)

/-- The reserved device at another address, and a device without a reservation. -/
def movedClient : Text :=
  "1 aa:bb:cc:dd:ee:01 192.168.1.30 nas 01\n1 aa:bb:cc:dd:ee:02 192.168.1.31 * 02\n".toList

theorem readLeaseLines_movedClient :
    readLeaseLines 1 (readLines movedClient) = .ok (leasesOf movedClient) := by rfl

/-- Of these two leases only the first one is removed. -/
theorem moved_client_purged :
    ∃ request,
      ((fullRepository.writeFiles (holding movedClient) oneReservation).run
          emptyDisk).2.reloadRequest = some request ∧
        OnlyStalePurged asciiUppercase ⟨none, none⟩ oneReservation request
          (encodeText movedClient) := by
  rcases returned_holding readLeaseLines_movedClient with ⟨state, returned⟩
  rcases written_request_purges_iff asciiUppercase (rfl : (⟨none, none⟩ : Systemctl).stop = none)
    (rfl : (holding movedClient).reload = some none) rfl
    (readLeases_holding readLeaseLines_movedClient) returned with ⟨request, found, purges⟩
  exact ⟨request, found, purges.mpr (by decide +kernel)⟩

end LeasePurge

end OhanaAgent.Host
