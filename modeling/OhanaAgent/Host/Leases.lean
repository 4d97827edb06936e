import OhanaAgent.Host.Dhcp
import OhanaAgent.Encoding.JsonRoundTrip
import OhanaAgent.Scheduler.CronTrigger

/-!
# Leases

The lease database of dnsmasq, one lease on each line, and the leases that a
configuration makes stale: the address is reserved for another device, or the
device has another address reserved.
-/

namespace OhanaAgent.Host

open Encoding (trim)
open Encoding.Json
open Privacy (isWhitespace)

/-- The exceptions of an operation on the files. -/
inductive Failure where
  | os (detail : Text)
  | configuration (message : Text)
  | undecodable
  | refused (refusal : Refusal)
  | value (message : Text)
  | other (name : Text)

/-- `except (OSError, DHCPConfigurationError)`, around what does not read the
configuration. -/
def Failure.handled : Failure → Bool
  | .os _ => true
  | .configuration _ => true
  | _ => false

/-! ## Bytes -/

/-- `text.encode("utf-8")`. -/
def encodeText (content : Text) : ByteArray :=
  (String.ofList content).toByteArray

/-- `bytes.decode("utf-8")`. -/
def decodeBytes (bytes : ByteArray) : Option Text :=
  bytes.utf8Decode?.map Array.toList

@[simp]
theorem decodeBytes_encodeText (content : Text) : decodeBytes (encodeText content) = some content := by
  simp [decodeBytes, encodeText]

/-- What is decoded is encoded to the same bytes. -/
theorem encodeText_of_decodeBytes {bytes : ByteArray} {content : Text}
    (decoded : decodeBytes bytes = some content) : encodeText content = bytes := by
  rcases Option.map_eq_some_iff.mp decoded with ⟨characters, found, rfl⟩
  have valid : bytes.utf8Decode?.isSome := by
    rw [found]
    rfl
  have same := ByteArray.utf8Encode_get_utf8Decode? (h := valid)
  simpa [encodeText, found] using same

/-- `path.read_text(encoding="utf-8")` on the bytes of a file, with what the
system raises instead. -/
def readText (raised : Option Failure) (bytes : ByteArray) : Except Failure Text :=
  match raised with
  | some failure => .error failure
  | none =>
      match decodeBytes bytes with
      | some content => .ok content
      | none => .error .undecodable

/-! ## The lease database -/

/-- `DHCPLease`. -/
structure Lease where
  expiresAt : Int
  macAddress : MacAddress
  address : Address
  hostname : Option Text
  clientId : Option Text
  notNegative : 0 ≤ expiresAt

/-- `DHCPLease(...)`. -/
def Lease.validate (expiresAt : Int) (macAddress address : Text)
    (hostname clientId : Option Text) : Except Failure Lease :=
  if notNegative : 0 ≤ expiresAt then
    match MacAddress.validate macAddress, Address.parse address with
    | .ok macAddress, some address =>
        .ok ⟨expiresAt, macAddress, address, hostname, clientId, notNegative⟩
    | .error _, _ => .error (.value "lease mac_address is invalid".toList)
    | _, none => .error (.value "Input is not a valid IPv4 address".toList)
  else .error (.value "Input should be greater than or equal to 0".toList)

/-- A field that an asterisk leaves open. -/
def optional (field : Text) : Option Text :=
  if field = ['*'] then none else some field

/-- One line of the lease database. -/
def readLease (number : Nat) (line : Text) : Except Failure (Option Lease) :=
  if line = [] then .ok none
  else
    match (line.splitOnP isWhitespace).filter fun part => !part.isEmpty with
    | expiresAt :: macAddress :: address :: hostname :: clientId :: _ =>
        match Scheduler.readInt expiresAt with
        | .error refusal => .error (.value refusal.message.toList)
        | .ok expiresAt =>
            (Lease.validate expiresAt macAddress address (optional hostname)
              (optional clientId)).map some
    | _ => .error (.configuration
        ("Invalid dnsmasq lease at line ".toList ++ Nat.toDigits 10 number))

/-- The leases of numbered lines. -/
def readLeaseLines : Nat → List Text → Except Failure (List Lease)
  | _, [] => .ok []
  | number, line :: lines => do
      let first ← readLease number line
      let rest ← readLeaseLines (number + 1) lines
      pure (first.toList ++ rest)

/-- The lease database when it is read: its bytes when there is a file, and what
the system raises. -/
structure LeaseDatabase where
  bytes : Option ByteArray
  raised : Option Failure

/-- `read_leases`. -/
def LeaseDatabase.readLeases (database : LeaseDatabase) : Except Failure (List Lease) :=
  match database.bytes with
  | none => .ok []
  | some bytes => do
      let content ← readText database.raised bytes
      readLeaseLines 1 (readLines content)

/-! ## Stale leases -/

namespace Configuration

variable (configuration : Configuration)

/-- The last reservation with a property. -/
def lastReservation (holds : Reservation → Bool) : Option Reservation :=
  configuration.reservations.reverse.find? holds

/-- The address that is reserved for a device. -/
def reservedAddress (macAddress : Text) : Option Address :=
  (configuration.lastReservation fun row => row.macAddress.text = macAddress).map
    Reservation.address

/-- The device that an address is reserved for. -/
def reservedMac (address : Address) : Option Text :=
  (configuration.lastReservation fun row => row.address = address).map fun row =>
    row.macAddress.text

/-- The device has another address reserved, or the address is reserved for
another device. -/
def isStale (lease : Lease) : Bool :=
  (configuration.reservedAddress lease.macAddress.text).any (lease.address ≠ ·) ||
    (configuration.reservedMac lease.address).any (lease.macAddress.text ≠ ·)

/-- `_stale_lease_macs`, on the leases that were read. -/
def staleLeaseMacs (leases : List Lease) : List Text :=
  ((leases.filter configuration.isStale).map fun lease => lease.macAddress.text).dedup.insertionSort
    (· ≤ ·)

end Configuration

end OhanaAgent.Host
