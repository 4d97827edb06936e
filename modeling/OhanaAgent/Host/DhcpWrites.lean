import OhanaAgent.Encoding.JsonStrings
import OhanaAgent.Host.Leases
import OhanaAgent.Store.Handlers

/-!
# Writing the DHCP configuration

`write` replaces the configuration files one after the other, has dnsmasq
validate them and requests a reload; when one of these steps raises, it restores
the files it has read before.  Last it reads everything back.  What happens
around a call is in its circumstances: the lease database, what each step raises
and what dnsmasq answers.
-/

namespace OhanaAgent.Host

open Encoding (trim)
open Encoding.Json
open Privacy (isWhitespace)
open Store

/-! ## Files -/

/-- The main file, and one of each category. -/
inductive ConfigurationFile where
  | main
  | reservations (category : Category)
  deriving DecidableEq

/-- The contents of files that are there. -/
abbrev Contents : Type :=
  ConfigurationFile → Option ByteArray

/-- The files that a call writes. -/
structure Disk where
  files : Contents
  reloadRequest : Option ByteArray

/-- Replace or remove one file. -/
def Disk.put (file : ConfigurationFile) (content : Option ByteArray) (disk : Disk) : Disk :=
  { disk with files := Function.update disk.files file content }

/-- Replace or remove several files. -/
def Disk.putAll (files : List ConfigurationFile) (contents : Contents) (disk : Disk) : Disk :=
  { disk with files := overwrite files contents disk.files }

/-! ## Circumstances -/

/-- How an atomic write raises: before `os.replace`, or after it. -/
structure Fault where
  replaced : Bool
  raised : Failure

/-- How the validation command ends: there is none, it cannot be run or takes too
long, its output is no text, it is interrupted, or it finishes. -/
inductive ValidationRun where
  | notConfigured
  | notRun (error : Text)
  | undecodable
  | interrupted (name : Text)
  | finished (returnCode : Int) (stdout stderr : Text)

/-- What happens around one call. -/
structure Circumstances where
  leases : LeaseDatabase
  snapshot : ConfigurationFile → Option Failure
  faults : ConfigurationFile → Option Fault
  validation : ValidationRun
  /-- Without a path no reload is requested. -/
  reload : Option (Option Fault)
  timeNs : Nat
  reads : ConfigurationFile → Option Failure
  leasesAfter : LeaseDatabase

/-- `_validate_dnsmasq`. -/
def validateDnsmasq : ValidationRun → Except Failure Unit
  | .notConfigured => .ok ()
  | .notRun error =>
      .error (.configuration ("Unable to validate dnsmasq configuration: ".toList ++ error))
  | .undecodable => .error .undecodable
  | .interrupted name => .error (.other name)
  | .finished returnCode stdout stderr =>
      if returnCode = 0 then .ok ()
      else
        let detail :=
          if trim isWhitespace stderr ≠ [] then trim isWhitespace stderr
          else if trim isWhitespace stdout ≠ [] then trim isWhitespace stdout
          else ("exit code " ++ toString returnCode).toList
        .error (.configuration ("dnsmasq rejected the configuration: ".toList ++ detail))

/-! ## The steps -/

/-- `_atomic_write` of a configuration file. -/
def atomicWrite (fault : Option Fault) (file : ConfigurationFile) (content : Text) :
    Statements Disk Failure Unit :=
  match fault with
  | none => modify (Disk.put file (some (encodeText content)))
  | some fault => do
      if fault.replaced then modify (Disk.put file (some (encodeText content)))
      throw fault.raised

/-- The text of a reload request. -/
def reloadText (timeNs : Nat) (staleLeaseMacs : List Text) : Text :=
  render (.object (.cons "schema_version".toList (.number (.ofNat 1))
    (.cons "requested_at_ns".toList (.number (.ofNat timeNs))
      (.cons "stale_lease_macs".toList
        (.array (.ofList (staleLeaseMacs.map Value.string))) .nil)))) ++ ['\n']

/-- `_request_reload`. -/
def requestReload (circumstances : Circumstances) (staleLeaseMacs : List Text) :
    Statements Disk Failure Unit :=
  let request := some (encodeText (reloadText circumstances.timeNs staleLeaseMacs))
  match circumstances.reload with
  | none => pure ()
  | some none => modify fun disk => { disk with reloadRequest := request }
  | some (some fault) => do
      if fault.replaced then modify fun disk => { disk with reloadRequest := request }
      throw fault.raised

/-- `_restore`; its writes succeed. -/
def restore (previous : Contents) : List ConfigurationFile → Statements Disk Failure Unit
  | [] => pure ()
  | file :: rest => do
      match previous file with
      | none => modify (Disk.put file none)
      | some bytes =>
          match decodeBytes bytes with
          | none => throw .undecodable
          | some content => atomicWrite none file content
      restore previous rest

/-- `path.read_bytes()` of the files that are there. -/
def snapshot (raised : ConfigurationFile → Option Failure) (contents : Contents) :
    List ConfigurationFile → Except Failure Unit
  | [] => .ok ()
  | file :: rest =>
      match contents file, raised file with
      | some _, some failure => .error failure
      | _, _ => snapshot raised contents rest

/-! ## Reading back -/

/-- The text of a file that is there. -/
def readFile (circumstances : Circumstances) (contents : Contents) (file : ConfigurationFile) :
    Except Failure (Option Text) :=
  match contents file with
  | none => .ok none
  | some bytes => (readText (circumstances.reads file) bytes).map some

/-- The reservations of the configured files. -/
def readReservationFiles (circumstances : Circumstances) (contents : Contents) :
    List Category → Except Failure (List Reservation)
  | [] => .ok []
  | category :: categories => do
      let content ← readFile circumstances contents (.reservations category)
      let first ← (readReservations category content).mapError Failure.refused
      let rest ← readReservationFiles circumstances contents categories
      pure (first ++ rest)

namespace Repository

variable (repository : Repository)

/-- The configuration files in the order in which they are written. -/
def files : List ConfigurationFile :=
  .main :: repository.reservationPaths.map .reservations

/-- The text of each file. -/
def rendered (configuration : Configuration) : ConfigurationFile → Text
  | .main => renderMain configuration.settings repository.serverNodeId
  | .reservations category => renderReservations category
      (configuration.reservations.filter fun row => row.category = category)

/-- The bytes of each file. -/
def renderedBytes (configuration : Configuration) : Contents :=
  fun file => some (encodeText (repository.rendered configuration file))

/-- `read`: the dumped configuration passes its contract again. -/
def readState (circumstances : Circumstances) (contents : Contents) :
    Except Failure (Configuration × List Lease) := do
  let main ← readFile circumstances contents .main
  let settings ← (readSettings main).mapError Failure.refused
  let reservations ← readReservationFiles circumstances contents repository.reservationPaths
  let configuration ←
    (configurationContract repository.serverNodeId settings reservations).mapError Failure.refused
  let leases ← circumstances.leasesAfter.readLeases
  pure (configuration, leases)

/-- The loop over the rendered files. -/
def replaceAll (circumstances : Circumstances) (configuration : Configuration) :
    List ConfigurationFile → Statements Disk Failure Unit
  | [] => pure ()
  | file :: rest => do
      atomicWrite (circumstances.faults file) file (repository.rendered configuration file)
      replaceAll circumstances configuration rest

/-- The guarded block. -/
def guarded (circumstances : Circumstances) (configuration : Configuration)
    (staleLeaseMacs : List Text) : Statements Disk Failure Unit := do
  repository.replaceAll circumstances configuration repository.files
  liftExcept (validateDnsmasq circumstances.validation)
  requestReload circumstances staleLeaseMacs

/-- `except (OSError, DHCPConfigurationError)`: restore, and raise again. -/
def recover (previous : Contents) (failure : Failure) : Statements Disk Failure Unit := do
  if failure.handled then restore previous repository.files
  throw failure

/-- `write`. -/
def writeFiles (circumstances : Circumstances) (configuration : Configuration) :
    Statements Disk Failure (Configuration × List Lease) := do
  let leases ← liftExcept circumstances.leases.readLeases
  let before ← get
  liftExcept (snapshot circumstances.snapshot before.files repository.files)
  handle (repository.guarded circumstances configuration (configuration.staleLeaseMacs leases))
    (repository.recover before.files)
  let after ← get
  liftExcept (repository.readState circumstances after.files)

end Repository

end OhanaAgent.Host
