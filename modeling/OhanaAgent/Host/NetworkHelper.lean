import OhanaAgent.Encoding.Json
import OhanaAgent.Store.Table
import Mathlib.Logic.Function.Basic

/-!
# The network helper

Every call of the helper is a process, and so is the service of a rollback unit.
A process takes one external command or one file operation at a time; between two
of them any other process may take one, and a timer may start its service.  The
outcome of each command is a parameter of the step.
-/

namespace OhanaAgent.Host.Network

open OhanaAgent.Encoding.Json
open OhanaAgent.Store

/-! ## Settings and transactions -/

/-- The properties that a snapshot saves. -/
inductive Property where
  | method
  | addresses
  | gateway
  | dns
  | ignoreAutoDns
  deriving DecidableEq

def Property.all : List Property :=
  [.method, .addresses, .gateway, .dns, .ignoreAutoDns]

/-- The IPv4 part of a NetworkManager profile. -/
abbrev Ipv4 := Property → Text

/-- `NetworkMethod` with the fields that it reads. -/
inductive Method where
  | manual (address gateway : Text) (dnsServers : List Text)
  | auto

structure AgentNetworkSettings where
  interface : Text
  method : Method

/-- The properties that `_modify_connection` sets. -/
def AgentNetworkSettings.ipv4 (settings : AgentNetworkSettings) : Ipv4 :=
  match settings.method with
  | .manual address gateway dnsServers => fun
      | .method => "manual".toList
      | .addresses => address
      | .gateway => gateway
      | .dns => [','].intercalate dnsServers
      | .ignoreAutoDns => "yes".toList
  | .auto => fun
      | .method => "auto".toList
      | .addresses => []
      | .gateway => []
      | .dns => []
      | .ignoreAutoDns => "no".toList

/-- The file of a transaction; `snapshot` holds its interface and connection. -/
structure Transaction where
  id : Text
  interface : Text
  connection : Text
  snapshot : Ipv4
  requested : AgentNetworkSettings

/-! ## Processes -/

inductive Caller where
  | apply
  | confirm
  | rollback
  deriving DecidableEq

inductive Ending where
  | returned
  | raised
  | terminated
  deriving DecidableEq

/-- What a process does next. -/
inductive Phase where
  | check (settings : AgentNetworkSettings)
  | resolve (settings : AgentNetworkSettings)
  | snapshot (settings : AgentNetworkSettings) (connection : Text) (left : List Property)
      (read : Ipv4)
  | schedule (transaction : Transaction)
  | modify (transaction : Transaction)
  | up (transaction : Transaction)
  | load (id : Text)
  | restore (transaction : Transaction)
  | restoreUp (transaction : Transaction)
  | stop (id : Text)
  | unlink (id : Text)
  | report (id : Text)
  | ended (id : Option Text) (ending : Ending)

/-- The transaction that a phase is about, once it has an identifier. -/
def Phase.about : Phase → Option Text
  | .check _ => none
  | .resolve _ => none
  | .snapshot _ _ _ _ => none
  | .schedule transaction => some transaction.id
  | .modify transaction => some transaction.id
  | .up transaction => some transaction.id
  | .load id => some id
  | .restore transaction => some transaction.id
  | .restoreUp transaction => some transaction.id
  | .stop id => some id
  | .unlink id => some id
  | .report id => some id
  | .ended id _ => id

/-- A process, the unit it runs in, the transaction it read, and whether its
snapshot was written to the profile and brought up. -/
structure Process where
  pid : Nat
  caller : Caller
  unit : Option Text
  phase : Phase
  loaded : Option Transaction := none
  written : Bool := false
  restored : Bool := false

/-- The transaction of a process. -/
def Process.about (process : Process) : Option Text :=
  process.phase.about

def Process.live (process : Process) : Bool :=
  match process.phase with
  | .ended _ _ => false
  | _ => true

/-- The transaction files, the profiles, the timers that are armed, and the
processes. -/
structure Machine where
  files : Table Transaction Transaction.id
  profiles : Text → Ipv4
  timers : List Text
  processes : Table Process Process.pid

/-! ## Commands -/

/-- How a command ends, and whether it took effect when it did not succeed. -/
inductive Outcome where
  | success (answer : Text)
  | failure (effective : Bool)
  | timeout (effective : Bool)

def Outcome.effective : Outcome → Bool
  | .success _ => true
  | .failure effective => effective
  | .timeout effective => effective

/-- `_run` returns. -/
def Outcome.succeeds : Outcome → Bool
  | .success _ => true
  | _ => false

/-- `subprocess.run` without a check raises. -/
def Outcome.raises : Outcome → Bool
  | .timeout _ => true
  | _ => false

namespace Machine

/-- The process goes on. -/
def put (process : Process) (machine : Machine) : Machine :=
  { machine with processes := machine.processes.upsert process }

/-- The process goes on with a phase. -/
def go (process : Process) (phase : Phase) (machine : Machine) : Machine :=
  machine.put { process with phase := phase }

def setProfile (connection : Text) (ipv4 : Ipv4) (machine : Machine) : Machine :=
  { machine with profiles := Function.update machine.profiles connection ipv4 }

/-- `systemctl stop` of the timer and the service of a rollback unit. -/
def stopUnit (id : Text) (machine : Machine) : Machine :=
  { machine with
    timers := machine.timers.filter fun other => other ≠ id
    processes := machine.processes.mapRows
      (fun process =>
        if process.unit = some id ∧ process.live = true then
          { process with phase := .ended process.about .terminated }
        else process)
      fun process => by split <;> rfl }

def unlinkFile (id : Text) (machine : Machine) : Machine :=
  { machine with files := machine.files.filter fun transaction => transaction.id ≠ id }

/-- `_write_transaction` under an identifier that nothing has used. -/
def writeTransaction (process : Process) (transaction : Transaction) (machine : Machine) :
    Machine :=
  if ∃ other ∈ machine.processes.rows, other.about = some transaction.id then machine
  else
    match machine.files.insert? transaction with
    | none => machine
    | some files => { machine with files := files }.go process (.schedule transaction)

/-- After `_load_transaction`. -/
def loadTransaction (process : Process) (id : Text) (machine : Machine) : Machine :=
  match machine.files.find? id, process.caller with
  | some transaction, .confirm =>
      machine.put { process with phase := .stop id, loaded := some transaction }
  | some transaction, _ =>
      machine.put { process with phase := .restore transaction, loaded := some transaction }
  -- the cleanup of `_apply` goes on with its `finally`
  | none, .apply => machine.go process (.stop id)
  | none, _ => machine.go process (.ended (some id) .raised)

/-- Where a restoration that fails goes on. -/
def afterRestoration (process : Process) (id : Text) : Phase :=
  match process.caller with
  | .apply => .stop id
  | _ => .ended (some id) .raised

/-- One step of a process, with the outcome of its command. -/
def advance (process : Process) (outcome : Outcome) (uuid : Text) (machine : Machine) : Machine :=
  match process.phase with
  | .check settings =>
      if machine.files.rows.isEmpty then machine.go process (.resolve settings)
      else machine.go process (.ended none .raised)
  | .resolve settings =>
      match outcome with
      | .success connection =>
          machine.go process (.snapshot settings connection Property.all fun _ => [])
      | _ => machine.go process (.ended none .raised)
  | .snapshot settings connection [] read =>
      machine.writeTransaction process ⟨uuid, settings.interface, connection, read, settings⟩
  | .snapshot settings connection (property :: left) read =>
      if outcome.succeeds then
        machine.go process (.snapshot settings connection left
          (Function.update read property (machine.profiles connection property)))
      else machine.go process (.ended none .raised)
  | .schedule transaction =>
      let armed := if outcome.effective then
        { machine with timers := transaction.id :: machine.timers } else machine
      armed.go process (if outcome.succeeds then .modify transaction else .load transaction.id)
  | .modify transaction =>
      let modified := if outcome.effective then
        machine.setProfile transaction.connection transaction.requested.ipv4 else machine
      modified.go process (if outcome.succeeds then .up transaction else .load transaction.id)
  | .up transaction =>
      machine.go process
        (if outcome.succeeds then .report transaction.id else .load transaction.id)
  | .load id => machine.loadTransaction process id
  | .restore transaction =>
      let written := if outcome.effective then
        machine.setProfile transaction.connection transaction.snapshot else machine
      written.put { process with
        phase := if outcome.succeeds then .restoreUp transaction
          else afterRestoration process transaction.id
        written := process.written || outcome.effective }
  | .restoreUp transaction =>
      if outcome.succeeds then
        machine.put { process with phase := .stop transaction.id, restored := true }
      else machine.go process (afterRestoration process transaction.id)
  | .stop id =>
      let stopped := if outcome.effective then machine.stopUnit id else machine
      if outcome.effective = true ∧ process.unit = some id then stopped
      else
        stopped.go process (if outcome.raises then .ended (some id) .raised else .unlink id)
  | .unlink id =>
      (machine.unlinkFile id).go process
        (match process.caller with
        | .apply => .ended (some id) .raised
        | _ => .report id)
  | .report id =>
      machine.go process (.ended (some id) (if outcome.succeeds then .returned else .raised))
  | .ended _ _ => machine

end Machine

/-! ## Runs -/

/-- A call starts, a timer elapses, or a process takes its next step. -/
inductive Label where
  | apply (pid : Nat) (settings : AgentNetworkSettings) (rollbackSeconds : Int)
  | confirm (pid : Nat) (id : Text)
  | rollback (pid : Nat) (id : Text)
  | elapse (pid : Nat) (id : Text)
  | run (pid : Nat) (outcome : Outcome) (uuid : Text)

namespace Machine

/-- A process starts under a number that no other has. -/
def start (process : Process) (machine : Machine) : Machine :=
  if (machine.processes.find? process.pid).isSome then machine else machine.put process

def step (machine : Machine) : Label → Machine
  | .apply pid settings rollbackSeconds =>
      machine.start
        { pid := pid
          caller := .apply
          unit := none
          phase := if 30 ≤ rollbackSeconds ∧ rollbackSeconds ≤ 300 then .check settings
            else .ended none .raised }
  | .confirm pid id => machine.start { pid := pid, caller := .confirm, unit := none, phase := .load id }
  | .rollback pid id =>
      machine.start { pid := pid, caller := .rollback, unit := none, phase := .load id }
  | .elapse pid id =>
      if id ∈ machine.timers ∧ (machine.processes.find? pid).isNone then
        { machine with timers := machine.timers.filter fun other => other ≠ id }.start
          { pid := pid, caller := .rollback, unit := some id, phase := .load id }
      else machine
  | .run pid outcome uuid =>
      match machine.processes.find? pid with
      | none => machine
      | some process => machine.advance process outcome uuid

/-- No transaction, no timer and no process. -/
def initial (profiles : Text → Ipv4) : Machine where
  files := ∅
  profiles := profiles
  timers := []
  processes := ∅

def runs (labels : List Label) (machine : Machine) : Machine :=
  labels.foldl step machine

end Machine

end OhanaAgent.Host.Network
