import OhanaAgent.Encoding.Json
import OhanaAgent.Store.Table

/-!
# Infrastructure writes

`write_infrastructure` validates a definition, replaces the stored file and has the
running agent apply it: the scheduler is stopped, every plugin that follows the
infrastructure is prepared and reconfigured, and the scheduler is started again.
A function that raises leaves the changes it has made.
-/

namespace OhanaAgent.Runtime

open OhanaAgent.Encoding.Json (Text Value)
open OhanaAgent.Store

/-! ## The scheduler -/

/-- The fields of a `Task` that reconfigurations read. -/
structure Task where
  id : Text
  command : Text
  managedBy : Option Text
  deriving DecidableEq

abbrev TaskTable : Type := Table Task Task.id

/-- The condition of `replace_plugin_tasks`. -/
def Task.ownedBy (identifier : Text) (task : Task) : Bool :=
  (identifier ++ ['.']).isPrefixOf task.command || task.managedBy = some identifier

/-- `Scheduler.add_task` for each task. -/
def addTasks : List Task → TaskTable → Except Text Unit × TaskTable
  | [], table => (.ok (), table)
  | task :: tasks, table =>
      match table.insert? task with
      | none => (.error ("task already exists: ".toList ++ task.id), table)
      | some next => addTasks tasks next

/-- `replace_plugin_tasks`. -/
def replacePluginTasks (identifier : Text) (tasks : List Task) (table : TaskTable) :
    Except Text Unit × TaskTable :=
  addTasks tasks (table.filter fun task => !task.ownedBy identifier)

/-! ## Plugins -/

variable {D I C E P R S : Type}

/-- The part of `PluginSpec` that an infrastructure write uses, over the definition
`D`, the infrastructure `I`, and the runtime configuration `C`, the editable one `E`
and the object `P` of a plugin. -/
structure PluginSpec (D I C E P : Type) where
  identifier : Text
  buildConfig : I → D → E → Except Text C
  buildTasks : C → E → Int → Except Text (List Task)
  reconfigure : P → C → Option D → Except Text Unit × P
  enabled : E → Bool
  followsInfrastructure : Bool

/-- `ManagedPlugin`. -/
structure ManagedPlugin (D I C E P : Type) where
  spec : PluginSpec D I C E P
  pluginConfig : E
  config : C
  plugin : P

/-- `tasks_for`. -/
def ManagedPlugin.tasksFor (managed : ManagedPlugin D I C E P) (config : C) (now : Int) :
    Except Text (List Task) :=
  if managed.spec.enabled managed.pluginConfig = false then .ok []
  else managed.spec.buildTasks config managed.pluginConfig now

/-- A plugin with its new configuration and its tasks, if it follows the
infrastructure. -/
structure Prepared (D I C E P : Type) where
  managed : ManagedPlugin D I C E P
  change : Option (C × List Task)

def ManagedPlugin.prepare (infrastructure : I) (document : D) (now : Int)
    (managed : ManagedPlugin D I C E P) : Except Text (Prepared D I C E P) :=
  if managed.spec.followsInfrastructure = false then .ok ⟨managed, none⟩
  else do
    let config ← managed.spec.buildConfig infrastructure document managed.pluginConfig
    let tasks ← managed.tasksFor config now
    return ⟨managed, some (config, tasks)⟩

/-- The second loop of `reconfigure_infrastructure`. -/
def reconfigureAll (document : D) : List (Prepared D I C E P) →
    Except Text Unit × List (ManagedPlugin D I C E P)
  | [] => (.ok (), [])
  | ⟨managed, none⟩ :: rest =>
      let (outcome, plugins) := reconfigureAll document rest
      (outcome, managed :: plugins)
  | ⟨managed, some (config, _)⟩ :: rest =>
      match managed.spec.reconfigure managed.plugin config (some document) with
      | (.error failure, plugin) =>
          (.error failure, { managed with plugin := plugin } :: rest.map Prepared.managed)
      | (.ok _, plugin) =>
          let (outcome, plugins) := reconfigureAll document rest
          (outcome, { managed with plugin := plugin, config := config } :: plugins)

/-- The third loop of `reconfigure_infrastructure`. -/
def replaceAll : List (Prepared D I C E P) → TaskTable → Except Text Unit × TaskTable
  | [], table => (.ok (), table)
  | ⟨_, none⟩ :: rest, table => replaceAll rest table
  | ⟨managed, some (_, tasks)⟩ :: rest, table =>
      match replacePluginTasks managed.spec.identifier tasks table with
      | (.error failure, table) => (.error failure, table)
      | (.ok _, table) => replaceAll rest table

/-! ## The agent -/

/-- An `InfrastructureRuntime`; the objects are numbered in the order in which they
become the runtime of the health manager. -/
structure HealthRuntime (R : Type) where
  serial : Nat
  contents : R

/-- The stored file and the running agent. -/
structure Agent (D I C E P R S : Type) where
  file : Text
  plugins : List (ManagedPlugin D I C E P)
  infrastructure : I
  infrastructureConfig : D
  tasks : TaskTable
  running : Bool
  health : HealthRuntime R
  created : Nat
  schedules : S
  payload : Value
  synchronized : Bool
  numbered : health.serial < created

/-- The functions of the definition that an infrastructure write calls, whether the
file can be replaced and read back, and what the publication comes to: Vision
takes the payload, or raises a `VisionClientError`, or anything else. -/
structure Surroundings (D I R S : Type) where
  modelValidate : Value → Except Text D
  validator : D → Except Text Unit
  dump : D → Text
  replaceFile : Text → Except Text Unit
  load : Text → Except Text D
  build : D → Except Text I
  healthRuntime : I → R
  schedules : D → S
  payload : D → Value
  publish : Value → Except Text Bool
  reconcile : D → Except Text Unit

variable (surroundings : Surroundings D I R S)

/-- The checks of a submitted payload, up to the replacement of the file. -/
def Surroundings.admit (payload : Value) : Except Text D := do
  let document ← surroundings.modelValidate payload
  surroundings.validator document
  surroundings.replaceFile (surroundings.dump document)
  return document

namespace Agent

variable (agent : Agent D I C E P R S)

/-- Everything that `reconfigure_infrastructure` builds before it changes anything. -/
def preparation (now : Int) (document : D) :
    Except Text (I × List (Prepared D I C E P)) := do
  let infrastructure ← surroundings.build document
  let prepared ← agent.plugins.mapM (ManagedPlugin.prepare infrastructure document now)
  return (infrastructure, prepared)

/-- `swap_runtime`. -/
def swapRuntime (contents : R) : Agent D I C E P R S :=
  { agent with
    health := ⟨agent.created, contents⟩
    created := agent.created + 1
    numbered := Nat.lt_succ_self agent.created }

/-- The rest of `reconfigure_infrastructure`. -/
def swap (infrastructure : I) (document : D) (prepared : List (Prepared D I C E P)) :
    Except Text Unit × Agent D I C E P R S :=
  let swapped := agent.swapRuntime (surroundings.healthRuntime infrastructure)
  let (reconfigured, plugins) := reconfigureAll document prepared
  let swapped := { swapped with plugins := plugins }
  match reconfigured with
  | .error failure => (.error failure, swapped)
  | .ok _ =>
      let (replaced, tasks) := replaceAll prepared swapped.tasks
      let swapped := { swapped with tasks := tasks }
      match replaced with
      | .error failure => (.error failure, swapped)
      | .ok _ => (.ok (),
          { swapped with
            infrastructure := infrastructure
            infrastructureConfig := document
            schedules := surroundings.schedules document })

/-- `reconfigure_infrastructure`. -/
def reconfigureInfrastructure (now : Int) (document : D) :
    Except Text Unit × Agent D I C E P R S :=
  match agent.preparation surroundings now document with
  | .error failure => (.error failure, agent)
  | .ok (infrastructure, prepared) => agent.swap surroundings infrastructure document prepared

/-- `_synchronize_infrastructure`, of which only a `VisionClientError` is caught. -/
def synchronizeInfrastructure : Except Text Unit × Agent D I C E P R S :=
  match surroundings.publish agent.payload with
  | .error failure => (.error failure, agent)
  | .ok accepted => (.ok (), { agent with synchronized := accepted })

/-- `apply_infrastructure_configuration`. -/
def applyInfrastructureConfiguration (now : Int) (document : D) :
    Except Text Unit × Agent D I C E P R S :=
  match reconfigureInfrastructure surroundings { agent with running := false } now document with
  | (.error failure, next) => (.error failure, next)
  | (.ok _, next) =>
      match synchronizeInfrastructure surroundings
          { next with payload := surroundings.payload document } with
      | (.error failure, next) => (.error failure, next)
      | (.ok _, next) => (.ok (), { next with running := agent.running })

/-- `AdministrationService.write_infrastructure`. -/
def writeInfrastructure (now : Int) (payload : Value) :
    Except Text D × Agent D I C E P R S :=
  match surroundings.admit payload with
  | .error failure => (.error failure, agent)
  | .ok document =>
      let stored := { agent with file := surroundings.dump document }
      match surroundings.load stored.file with
      | .error failure => (.error failure, stored)
      | .ok saved =>
          match applyInfrastructureConfiguration surroundings stored now saved with
          | (.error failure, next) => (.error failure, next)
          | (.ok _, next) =>
              match surroundings.reconcile saved with
              | .error failure => (.error failure, next)
              | .ok _ => (.ok saved, next)

end Agent

end OhanaAgent.Runtime
