import OhanaAgent.Runtime.Infrastructure

/-!
# Failed infrastructure writes

An infrastructure write that raises leaves the file and the agent as they were
exactly if its payload is refused before the file is replaced, or if the file
stays the same and cannot be read back, or if moreover the agent was stopped and
the definition is refused while it is being prepared.
-/

namespace OhanaAgent.Runtime

open OhanaAgent.Encoding.Json (Text Value)
open OhanaAgent.Store

variable {D I C E P R S : Type} {surroundings : Surroundings D I R S}
  {agent : Agent D I C E P R S} {now : Int} {document : D} {infrastructure : I}
  {prepared : List (Prepared D I C E P)} {tasks : List Task} {table : TaskTable}

/-! ## Tasks -/

/-- The identifiers of the tasks are free, and differ. -/
def Free (tasks : List Task) (table : TaskTable) : Prop :=
  (tasks.map Task.id).Nodup ∧ ∀ task ∈ tasks, ∀ other ∈ table, other.id ≠ task.id

/-- Every plugin finds the identifiers of its new tasks free. -/
def Replaceable : List (Prepared D I C E P) → TaskTable → Prop
  | [], _ => True
  | ⟨_, none⟩ :: rest, table => Replaceable rest table
  | ⟨managed, some (_, tasks)⟩ :: rest, table =>
      Free tasks (table.filter fun task => !task.ownedBy managed.spec.identifier) ∧
        Replaceable rest (replacePluginTasks managed.spec.identifier tasks table).2

theorem addTasks_ok_iff : (addTasks tasks table).1 = .ok () ↔ Free tasks table := by
  induction tasks generalizing table with
  | nil => simp [addTasks, Free]
  | cons task rest inductionHypothesis =>
      rw [addTasks]
      cases inserted : table.insert? task with
      | none =>
          simp only [reduceCtorEq, false_iff]
          intro free
          rcases Table.exists_insert? table task (free.2 task List.mem_cons_self) with ⟨next, added⟩
          rw [inserted] at added
          contradiction
      | some next =>
          rcases Table.insert?_eq_some_iff.mp inserted with ⟨fresh, rows⟩
          have member : ∀ other, other ∈ next ↔ other ∈ table ∨ other = task := by
            intro other
            rw [Table.mem_def, rows, List.mem_append, List.mem_singleton, Table.mem_def]
          dsimp only
          rw [inductionHypothesis]
          constructor
          · rintro ⟨distinct, free⟩
            constructor
            · rw [List.map_cons, List.nodup_cons]
              constructor
              · intro again
                rcases List.mem_map.mp again with ⟨other, otherMem, same⟩
                exact free other otherMem task ((member task).mpr (Or.inr rfl)) same.symm
              · exact distinct
            · intro other otherMem old oldMem
              rcases List.mem_cons.mp otherMem with rfl | later
              · exact fresh old oldMem
              · exact free other later old ((member old).mpr (Or.inl oldMem))
          · rintro ⟨distinct, free⟩
            rw [List.map_cons, List.nodup_cons] at distinct
            constructor
            · exact distinct.2
            · intro other otherMem old oldMem
              rcases (member old).mp oldMem with before | rfl
              · exact free other (List.mem_cons_of_mem task otherMem) old before
              · intro same
                apply distinct.1
                rw [same]
                exact List.mem_map_of_mem otherMem

theorem replaceAll_ok_iff : (replaceAll prepared table).1 = .ok () ↔
    Replaceable prepared table := by
  induction prepared generalizing table with
  | nil => simp [replaceAll, Replaceable]
  | cons item rest inductionHypothesis =>
      rcases item with ⟨managed, change⟩
      cases change with
      | none => exact inductionHypothesis
      | some change =>
          rcases change with ⟨config, tasks⟩
          rw [replaceAll, Replaceable, ← addTasks_ok_iff]
          change _ ↔ (replacePluginTasks managed.spec.identifier tasks table).1 = _ ∧ _
          cases replaced : replacePluginTasks managed.spec.identifier tasks table with
          | mk outcome next =>
              cases outcome with
              | error failure => simp
              | ok done => simpa using inductionHypothesis

/-! ## Plugins -/

/-- The plugin accepts its new configuration. -/
def Prepared.Reconfigures (document : D) (item : Prepared D I C E P) : Prop :=
  match item.change with
  | none => True
  | some (config, _) =>
      (item.managed.spec.reconfigure item.managed.plugin config (some document)).1 = .ok ()

theorem reconfigureAll_ok_iff : (reconfigureAll document prepared).1 = .ok () ↔
    ∀ item ∈ prepared, item.Reconfigures document := by
  induction prepared with
  | nil => simp [reconfigureAll]
  | cons item rest inductionHypothesis =>
      rw [List.forall_mem_cons, ← inductionHypothesis]
      rcases item with ⟨managed, change⟩
      cases change with
      | none => simp [reconfigureAll, Prepared.Reconfigures]
      | some change =>
          rw [reconfigureAll, Prepared.Reconfigures]
          dsimp only
          cases managed.spec.reconfigure managed.plugin change.1 (some document) with
          | mk outcome plugin =>
              cases outcome with
              | error failure => simp
              | ok done => simp

namespace Agent

/-! ## After the swap -/

/-- The health manager has a new runtime, whatever raises afterwards. -/
theorem health_swap :
    (agent.swap surroundings infrastructure document prepared).2.health.serial = agent.created := by
  unfold swap
  dsimp only
  split
  · rfl
  · split <;> rfl

theorem swap_ok_iff : (agent.swap surroundings infrastructure document prepared).1 = .ok () ↔
    (∀ item ∈ prepared, item.Reconfigures document) ∧ Replaceable prepared agent.tasks := by
  rw [← reconfigureAll_ok_iff, ← replaceAll_ok_iff]
  unfold swap swapRuntime
  dsimp only
  cases (reconfigureAll document prepared).1 with
  | error failure => simp
  | ok done =>
      cases (replaceAll prepared agent.tasks).1 with
      | error failure => simp
      | ok done => simp

/-! ## Writes -/

/-- What a failed write has to leave as it was. -/
structure Unchanged (before after : Agent D I C E P R S) : Prop where
  file : after.file = before.file
  plugins : after.plugins = before.plugins
  tasks : after.tasks = before.tasks
  health : after.health = before.health
  schedules : after.schedules = before.schedules
  payload : after.payload = before.payload
  running : after.running = before.running

/-- If the call raised, it changed nothing. -/
def FailsUnchanged (before : Agent D I C E P R S) (outcome : Except Text D × Agent D I C E P R S) :
    Prop :=
  ∀ failure, outcome.1 = .error failure → before.Unchanged outcome.2

/-- Everything accepts the definition: it can be prepared, every plugin accepts its
configuration and finds the identifiers of its tasks free, the publication raises
nothing that is not caught, and the incidents are reconciled. -/
def Accepts (surroundings : Surroundings D I R S) (agent : Agent D I C E P R S) (now : Int)
    (document : D) : Prop :=
  ∃ infrastructure prepared,
    agent.preparation surroundings now document = .ok (infrastructure, prepared) ∧
      (∀ item ∈ prepared, item.Reconfigures document) ∧ Replaceable prepared agent.tasks ∧
      (∃ synchronized, surroundings.publish (surroundings.payload document) = .ok synchronized) ∧
      surroundings.reconcile document = .ok ()

variable {payload : Value} {saved : D}

theorem write_of_refused {failure : Text} (refused : surroundings.admit payload = .error failure) :
    agent.writeInfrastructure surroundings now payload = (.error failure, agent) := by
  rw [writeInfrastructure, refused]

/-- A definition that cannot be read back is stored. -/
theorem write_of_unreadable {failure : Text} (admitted : surroundings.admit payload = .ok document)
    (unreadable : surroundings.load (surroundings.dump document) = .error failure) :
    agent.writeInfrastructure surroundings now payload =
      (.error failure, { agent with file := surroundings.dump document }) := by
  rw [writeInfrastructure, admitted]
  dsimp only
  rw [unreadable]

/-- A definition that cannot be prepared is stored, and the scheduler is stopped. -/
theorem write_of_unprepared {failure : Text} (admitted : surroundings.admit payload = .ok document)
    (loaded : surroundings.load (surroundings.dump document) = .ok saved)
    (unprepared : agent.preparation surroundings now saved = .error failure) :
    agent.writeInfrastructure surroundings now payload =
      (.error failure, { agent with file := surroundings.dump document, running := false }) := by
  have same : preparation surroundings
      { agent with file := surroundings.dump document, running := false } now saved =
        .error failure := unprepared
  rw [writeInfrastructure, admitted]
  dsimp only
  rw [loaded]
  dsimp only [applyInfrastructureConfiguration, reconfigureInfrastructure]
  rw [same]

/-- A prepared definition is swapped in. -/
theorem write_of_prepared (admitted : surroundings.admit payload = .ok document)
    (loaded : surroundings.load (surroundings.dump document) = .ok saved)
    (ready : agent.preparation surroundings now saved = .ok (infrastructure, prepared)) :
    (agent.writeInfrastructure surroundings now payload).2.health.serial = agent.created ∧
      ((∃ saved, (agent.writeInfrastructure surroundings now payload).1 = .ok saved) ↔
        agent.Accepts surroundings now saved) := by
  have same : preparation surroundings
      { agent with file := surroundings.dump document, running := false } now saved =
        .ok (infrastructure, prepared) := ready
  have accepts : agent.Accepts surroundings now saved ↔
      (swap surroundings { agent with file := surroundings.dump document, running := false }
        infrastructure saved prepared).1 = .ok () ∧
      (∃ synchronized, surroundings.publish (surroundings.payload saved) = .ok synchronized) ∧
      surroundings.reconcile saved = .ok () := by
    rw [swap_ok_iff]
    constructor
    · rintro ⟨other, others, found, accepted⟩
      rw [ready] at found
      cases found
      exact ⟨⟨accepted.1, accepted.2.1⟩, accepted.2.2⟩
    · rintro ⟨⟨reconfigures, replaceable⟩, published⟩
      exact ⟨infrastructure, prepared, ready, reconfigures, replaceable, published⟩
  have serial : (swap surroundings
      { agent with file := surroundings.dump document, running := false }
      infrastructure saved prepared).2.health.serial = agent.created := health_swap
  rw [accepts, writeInfrastructure, admitted]
  dsimp only
  rw [loaded]
  dsimp only [applyInfrastructureConfiguration, reconfigureInfrastructure]
  rw [same]
  dsimp only
  generalize swap surroundings { agent with file := surroundings.dump document, running := false }
    infrastructure saved prepared = outcome at serial ⊢
  rcases outcome with ⟨_ | done, next⟩
  · exact ⟨serial, by simp⟩
  · dsimp only [synchronizeInfrastructure]
    cases surroundings.publish (surroundings.payload saved) with
    | error failure => exact ⟨serial, by simp⟩
    | ok synchronized =>
        cases surroundings.reconcile saved with
        | error failure => exact ⟨serial, by simp⟩
        | ok done => exact ⟨serial, by simp⟩

/-- A write that raises leaves everything as it was exactly if it does not raise,
if the payload is refused before the file is replaced, if the file keeps its text
and cannot be read back, or if the scheduler was stopped, the file keeps its text
and the definition cannot be prepared. -/
theorem failed_write_unchanged_iff (surroundings : Surroundings D I R S)
    (agent : Agent D I C E P R S) (now : Int) (payload : Value) :
    agent.FailsUnchanged (agent.writeInfrastructure surroundings now payload) ↔
      (∃ failure, surroundings.admit payload = .error failure) ∨
        ∃ document, surroundings.admit payload = .ok document ∧
          ((∃ failure, surroundings.load (surroundings.dump document) = .error failure) ∧
              surroundings.dump document = agent.file ∨
            ∃ saved, surroundings.load (surroundings.dump document) = .ok saved ∧
              (agent.Accepts surroundings now saved ∨
                agent.running = false ∧ surroundings.dump document = agent.file ∧
                  ∃ failure, agent.preparation surroundings now saved = .error failure)) := by
  cases admitted : surroundings.admit payload with
  | error failure =>
      rw [write_of_refused admitted]
      constructor
      · intro _
        exact Or.inl ⟨failure, rfl⟩
      · intro _ _ _
        constructor <;> rfl
  | ok document =>
      simp only [reduceCtorEq, exists_false, false_or, Except.ok.injEq, exists_eq_left']
      cases loaded : surroundings.load (surroundings.dump document) with
      | error failure =>
          rw [write_of_unreadable admitted loaded]
          simp only [reduceCtorEq, false_and, exists_false, or_false]
          constructor
          · intro unchanged
            exact ⟨⟨failure, rfl⟩, (unchanged failure rfl).file⟩
          · rintro ⟨_, same⟩ _ _
            constructor
            · exact same
            all_goals rfl
      | ok saved =>
          simp only [reduceCtorEq, exists_false, false_and, false_or, Except.ok.injEq,
            exists_eq_left']
          cases ready : agent.preparation surroundings now saved with
          | error failure =>
              rw [write_of_unprepared admitted loaded ready]
              constructor
              · intro unchanged
                have kept := unchanged failure rfl
                exact Or.inr ⟨kept.running.symm, kept.file, failure, rfl⟩
              · rintro (⟨infrastructure, prepared, found, _⟩ | ⟨stopped, same, _⟩)
                · rw [ready] at found
                  contradiction
                · intro _ _
                  constructor
                  · exact same
                  all_goals first | rfl | exact stopped.symm
          | ok outcome =>
              rcases write_of_prepared admitted loaded ready with ⟨serial, accepts⟩
              rw [← accepts]
              simp only [reduceCtorEq, exists_false, and_false, or_false]
              constructor
              · intro unchanged
                cases raised : (agent.writeInfrastructure surroundings now payload).1 with
                | ok saved => exact ⟨saved, rfl⟩
                | error failure =>
                    have kept := congrArg HealthRuntime.serial (unchanged failure raised).health
                    rw [serial] at kept
                    exact absurd kept (Nat.ne_of_gt agent.numbered)
              · rintro ⟨saved, returned⟩ failure raised
                rw [returned] at raised
                contradiction

end Agent

/-! ## The node of the DHCP server is removed -/

/-- The names in the `nodes` of a definition. -/
def nodeNames : Encoding.Json.Items → Except Text (List Text)
  | .nil => .ok []
  | .cons (.string name) rest => do return name :: (← nodeNames rest)
  | .cons _ _ => .error "Input should be a valid string".toList

/-- Definitions by the names of their nodes. -/
def nodeSurroundings : Surroundings (List Text) (List Text) (List Text) Unit where
  modelValidate
    | .object fields =>
        match fields.lookup "nodes".toList with
        | some (.array items) => nodeNames items
        | _ => .ok []
    | _ => .error "Input should be a valid dictionary".toList
  validator nodes :=
    if nodes.Nodup then .ok () else .error "Node identifiers must be unique.".toList
  dump nodes := nodes.flatMap fun name => name ++ ['\n']
  replaceFile _ := .ok ()
  load text := .ok ((text.splitOn '\n').filter (· ≠ []))
  build := .ok
  healthRuntime := id
  schedules _ := ()
  payload nodes := .array (.ofList (nodes.map .string))
  publish _ := .ok true
  reconcile _ := .ok ()

/-- The DHCP plugin, whose server is the node `infra-01`. -/
def dhcpSpec : PluginSpec (List Text) (List Text) Text Bool Text where
  identifier := "dhcp".toList
  buildConfig nodes _ _ :=
    if "infra-01".toList ∈ nodes then .ok "infra-01".toList
    else .error "DHCP server node not found: 'infra-01'.".toList
  buildTasks _ _ _ := .ok [⟨"dhcp.status:dhcp".toList, "dhcp.status".toList, none⟩]
  reconfigure _ config _ := (.ok (), config)
  enabled := id
  followsInfrastructure := true

def dhcpAgent : Agent (List Text) (List Text) Text Bool Text (List Text) Unit where
  file := "infra-01\ndns-02\n".toList
  plugins := [⟨dhcpSpec, true, "infra-01".toList, "infra-01".toList⟩]
  infrastructure := ["infra-01".toList, "dns-02".toList]
  infrastructureConfig := ["infra-01".toList, "dns-02".toList]
  tasks := Table.upsert ∅ ⟨"dhcp.status:dhcp".toList, "dhcp.status".toList, none⟩
  running := true
  health := ⟨0, ["infra-01".toList, "dns-02".toList]⟩
  created := 1
  schedules := ()
  payload := .array (.ofList [.string "infra-01".toList, .string "dns-02".toList])
  synchronized := true
  numbered := Nat.zero_lt_one

/-- The definition with the other node only. -/
def withoutServer : Value :=
  .object (.ofList [("nodes".toList, .array (.ofList [.string "dns-02".toList]))])

/-- The write raises, the scheduler stays stopped and the file is the refused one. -/
theorem refused_definition_is_stored :
    (dhcpAgent.writeInfrastructure nodeSurroundings 0 withoutServer).1 =
        .error "DHCP server node not found: 'infra-01'.".toList ∧
      (dhcpAgent.writeInfrastructure nodeSurroundings 0 withoutServer).2.file =
        "dns-02\n".toList ∧
      ¬ dhcpAgent.FailsUnchanged
        (dhcpAgent.writeInfrastructure nodeSurroundings 0 withoutServer) := by
  have raised : (dhcpAgent.writeInfrastructure nodeSurroundings 0 withoutServer).1 =
      .error "DHCP server node not found: 'infra-01'.".toList := by rfl
  have stopped :
      (dhcpAgent.writeInfrastructure nodeSurroundings 0 withoutServer).2.running = false := by rfl
  constructor
  · exact raised
  · constructor
    · rfl
    · intro unchanged
      have kept := (unchanged _ raised).running
      rw [stopped] at kept
      contradiction

end OhanaAgent.Runtime
