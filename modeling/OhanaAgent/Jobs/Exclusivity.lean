import OhanaAgent.Jobs.Invariant
import OhanaAgent.Jobs.PairingEffects
import OhanaAgent.Transition.Trace

/-!
# One live pairing request for each worker

`create_pairing` checks that the worker has no live request, but an identity
migration renames the requests of a worker without that check.  The live
requests stay exclusive exactly as long as no migration moves a worker with a
live request to a name that has one.
-/

namespace OhanaAgent.Jobs

open OhanaAgent.Encoding.Json
open OhanaAgent.Store
open OhanaAgent.Time
open OhanaAgent.Transition

variable {env : Environment} {config : Config} {now : Int} {db after : Database}

/-- The number of live requests of a worker. -/
def Database.livePairings (db : Database) (workerId : Text) : Nat :=
  db.pairings.rows.countP fun row => row.status.live && row.workerId = workerId

/-- The number of live requests. -/
def Database.pendingPairings (db : Database) : Nat :=
  db.pairings.rows.countP fun row => row.status.live

/-- A worker has at most one live request, and the live requests respect their
limit. -/
structure Exclusive (config : Config) (db : Database) : Prop where
  single : ∀ workerId, db.livePairings workerId ≤ 1
  limited : db.pendingPairings ≤ config.maxPendingPairings

/-- A registration that renames a worker with a live request to a name that has
one. -/
def Merges (db : Database) (call : Call) : Prop :=
  ∃ payload registration previous,
    call.operation = .registerWorker payload (some previous) ∧
    Registration.validate payload = .ok registration ∧
    previous ≠ [] ∧ previous ≠ registration.workerId ∧
    db.Renamable previous registration.workerId ∧
    0 < db.livePairings previous ∧ 0 < db.livePairings registration.workerId

/-! ## Requests that fade -/

theorem livePairings_le {approves : Text → Prop}
    (fades : Table.Rewrites (Fades approves) db.pairings after.pairings) (workerId : Text) : after.livePairings workerId ≤ db.livePairings workerId := by
  refine Table.countP_le_of_forall₂ fades fun related met => ?_
  simp only [Bool.and_eq_true, decide_eq_true_eq] at met ⊢
  exact ⟨related.live met.1, related.workerId ▸ met.2⟩

theorem pendingPairings_le {approves : Text → Prop}
    (fades : Table.Rewrites (Fades approves) db.pairings after.pairings) :
    after.pendingPairings ≤ db.pendingPairings :=
  Table.countP_le_of_forall₂ fades fun related live => related.live live

theorem Exclusive.fades {approves : Text → Prop} (exclusive : Exclusive config db)
    (fades : Table.Rewrites (Fades approves) db.pairings after.pairings) :
    Exclusive config after :=
  ⟨fun workerId => (livePairings_le fades workerId).trans (exclusive.single workerId),
    (pendingPairings_le fades).trans exclusive.limited⟩

/-! ## Creation and migration -/

theorem Exclusive.created (exclusive : Exclusive config db) {request : Registration}
    {pairingId secret code : Text} {row : PairingRow}
    (done : db.createPairing env config now request pairingId secret code = .ok (row, after)) :
    Exclusive config after := by
  obtain ⟨free, room, _, rows, _⟩ := createPairing_eq_ok done
  have swept : Exclusive config (db.expirePairings env now) :=
    exclusive.fades (fades_expirePairings (fun _ => False) db)
  have idle : (db.expirePairings env now).livePairings request.workerId = 0 := by
    refine List.countP_eq_zero.mpr fun other member => ?_
    by_cases same : other.workerId = request.workerId
    · simp [free other member same]
    · simp [same]
  constructor
  · intro workerId
    unfold Database.livePairings
    rw [rows, List.countP_append]
    by_cases same : request.workerId = workerId
    · subst same
      have none := idle
      unfold Database.livePairings at none
      rw [none, Nat.zero_add]
      exact List.countP_le_length
    · have one := swept.single workerId
      unfold Database.livePairings at one
      simpa [Registration.pairing, same] using one
  · unfold Database.pendingPairings
    rw [rows, List.countP_append]
    rw [← List.countP_eq_length_filter] at room
    exact room

/-- The live requests of the new name are those of both names. -/
theorem livePairings_renamed {previous workerId : Text} (different : previous ≠ workerId)
    (rows : after.pairings.rows = db.pairings.rows.map (PairingRow.renamed previous workerId)) :
    after.livePairings workerId = db.livePairings previous + db.livePairings workerId := by
  unfold Database.livePairings
  rw [rows]
  induction db.pairings.rows with
  | nil => rfl
  | cons row rest ih =>
      rw [List.map_cons, List.countP_cons, List.countP_cons, List.countP_cons, ih]
      unfold PairingRow.renamed
      by_cases old : row.workerId = previous
      · simp only [old, if_true, different, decide_true, decide_false, Bool.and_true,
          Bool.and_false]
        simp only [Bool.false_eq_true, if_false]
        omega
      · simp only [old, if_false, decide_false, Bool.and_false, Bool.false_eq_true]
        omega

/-- The other names have no more live requests than before. -/
theorem livePairings_renamed_le {previous workerId other : Text} (others : other ≠ workerId)
    (rows : after.pairings.rows = db.pairings.rows.map (PairingRow.renamed previous workerId)) :
    after.livePairings other ≤ db.livePairings other := by
  unfold Database.livePairings
  rw [rows, List.countP_map]
  refine List.countP_mono_left fun row _ met => ?_
  simp only [Function.comp_apply, PairingRow.renamed] at met
  split at met
  · simp [Ne.symm others] at met
  · exact met

theorem pendingPairings_renamed {previous workerId : Text}
    (rows : after.pairings.rows = db.pairings.rows.map (PairingRow.renamed previous workerId)) :
    after.pendingPairings = db.pendingPairings := by
  unfold Database.pendingPairings
  rw [rows, List.countP_map]
  refine List.countP_congr fun row _ => ?_
  simp only [Function.comp_apply, PairingRow.renamed]
  split <;> rfl

theorem Exclusive.renamed (exclusive : Exclusive config db) {previous workerId : Text}
    (different : previous ≠ workerId)
    (rows : after.pairings.rows = db.pairings.rows.map (PairingRow.renamed previous workerId))
    (apart : db.livePairings previous = 0 ∨ db.livePairings workerId = 0) :
    Exclusive config after := by
  refine ⟨fun other => ?_, (pendingPairings_renamed rows).le.trans exclusive.limited⟩
  by_cases same : other = workerId
  · rw [same, livePairings_renamed different rows]
    rcases apart with none | none
    · rw [none, Nat.zero_add]
      exact exclusive.single workerId
    · rw [none, Nat.add_zero]
      exact exclusive.single previous
  · exact (livePairings_renamed_le same rows).trans (exclusive.single other)

/-- A call that does not merge two live requests keeps them exclusive. -/
theorem Exclusive.step (exclusive : Exclusive config db) {call : Call} (apart : ¬ Merges db call) :
    Exclusive config (call.operation.run env config call.now db).2 := by
  rcases fades_of_effect (pairingEffect_run call db) with fades |
    ⟨_, _, _, _, _, _, _, _, done⟩ | ⟨payload, registration, previous, migrated, asked, valid,
      different, done, same⟩
  · exact exclusive.fades fades
  · exact exclusive.created done
  · obtain ⟨renamable, rows, _⟩ := migrateWorkerIdentity_eq_ok done
    rw [← same.pairings] at rows
    refine exclusive.renamed different.2 rows ?_
    by_contra both
    push Not at both
    exact apart ⟨payload, registration, previous, asked, valid, different.1, different.2,
      renamable, Nat.pos_of_ne_zero both.1, Nat.pos_of_ne_zero both.2⟩

/-! ## A merging migration succeeds -/

theorem exists_upsertWorker (written : WorkerRow) (db : Database) :
    ∃ after, db.upsertWorker written = .ok after := by
  unfold Database.upsertWorker
  split
  · exact ⟨_, rfl⟩
  · rename_i absent
    obtain ⟨workers, inserted⟩ := db.workers.exists_insert? written
      (Table.find?_eq_none_iff.mp absent)
    rw [inserted]
    exact ⟨_, rfl⟩

theorem exists_registerWorker {registration : Registration} {previous : Option Text}
    {migrated : Database}
    (migration : db.migrateIfRenamed previous registration.workerId = .ok migrated) :
    ∃ row after, db.registerWorker now registration previous = .ok (row, after) := by
  obtain ⟨written, upserted⟩ := exists_upsertWorker (Database.registeredRow now registration
    (migrated.workers.find? registration.workerId)) migrated
  unfold Database.registerWorker
  simp only [migration, bind, Except.bind, upserted]
  split
  · exact ⟨_, _, rfl⟩
  · exact ⟨_, _, rfl⟩

/-- A call that merges two live requests breaks the exclusivity. -/
theorem not_exclusive_step {call : Call} (merges : Merges db call) :
    ¬ Exclusive config (call.operation.run env config call.now db).2 := by
  obtain ⟨payload, registration, previous, asked, valid, named, different, renamable, first,
    second⟩ := merges
  obtain ⟨migrated, migration⟩ := exists_migrateWorkerIdentity renamable
  have moved : db.migrateIfRenamed (some previous) registration.workerId = .ok migrated := by
    simpa [Database.migrateIfRenamed, named, different] using migration
  have registers : ∃ row after, db.registerWorker call.now registration (some previous) =
      .ok (row, after) := exists_registerWorker moved
  obtain ⟨row, after, done⟩ := registers
  have ran : (call.operation.run env config call.now db).2 = after := by
    rw [asked]
    simp only [Operation.run, answering, commit, valid, done, bind, Except.bind]
  obtain ⟨target, sameTarget, same⟩ := registerWorker_eq_ok done
  rw [moved] at sameTarget
  cases sameTarget
  obtain ⟨_, rows, _⟩ := migrateWorkerIdentity_eq_ok migration
  rw [← same.pairings] at rows
  rw [ran]
  intro exclusive
  have one := exclusive.single registration.workerId
  rw [livePairings_renamed different rows] at one
  omega

/-! ## Whole runs -/

/-- In every run: the live pairing requests are exclusive and within their limit
in every state reached if and only if no registration merges the live requests
of two identities. -/
theorem pairing_exclusive_iff (env : Environment) (config : Config) (calls : List Call) :
    (∀ earlier later, calls = earlier ++ later →
      Exclusive config (execute env config earlier Database.empty)) ↔
    ∀ earlier call later, calls = earlier ++ call :: later →
      ¬ Merges (execute env config earlier Database.empty) call := by
  refine @always_iff _ _ (fun db call => (call.operation.run env config call.now db).2)
    Database.empty (fun db call => ¬ Merges db call) (Exclusive config) ?_ ?_ ?_ calls
  · exact ⟨fun _ => Nat.zero_le 1, Nat.zero_le _⟩
  · exact fun _ _ exclusive apart => exclusive.step apart
  · exact fun _ _ _ merges => not_exclusive_step (not_not.mp merges)

/-! ## Two installers and one rename -/

/-- A worker announces itself. -/
def announcement (workerId : Text) : RegistrationPayload where
  workerId := workerId
  capabilities := ["system.health".toList]
  platform := ['x']
  workerVersion := ['1']
  wakeOnLanMacAddress := none

def oldName : Text := ['o', 'l', 'd']

def newName : Text := ['n', 'e', 'w']

/-- A call some seconds after nine in January. -/
def secondsIn (n : Nat) (operation : Operation) : Call :=
  ⟨healthTime + n * second, operation⟩

/-- The old identity is paired. -/
def pairedOnce : List Call :=
  [secondsIn 0 (.createPairing (announcement oldName) ['p'] ['s'] ['c']),
    secondsIn 1 (.approvePairing ['p']),
    secondsIn 2 (.pollPairing ['p'] ['s'] ['t'])]

/-- An installer asks for the old identity again, another one for the new
identity, and the worker registers under its new name. -/
def mergedPairings : List Call :=
  pairedOnce ++ [secondsIn 3 (.createPairing (announcement oldName) ['q'] ['s'] ['c']),
    secondsIn 4 (.createPairing (announcement newName) ['r'] ['s'] ['c']),
    secondsIn 5 (.registerWorker (announcement newName) (some oldName))]

/-- The new identity has two pending requests. -/
theorem merged_pairings_not_exclusive :
    ¬ ∀ (env : Environment) (config : Config) (calls : List Call),
      Exclusive config (execute env config calls Database.empty) := by
  intro exclusive
  have two : (execute winterEnvironment Config.default mergedPairings Database.empty).livePairings
      newName = 2 := by
    decide +kernel
  have one := (exclusive winterEnvironment Config.default mergedPairings).single newName
  omega

end OhanaAgent.Jobs
