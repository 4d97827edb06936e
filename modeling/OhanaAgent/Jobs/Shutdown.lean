import OhanaAgent.Jobs.PowerJournal

/-!
# Shutdown inside an Ohana cycle

The permission to stop a computer is one flag of its worker row: a wake sets it,
a registration after the deadline or a power report clears it.  Beside the
database stands what the worker really did since its wake; a first contact after
the deadline that is not a registration leaves the flag.
-/

namespace OhanaAgent.Jobs

open OhanaAgent.Encoding.Json
open OhanaAgent.Store
open OhanaAgent.Time

variable {env : Environment} {config : Config} {now : Int} {db after : Database}

/-! ## Wake cycles -/

/-- A wake that was sent, no power report since, and the first contact after it. -/
structure WakeCycle where
  deadline : Int
  firstContact : Option Int

def WakeCycle.contacted (now : Int) (cycle : WakeCycle) : WakeCycle :=
  { cycle with firstContact := cycle.firstContact.or (some now) }

/-- The cycle of each identity. -/
abbrev WakeCycles := Text → Option WakeCycle

namespace WakeCycles

def contact (workerId : Text) (now : Int) (cycles : WakeCycles) : WakeCycles :=
  Function.update cycles workerId ((cycles workerId).map (WakeCycle.contacted now))

/-- The worker continues under its new identity. -/
def rename (previous : Option Text) (workerId : Text) (cycles : WakeCycles) : WakeCycles :=
  match previous with
  | none => cycles
  | some previous =>
      if previous ≠ [] ∧ previous ≠ workerId then
        Function.update (Function.update cycles previous none) workerId (cycles previous)
      else cycles

end WakeCycles

/-- The worker that registers, claims, renews or reports. -/
def Operation.contact : Operation → Option Text
  | .registerWorker payload _ => some payload.workerId
  | .claim workerId _ _ _ => some workerId
  | .heartbeat _ workerId _ _ => some workerId
  | .reportWorkerRuntimes workerId _ _ => some workerId
  | _ => none

/-- The call is a registration that was accepted. -/
def Call.registers (env : Environment) (config : Config) (db : Database) (call : Call) : Bool :=
  match call.operation with
  | .registerWorker _ _ => (call.operation.run env config call.now db).1.isOk
  | _ => false

/-- The cycles after a call on the database. -/
def WakeCycles.next (env : Environment) (config : Config) (db : Database) (call : Call)
    (cycles : WakeCycles) : WakeCycles :=
  match call.operation with
  | .registerWorker payload previous =>
      let moved := if call.registers env config db then cycles.rename previous payload.workerId
        else cycles
      moved.contact payload.workerId call.now
  | .markWorkerWaking workerId timeoutSeconds _ =>
      if (call.operation.run env config call.now db).1.isOk ∧
          ∃ row ∈ db.workers.find? workerId, row.availability config call.now ≠ .available then
        Function.update cycles workerId (some ⟨call.now + seconds timeoutSeconds, none⟩)
      else cycles
  | .reportWorkerPower workerId _ _ => Function.update cycles workerId none
  | operation =>
      match operation.contact with
      | some workerId => cycles.contact workerId call.now
      | none => cycles

/-- A database beside the cycles of its workers. -/
structure Watched where
  db : Database
  cycles : WakeCycles

def Watched.next (env : Environment) (config : Config) (watched : Watched) (call : Call) :
    Watched where
  db := (call.operation.run env config call.now watched.db).2
  cycles := watched.cycles.next env config watched.db call

/-- The empty database, before any wake. -/
def Watched.start : Watched where
  db := Database.empty
  cycles := fun _ => none

def watch (env : Environment) (config : Config) (calls : List Call) (watched : Watched) : Watched :=
  calls.foldl (Watched.next env config) watched

theorem db_watch (calls : List Call) (watched : Watched) :
    (watch env config calls watched).db = execute env config calls watched.db := by
  induction calls generalizing watched with
  | nil => rfl
  | cons call calls ih => exact ih (watched.next env config call)

/-- The first contact of a worker since its wake comes after the deadline, and it
is no accepted registration. -/
def Late (env : Environment) (config : Config) (watched : Watched) (call : Call) : Prop :=
  ∃ workerId ∈ call.operation.contact, ∃ cycle ∈ watched.cycles workerId,
    cycle.firstContact = none ∧ cycle.deadline < call.now ∧
      call.registers env config watched.db = false

/-- No call of the run is late. -/
def Punctual (env : Environment) (config : Config) : Watched → List Call → Prop
  | _, [] => True
  | watched, call :: calls =>
      ¬ Late env config watched call ∧ Punctual env config (watched.next env config call) calls

instance (watched : Watched) (call : Call) : Decidable (Late env config watched call) :=
  inferInstanceAs (Decidable (∃ workerId ∈ call.operation.contact,
    ∃ cycle ∈ watched.cycles workerId, cycle.firstContact = none ∧ cycle.deadline < call.now ∧
      call.registers env config watched.db = false))

instance Punctual.decidable (env : Environment) (config : Config) (watched : Watched)
    (calls : List Call) : Decidable (Punctual env config watched calls) :=
  match calls with
  | [] => inferInstanceAs (Decidable True)
  | call :: calls =>
      have := Punctual.decidable env config (watched.next env config call) calls
      inferInstanceAs (Decidable (¬ Late env config watched call ∧
        Punctual env config (watched.next env config call) calls))

/-- The worker is in a cycle that it answered in time. -/
def Watched.Owned (watched : Watched) (workerId : Text) : Prop :=
  ∃ cycle, watched.cycles workerId = some cycle ∧
    ∃ first, cycle.firstContact = some first ∧ first ≤ cycle.deadline

/-- Nothing is left for the worker to do or for Tsunade to record. -/
def Database.Settled (db : Database) (workerId : Text) : Prop :=
  ∃ worker, db.workers.find? workerId = some worker ∧
    ∀ job ∈ db.jobs, job.completionProcessed = true ∧ (job.status.recoverable = true →
      job.type ∉ worker.capabilities ∧ job.workerId ≠ some workerId)

/-! ## Calls that keep the wakes -/

/-- The flagged workers were flagged, with the same deadline. -/
def KeepsWakes (before after : Database) : Prop :=
  ∀ next ∈ after.workers, next.wokenByOhana = true → ∃ row ∈ before.workers,
    row.workerId = next.workerId ∧ row.wokenByOhana = true ∧
      row.wakeDeadlineAt = next.wakeDeadlineAt

theorem SameWakes.keepsWakes (same : SameWakes db after) : KeepsWakes db after := by
  intro next member flagged
  rcases same.source member with ⟨row, rowMem, equal⟩
  simp only [WorkerRow.wake, Prod.mk.injEq] at equal
  exact ⟨row, rowMem, equal.1, equal.2.1.trans flagged, equal.2.2.2⟩

/-- A worker after a write to one of them. -/
theorem worker_of_modify {workerId : Text} {f : WorkerRow → WorkerRow} {next : WorkerRow}
    (written : after.workers.rows = db.workers.rows.map fun row =>
      if row.workerId = workerId then f row else row)
    (member : next ∈ after.workers) :
    (∃ row ∈ db.workers, row.workerId = workerId ∧ f row = next) ∨
      next ∈ db.workers ∧ next.workerId ≠ workerId := by
  rw [Table.mem_def, written] at member
  obtain ⟨row, rowMem, equal⟩ := List.mem_map.mp member
  split at equal
  · rename_i same
    exact Or.inl ⟨row, rowMem, same, equal⟩
  · rename_i different
    subst equal
    exact Or.inr ⟨rowMem, different⟩

/-- Only registrations, wakes and power reports write the flag. -/
theorem keepsWakes_run {operation : Operation}
    (registration : ∀ payload previous, operation ≠ .registerWorker payload previous)
    (wake : ∀ workerId timeout trigger, operation ≠ .markWorkerWaking workerId timeout trigger)
    (power : ∀ workerId started detail, operation ≠ .reportWorkerPower workerId started detail) :
    KeepsWakes db (operation.run env config now db).2 :=
  (sameWakes_run registration wake power).keepsWakes

/-! ## The cycles explain the flags -/

/-- A flagged worker is in a cycle with its deadline, answered in time if at
all. -/
def Watched.Explained (watched : Watched) : Prop :=
  ∀ row ∈ watched.db.workers, row.wokenByOhana = true → ∃ cycle,
    watched.cycles row.workerId = some cycle ∧ row.wakeDeadlineAt = some cycle.deadline ∧
      ∀ first ∈ cycle.firstContact, first ≤ cycle.deadline

theorem explained_start : Watched.start.Explained := by
  intro row member
  exact absurd member List.not_mem_nil

/-- The cycle of a worker after its contact in time. -/
theorem explained_contact {cycles : WakeCycles} {workerId : Text} {cycle : WakeCycle}
    (contactId : Text) (found : cycles workerId = some cycle)
    (inTime : ∀ first ∈ cycle.firstContact, first ≤ cycle.deadline)
    (punctual : contactId = workerId → cycle.firstContact = none → now ≤ cycle.deadline) :
    ∃ next, cycles.contact contactId now workerId = some next ∧ next.deadline = cycle.deadline ∧
      ∀ first ∈ next.firstContact, first ≤ next.deadline := by
  by_cases same : contactId = workerId
  · subst same
    refine ⟨cycle.contacted now, by simp [WakeCycles.contact, found], rfl, ?_⟩
    intro first contacted
    cases earlier : cycle.firstContact with
    | none =>
        simp only [WakeCycle.contacted, earlier, Option.none_or, Option.mem_some_iff] at contacted
        subst contacted
        exact punctual rfl earlier
    | some other =>
        simp only [WakeCycle.contacted, earlier, Option.some_or, Option.mem_some_iff] at contacted
        subst contacted
        exact inTime other earlier
  · exact ⟨cycle, by simp [WakeCycles.contact, Function.update_of_ne (Ne.symm same), found], rfl,
      inTime⟩

/-- The cycles follow a migration. -/
theorem explained_rename {watched : Watched} {migrated : Database} {previous : Option Text}
    {workerId : Text} (explained : watched.Explained)
    (migration : watched.db.migrateIfRenamed previous workerId = .ok migrated) :
    Watched.Explained ⟨migrated, watched.cycles.rename previous workerId⟩ := by
  unfold Database.migrateIfRenamed at migration
  unfold WakeCycles.rename
  cases previous with
  | none =>
      cases migration
      exact explained
  | some previous =>
      by_cases renames : previous ≠ [] ∧ previous ≠ workerId
      · simp only [if_pos renames] at migration ⊢
        obtain ⟨⟨_, _, unknown⟩, _⟩ := migrateWorkerIdentity_eq_ok migration
        obtain ⟨rows, _⟩ := migrateWorkerIdentity_rows migration
        intro next member flagged
        rw [Table.mem_def, rows] at member
        obtain ⟨row, rowMem, rfl⟩ := List.mem_map.mp member
        by_cases same : row.workerId = previous
        · simp only [WorkerRow.renamed, if_pos same] at flagged ⊢
          obtain ⟨cycle, found, deadline, inTime⟩ := explained row rowMem flagged
          rw [same] at found
          exact ⟨cycle, by rw [Function.update_self, found], deadline, inTime⟩
        · simp only [WorkerRow.renamed, if_neg same] at flagged ⊢
          obtain ⟨cycle, found, deadline, inTime⟩ := explained row rowMem flagged
          have other : row.workerId ≠ workerId := fun equal =>
            Table.find?_eq_none_iff.mp unknown row rowMem equal
          refine ⟨cycle, ?_, deadline, inTime⟩
          rw [Function.update_of_ne other, Function.update_of_ne same, found]
      · simp only [if_neg renames] at migration ⊢
        cases migration
        exact explained

/-- A registered worker whose flag stays was flagged, and its deadline has not
passed. -/
theorem flagged_of_registeredRow {registration : Registration} {existing : Option WorkerRow}
    (flagged : (Database.registeredRow now registration existing).wokenByOhana = true) :
    ∃ row, existing = some row ∧ row.wokenByOhana = true ∧
      (Database.registeredRow now registration existing).wakeDeadlineAt = row.wakeDeadlineAt ∧
      ∀ deadline ∈ row.wakeDeadlineAt, now ≤ deadline := by
  cases existing with
  | none => simp [Database.registeredRow] at flagged
  | some row =>
      have written := flagged
      simp only [Database.registeredRow, Option.map_some, Option.getD_some, Option.bind_some,
        Bool.and_eq_true, decide_eq_true_eq] at flagged
      obtain ⟨woken, instant, found, inTime⟩ := flagged
      refine ⟨row, rfl, woken, ?_, ?_⟩
      · simp only [Database.registeredRow, Option.map_some, Option.getD_some, Option.bind_some,
          Bool.and_eq_true, decide_eq_true_eq]
        rw [if_pos ⟨woken, instant, found, inTime⟩]
      · intro deadline same
        rw [Option.mem_def.mp found, Option.mem_some_iff] at same
        omega

/-- The cycles explain the flags after a registration. -/
theorem explained_registerWorker {watched : Watched} {registration : Registration}
    {previous : Option Text} {row : WorkerRow} {after : Database} (explained : watched.Explained)
    (done : watched.db.registerWorker now registration previous = .ok (row, after)) :
    Watched.Explained ⟨after, (watched.cycles.rename previous registration.workerId).contact
      registration.workerId now⟩ := by
  obtain ⟨migrated, written, migration, upserted, workers, _⟩ := registerWorker_written done
  have renamed := explained_rename explained migration
  obtain ⟨found, others, _⟩ := upsertWorker_eq_ok upserted
  intro next member flagged
  rw [workers] at member
  have read : written.workers.find? next.workerId = some next :=
    Table.find?_eq_some_iff.mpr ⟨member, rfl⟩
  by_cases same : next.workerId = registration.workerId
  · have registered : next = Database.registeredRow now registration
        (migrated.workers.find? registration.workerId) := by
      rw [same] at read
      exact Option.some.inj (read.symm.trans found)
    rw [registered] at flagged
    obtain ⟨row, existing, woken, sameDeadline, early⟩ := flagged_of_registeredRow flagged
    obtain ⟨rowMem, rowId⟩ := Table.find?_eq_some_iff.mp existing
    obtain ⟨cycle, current, deadline, inTime⟩ := renamed row rowMem woken
    rw [rowId] at current
    obtain ⟨contacted, now, kept, answered⟩ := explained_contact registration.workerId current
      inTime fun _ _ => early cycle.deadline deadline
    refine ⟨contacted, by rw [same]; exact now, ?_, answered⟩
    rw [registered, sameDeadline, deadline, kept]
  · have kept : next ∈ migrated.workers := by
      rw [others next.workerId same] at read
      exact (Table.find?_eq_some_iff.mp read).1
    obtain ⟨cycle, current, deadline, inTime⟩ := renamed next kept flagged
    refine ⟨cycle, ?_, deadline, inTime⟩
    simp only [WakeCycles.contact, Function.update_of_ne same]
    exact current

theorem Watched.Explained.keeps {watched : Watched} (explained : watched.Explained)
    (keeps : KeepsWakes watched.db after) : Watched.Explained ⟨after, watched.cycles⟩ := by
  intro next member flagged
  obtain ⟨row, rowMem, sameId, woken, deadline⟩ := keeps next member flagged
  obtain ⟨cycle, found, same, inTime⟩ := explained row rowMem woken
  exact ⟨cycle, sameId ▸ found, deadline ▸ same, inTime⟩

theorem Watched.Explained.contact {watched : Watched} (explained : watched.Explained)
    (contactId : Text) (punctual : ∀ cycle, watched.cycles contactId = some cycle →
      cycle.firstContact = none → now ≤ cycle.deadline) :
    Watched.Explained ⟨watched.db, watched.cycles.contact contactId now⟩ := by
  intro row member woken
  obtain ⟨cycle, found, deadline, inTime⟩ := explained row member woken
  obtain ⟨contacted, current, kept, answered⟩ := explained_contact contactId found inTime
    fun same => punctual cycle (same ▸ found)
  exact ⟨contacted, current, deadline.trans (congrArg some kept.symm), answered⟩

/-! ## Every call -/

/-- What a contact that is not late says about the cycle. -/
theorem inTime_of_not_late {watched : Watched} {call : Call} {workerId : Text}
    (punctual : ¬ Late env config watched call) (contact : call.operation.contact = some workerId)
    (other : call.registers env config watched.db = false) (cycle : WakeCycle)
    (found : watched.cycles workerId = some cycle) (first : cycle.firstContact = none) :
    call.now ≤ cycle.deadline := by
  by_contra late
  exact punctual ⟨workerId, contact, cycle, found, first, by omega, other⟩

theorem explained_registration {watched : Watched} {payload : RegistrationPayload}
    {previous : Option Text} (explained : watched.Explained)
    (punctual : ¬ Late env config watched ⟨now, .registerWorker payload previous⟩) :
    (watched.next env config ⟨now, .registerWorker payload previous⟩).Explained := by
  have run : ((Operation.registerWorker payload previous).run env config now watched.db) =
      answering (fun row => .worker (some row)) (fun db => do
        let registration ← Registration.validate payload
        db.registerWorker now registration previous) watched.db := rfl
  unfold Watched.next WakeCycles.next
  rcases commit_cases (fun db : Database => do
      let registration ← Registration.validate payload
      db.registerWorker now registration previous) watched.db with
    ⟨row, after, done, outcome⟩ | ⟨failure, _, outcome⟩
  · obtain ⟨registration, valid, registered⟩ := bind_eq_ok.mp done
    have accepted : Call.registers env config watched.db
        ⟨now, .registerWorker payload previous⟩ = true := by
      simp only [Call.registers, run, answering, outcome]
      rfl
    simp only [run, answering, outcome, if_pos accepted, ← workerId_of_validate valid]
    exact explained_registerWorker explained registered
  · have refused : Call.registers env config watched.db
        ⟨now, .registerWorker payload previous⟩ = false := by
      simp only [Call.registers, run, answering, outcome]
      rfl
    simp only [run, answering, outcome, refused]
    exact explained.contact payload.workerId (inTime_of_not_late punctual rfl refused)

theorem explained_wake {watched : Watched} {workerId trigger : Text} {timeoutSeconds : Nat}
    (explained : watched.Explained) :
    (watched.next env config ⟨now, .markWorkerWaking workerId timeoutSeconds trigger⟩).Explained := by
  have run : (Operation.markWorkerWaking workerId timeoutSeconds trigger).run env config now
      watched.db = answering .worker (Database.markWorkerWaking config now workerId timeoutSeconds
        trigger) watched.db := rfl
  unfold Watched.next WakeCycles.next
  rcases commit_cases (Database.markWorkerWaking config now workerId timeoutSeconds trigger)
      watched.db with ⟨answer, after, done, outcome⟩ | ⟨failure, _, outcome⟩
  · simp only [run, answering, outcome, Except.map, Except.isOk, Except.toBool, true_and]
    unfold Database.markWorkerWaking at done
    split at done
    · contradiction
    · split at done
      · contradiction
      · rename_i row found
        split at done
        · rename_i available
          cases done
          rw [if_neg (by simp [found, available])]
          exact explained
        · rename_i unavailable
          cases done
          rw [if_pos (by simpa [found] using unavailable)]
          intro next member flagged
          rcases @worker_of_modify watched.db _ _ _ _ rfl member with
            ⟨source, _, same, rfl⟩ | ⟨kept, different⟩
          · exact ⟨⟨now + seconds timeoutSeconds, none⟩, by simp [same], rfl, by simp⟩
          · obtain ⟨cycle, current, deadline, inTime⟩ := explained next kept flagged
            refine ⟨cycle, ?_, deadline, inTime⟩
            simp only [Function.update_of_ne different]
            exact current
  · simp only [run, answering, outcome, Except.map, Except.isOk, Except.toBool, Bool.false_eq_true,
      false_and, if_false]
    exact explained

theorem explained_power {watched : Watched} {workerId : Text} {started : Bool} {detail : Value}
    (explained : watched.Explained) :
    (watched.next env config ⟨now, .reportWorkerPower workerId started detail⟩).Explained := by
  have run : (Operation.reportWorkerPower workerId started detail).run env config now watched.db =
      answering (fun _ => .done) (Database.reportWorkerPower now workerId started detail)
        watched.db := rfl
  unfold Watched.next WakeCycles.next
  have others {next : WorkerRow} (kept : next ∈ watched.db.workers)
      (flagged : next.wokenByOhana = true) (different : next.workerId ≠ workerId) :
      ∃ cycle, Function.update watched.cycles workerId none next.workerId = some cycle ∧
        next.wakeDeadlineAt = some cycle.deadline ∧
        ∀ first ∈ cycle.firstContact, first ≤ cycle.deadline := by
    rw [Function.update_of_ne different]
    exact explained next kept flagged
  rcases commit_cases (Database.reportWorkerPower now workerId started detail) watched.db with
    ⟨answer, after, done, outcome⟩ | ⟨failure, refused, outcome⟩
  · simp only [run, answering, outcome]
    unfold Database.reportWorkerPower at done
    split at done
    · contradiction
    · cases done
      intro next member flagged
      rcases @worker_of_modify watched.db _ _ _ _ rfl member with
        ⟨source, _, _, rfl⟩ | ⟨kept, different⟩
      · contradiction
      · exact others kept flagged different
  · simp only [run, answering, outcome]
    intro next member flagged
    unfold Database.reportWorkerPower at refused
    split at refused
    · rename_i unknown
      exact others member flagged (Table.find?_eq_none_iff.mp unknown next member)
    · contradiction

/-- A call that is not late keeps the flags explained. -/
theorem explained_next {watched : Watched} {call : Call} (explained : watched.Explained)
    (punctual : ¬ Late env config watched call) : (watched.next env config call).Explained := by
  obtain ⟨now, operation⟩ := call
  by_cases registration : ∃ payload previous, operation = .registerWorker payload previous
  · obtain ⟨payload, previous, rfl⟩ := registration
    exact explained_registration explained punctual
  by_cases wake : ∃ workerId timeout trigger, operation = .markWorkerWaking workerId timeout trigger
  · obtain ⟨workerId, timeout, trigger, rfl⟩ := wake
    exact explained_wake explained
  by_cases power : ∃ workerId started detail, operation = .reportWorkerPower workerId started detail
  · obtain ⟨workerId, started, detail, rfl⟩ := power
    exact explained_power explained
  push Not at registration wake power
  have kept : Watched.Explained ⟨(operation.run env config now watched.db).2, watched.cycles⟩ :=
    explained.keeps (keepsWakes_run registration wake power)
  have cycles : watched.cycles.next env config watched.db ⟨now, operation⟩ =
      match operation.contact with
      | some workerId => watched.cycles.contact workerId now
      | none => watched.cycles := by
    cases operation <;> first | rfl | simp_all
  have silent : Call.registers env config watched.db ⟨now, operation⟩ = false := by
    cases operation <;> first | rfl | simp_all
  unfold Watched.next
  rw [cycles]
  cases contact : operation.contact with
  | none => exact kept
  | some workerId => exact kept.contact workerId (inTime_of_not_late punctual contact silent)

theorem explained_watch {calls : List Call} {watched : Watched} (explained : watched.Explained)
    (punctual : Punctual env config watched calls) :
    (watch env config calls watched).Explained := by
  induction calls generalizing watched with
  | nil => exact explained
  | cons call calls ih => exact ih (explained_next explained punctual.1) punctual.2

/-! ## Granted shutdowns -/

/-- A granted shutdown is of a flagged worker with nothing left to do. -/
theorem idleShutdown_granted {workerId : Text} (granted : (db.idleShutdown workerId now).1 = true) :
    (db.idleShutdown workerId now).2.Settled workerId ∧
      ∃ worker ∈ (db.idleShutdown workerId now).2.workers, worker.workerId = workerId ∧
        worker.wokenByOhana = true := by
  have workers := workers_idleShutdown workerId now db
  have jobs := (workersOnly_idleShutdown workerId now db).jobs
  unfold Database.Settled
  rw [workers, jobs]
  unfold Database.idleShutdown at granted
  split at granted
  · contradiction
  · rename_i worker found
    split at granted
    · rename_i woken
      split at granted
      · contradiction
      · rename_i idle
        obtain ⟨member, sameId⟩ := Table.find?_eq_some_iff.mp found
        refine ⟨⟨worker, found, fun job jobMem => ?_⟩, worker, member, sameId, woken⟩
        simp only [List.any_eq_true, not_exists, not_and, Bool.or_eq_true, Bool.and_eq_true,
          decide_eq_true_eq, Bool.not_eq_true', not_or] at idle
        obtain ⟨quiet, processed⟩ := idle job jobMem
        exact ⟨by simpa using processed, fun live => quiet live⟩
    · contradiction

theorem claim_shutdown {workerId : Text} {supportedTypes : List Text} {shutdown settle : Bool}
    {result : ClaimResult}
    (done : db.claim env config now workerId supportedTypes shutdown settle = .ok (result, after))
    (granted : result.shutdownRequested = true) :
    after.Settled workerId ∧ ∃ worker ∈ after.workers, worker.workerId = workerId ∧
      worker.wokenByOhana = true := by
  simp only [Database.claim, bind_eq_ok] at done
  obtain ⟨checked, valid, done⟩ := done
  have sameWorker : checked.workerId = workerId := workerId_of_validateClaim valid
  split at done
  · simp only [pure_eq_ok, Prod.mk.injEq] at done
    obtain ⟨rfl, _⟩ := done
    contradiction
  · rw [sameWorker] at done
    unfold Database.claimOldest at done
    dsimp only at done
    split at done
    · split at done
      · simp only [pure_eq_ok, Prod.mk.injEq] at done
        obtain ⟨rfl, rfl⟩ := done
        exact idleShutdown_granted granted
      · simp only [pure_eq_ok, Prod.mk.injEq] at done
        obtain ⟨rfl, _⟩ := done
        contradiction
    · simp only [bind_eq_ok, pure_eq_ok, Prod.mk.injEq] at done
      obtain ⟨_, _, _, _, rfl, _⟩ := done
      contradiction

/-- The cycle of the worker that claims has a contact after the claim. -/
theorem owned_of_explained {watched : Watched} {workerId : Text} {types : List Text}
    {shutdown settle : Bool} (explained : (watched.next env config
      ⟨now, .claim workerId types shutdown settle⟩).Explained) {worker : WorkerRow}
    (member : worker ∈
      (watched.next env config ⟨now, .claim workerId types shutdown settle⟩).db.workers)
    (sameId : worker.workerId = workerId) (woken : worker.wokenByOhana = true) :
    (watched.next env config ⟨now, .claim workerId types shutdown settle⟩).Owned workerId := by
  obtain ⟨cycle, found, _, inTime⟩ := explained worker member woken
  rw [sameId] at found
  have contacted : (watched.cycles workerId).map (WakeCycle.contacted now) = some cycle := by
    rw [← found]
    exact (Function.update_self workerId ((watched.cycles workerId).map (WakeCycle.contacted now))
      watched.cycles).symm
  obtain ⟨earlier, _, rfl⟩ := Option.map_eq_some_iff.mp contacted
  obtain ⟨first, answered⟩ : ∃ first, (earlier.contacted now).firstContact = some first := by
    unfold WakeCycle.contacted
    cases earlier.firstContact with
    | none => exact ⟨now, rfl⟩
    | some other => exact ⟨other, rfl⟩
  exact ⟨_, found, first, answered, inTime first answered⟩

/-- In a run without a late call, a claim is answered with a shutdown only in a
cycle that the worker answered in time, with nothing left to do. -/
theorem shutdown_in_cycle (env : Environment) (config : Config) (calls : List Call) (now : Int)
    (workerId : Text) (supportedTypes : List Text) (shutdownAfterCompletion : Bool)
    (result : ClaimResult)
    (punctual : Punctual env config Watched.start
      (calls ++ [⟨now, .claim workerId supportedTypes shutdownAfterCompletion true⟩]))
    (answered : ((Operation.claim workerId supportedTypes shutdownAfterCompletion true).run env
      config now (execute env config calls Database.empty)).1 = .ok (.claim result))
    (granted : result.shutdownRequested = true) :
    let watched := watch env config
      (calls ++ [⟨now, .claim workerId supportedTypes shutdownAfterCompletion true⟩]) Watched.start
    watched.Owned workerId ∧ watched.db.Settled workerId := by
  intro watched
  have explained : watched.Explained := explained_watch explained_start punctual
  have last : watched = (watch env config calls Watched.start).next env config
      ⟨now, .claim workerId supportedTypes shutdownAfterCompletion true⟩ := List.foldl_append
  have reached : (watch env config calls Watched.start).db =
      execute env config calls Database.empty := db_watch calls Watched.start
  rw [← reached] at answered
  rw [last] at explained ⊢
  rcases commit_cases (Database.claim env config now workerId supportedTypes
      shutdownAfterCompletion true) (watch env config calls Watched.start).db with
    ⟨answer, after, done, outcome⟩ | ⟨failure, _, outcome⟩
  · have same : answer = result := by
      simp only [Operation.run, answering, outcome, Except.map, Except.ok.injEq,
        Answer.claim.injEq] at answered
      exact answered
    subst same
    obtain ⟨settled, worker, member, sameId, woken⟩ := claim_shutdown done granted
    have written : ((watch env config calls Watched.start).next env config
        ⟨now, .claim workerId supportedTypes shutdownAfterCompletion true⟩).db = after := by
      simp only [Watched.next, Operation.run, answering, outcome]
    rw [← written] at member settled
    exact ⟨owned_of_explained explained member sameId woken, settled⟩
  · simp only [Operation.run, answering, outcome, Except.map, reduceCtorEq] at answered

/-! ## A computer that its user started -/

/-- A worker registers, and it is woken 200 seconds later with a minute to
answer. -/
def wokenOnce : List Call :=
  [secondsIn 0 (.registerWorker (announcement oldName) none),
    secondsIn 200 (.markWorkerWaking oldName 60 "manual".toList)]

/-- The worker asks for a job. -/
def pollAt (n : Nat) : Call :=
  secondsIn n (.claim oldName ["system.health".toList] true true)

/-- The first contact is a claim after the deadline, and it is answered with a
shutdown. -/
theorem late_claim_granted :
    ¬ ∀ (env : Environment) (config : Config) (calls : List Call) (now : Int) (workerId : Text)
      (supportedTypes : List Text) (shutdownAfterCompletion : Bool) (result : ClaimResult),
      ((Operation.claim workerId supportedTypes shutdownAfterCompletion true).run env config now
        (execute env config calls Database.empty)).1 = .ok (.claim result) →
      result.shutdownRequested = true →
      (watch env config
        (calls ++ [⟨now, .claim workerId supportedTypes shutdownAfterCompletion true⟩])
        Watched.start).Owned workerId := by
  intro owned
  have answered : ((pollAt 300).operation.run winterEnvironment Config.default (pollAt 300).now
      (execute winterEnvironment Config.default wokenOnce Database.empty)).1 =
        .ok (.claim ⟨none, true⟩) := rfl
  obtain ⟨cycle, found, first, contacted, inTime⟩ := owned _ _ _ _ _ _ _ _ answered rfl
  have cycles : (watch winterEnvironment Config.default (wokenOnce ++ [pollAt 300])
      Watched.start).cycles oldName =
        some ⟨healthTime + 260 * second, some (healthTime + 300 * second)⟩ := rfl
  obtain rfl := Option.some.inj (cycles.symm.trans found)
  obtain rfl := Option.some.inj contacted
  exact absurd inTime (by decide)

/-- A claim ten seconds after the wake is answered with a shutdown. -/
theorem early_claim_granted :
    let watched := watch winterEnvironment Config.default (wokenOnce ++ [pollAt 210]) Watched.start
    watched.Owned oldName ∧ watched.db.Settled oldName :=
  shutdown_in_cycle winterEnvironment Config.default wokenOnce _ oldName _ true ⟨none, true⟩
    (by decide) rfl rfl

end OhanaAgent.Jobs
