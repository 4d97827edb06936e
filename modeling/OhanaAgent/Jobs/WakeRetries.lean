import OhanaAgent.Jobs.WakeStatistics

/-!
# Retries of unanswered wakes

A dispatch settles the wakes whose wait ran out, asks for a worker that stayed
silent and sends it another wake.  Other callers read and write the repository
between its transactions.  Beside the database stands every event that was ever
recorded, and the workers that dispatches are about to wake.
-/

namespace OhanaAgent.Jobs

open OhanaAgent.Encoding.Json
open OhanaAgent.Store
open OhanaAgent.Time
open OhanaAgent.Transition

/-! ## The dispatcher -/

/-- The settings of the retries. -/
structure RetryPolicy where
  retryDelaySeconds : Int
  maxAttempts : Nat

/-- The test of `unanswered_wake_retry` for one worker. -/
def Database.retries (config : Config) (policy : RetryPolicy) (now : Int) (db : Database)
    (row : WorkerRow) : Bool :=
  match db.lastPowerEvent row.workerId with
  | none => false
  | some last =>
      last.kind = .wakeTimeout && last.occurredAt + policy.retryDelaySeconds * second ≤ now &&
        db.unansweredWakes row.workerId < policy.maxAttempts && db.pendingJobs row ≠ [] &&
        row.availability config now = .unavailable

/-- The worker that `unanswered_wake_retry` finds, after its settlement. -/
def Database.silentWorker (config : Config) (policy : RetryPolicy) (now : Int) (db : Database) :
    Option WorkerRow :=
  db.workers.rows.find? (db.retries config policy now)

/-- `unanswered_wake_retry`: a settlement, then the search, each in its own
transaction. -/
def Database.unansweredWakeRetry (config : Config) (policy : RetryPolicy) (settled now : Int)
    (db : Database) : Option WorkerRow × Database :=
  let db := db.settleUnansweredWakes config settled policy.maxAttempts
  (db.silentWorker config policy now, db)

/-- The database, every event that was ever recorded for a worker, and the workers
that dispatches were answered with and have not woken yet. -/
structure WakeService where
  db : Database
  history : Text → List PowerEvent
  asked : List Text

def WakeService.start : WakeService where
  db := .empty
  history := fun _ => []
  asked := []

/-- What happens between two transactions of the repository: a call, a wake that
is not a retry, or a step of a dispatch, which sends its wake, notes that it could
not, or knows no address. -/
inductive WakeAction where
  | call (made : Call)
  | wake (now : Int) (workerId trigger : Text) (timeoutSeconds : Nat)
  | ask (now : Int)
  | send (now : Int) (workerId : Text) (timeoutSeconds : Nat)
  | fail (now : Int) (workerId error : Text)
  | skip (workerId : Text)

/-- The call of an action. -/
def WakeAction.made : WakeAction → Option Call
  | .call made => some made
  | .wake now workerId trigger timeoutSeconds =>
      some ⟨now, .markWorkerWaking workerId timeoutSeconds trigger⟩
  | .send now workerId timeoutSeconds =>
      some ⟨now, .markWorkerWaking workerId timeoutSeconds "retry".toList⟩
  | .fail now workerId error => some ⟨now, .recordWakeFailure workerId error "retry".toList⟩
  | .ask _ | .skip _ => none

def WakeAction.run (env : Environment) (config : Config) (db : Database) (action : WakeAction) :
    Database :=
  match action.made with
  | some made => (made.operation.run env config made.now db).2
  | none => db

/-- The workers that are still to be woken. -/
def WakeAction.pending (config : Config) (policy : RetryPolicy) (service : WakeService) :
    WakeAction → List Text
  | .ask now =>
      match service.db.silentWorker config policy now with
      | some row => row.workerId :: service.asked
      | none => service.asked
  | .send _ workerId _ | .fail _ workerId _ | .skip workerId => service.asked.erase workerId
  | _ => service.asked

/-- The events of a worker that were recorded between two databases. -/
def Database.recordedSince (before after : Database) (workerId : Text) : List PowerEvent :=
  (after.journal workerId).filter fun event => before.nextPowerEvent ≤ event.eventId

def WakeService.next (env : Environment) (config : Config) (policy : RetryPolicy)
    (service : WakeService) (action : WakeAction) : WakeService where
  db := action.run env config service.db
  history := fun workerId => service.history workerId ++
    service.db.recordedSince (action.run env config service.db) workerId
  asked := action.pending config policy service

/-- A dispatch settles and asks: two transactions, between which others may come. -/
theorem WakeService.next_unansweredWakeRetry (env : Environment) (config : Config)
    (policy : RetryPolicy) (settled now : Int) (service : WakeService) :
    let settlement : Call := ⟨settled, .settleUnansweredWakes policy.maxAttempts⟩
    let answer := service.db.unansweredWakeRetry config policy settled now
    let after := (service.next env config policy (.call settlement)).next env config policy (.ask now)
    after.db = answer.2 ∧ after.asked = answer.1.toList.map WorkerRow.workerId ++ service.asked := by
  intro settlement answer after
  refine ⟨rfl, ?_⟩
  change WakeAction.pending config policy _ (.ask now) = _
  unfold WakeAction.pending
  change (match answer.2.silentWorker config policy now with
    | some row => row.workerId :: service.asked
    | none => service.asked) = (answer.2.silentWorker config policy now).toList.map _ ++ _
  cases answer.2.silentWorker config policy now with
  | none => rfl
  | some row => rfl

/-- The events of a worker since it was last online or given up, newest first. -/
def recent (events : List PowerEvent) : List PowerEvent :=
  events.reverse.takeWhile fun event =>
    event.kind ≠ .workerOnline && event.kind ≠ .wakeAbandoned

/-- The wakes and the timeouts among them. -/
def recentWakes (events : List PowerEvent) : Nat :=
  (recent events).countP fun event => event.kind = .wakeSent

def recentTimeouts (events : List PowerEvent) : Nat :=
  (recent events).countP fun event => event.kind = .wakeTimeout

/-- A wake is sent by a dispatch to the worker it was answered with, or it is the
first one since the worker was online or given up. -/
def WakeAction.Allowed (service : WakeService) : WakeAction → Prop
  | .call made => ∀ workerId timeoutSeconds trigger,
      made.operation ≠ .markWorkerWaking workerId timeoutSeconds trigger
  | .wake _ workerId _ _ => recentWakes (service.history workerId) = 0
  | .send _ workerId _ | .fail _ workerId _ | .skip workerId => workerId ∈ service.asked
  | .ask _ => True

/-- The call is orderly: settlements have the limit of the dispatcher, and for a
worker whose wake waits nothing is called that records another event than its end,
or renames it. -/
def Operation.Orderly (maxAttempts : Nat) (history : Text → List PowerEvent) : Operation → Prop
  | .settleUnansweredWakes limit => limit = maxAttempts
  | .recordWakeFailure workerId _ _ | .reportWorkerPower workerId _ _ =>
      endsInWake (history workerId) = false
  | .claim workerId _ shutdownAfterCompletion settle =>
      endsInWake (history workerId) = true → (shutdownAfterCompletion && settle) = false
  | .registerWorker _ (some previous) => endsInWake (history previous) = false
  | .markWorkerWaking workerId _ _ =>
      endsInWake (history workerId) = false ∧ recentTimeouts (history workerId) < maxAttempts
  | _ => True

/-- The calls are orderly, a dispatch does not overlap another one, and no worker
is woken beside the dispatch that is about to. -/
def WakeAction.Orderly (policy : RetryPolicy) (service : WakeService) : WakeAction → Prop
  | .call made => made.operation.Orderly policy.maxAttempts service.history
  | .wake _ workerId _ _ => workerId ∉ service.asked
  | .ask _ => service.asked = []
  | _ => True

/-- A step that meets the condition, while the journal has room for every event
since its worker was online or given up. -/
structure CalmStep (env : Environment) (config : Config) (policy : RetryPolicy)
    (service : WakeService) (action : WakeAction) (next : WakeService) : Prop where
  allowed : action.Allowed service
  orderly : action.Orderly policy service
  room : ∀ workerId, (recent (service.history workerId)).length + 2 ≤ powerEventRetention
  step : service.next env config policy action = next

/-! ## Orderly journals -/

/-- A journal in which every wake ends with its timeout or the worker coming
online, a wake is sent only after less timeouts than the limit, and the worker is
given up after exactly as many. -/
inductive Series (maxAttempts : Nat) : List PowerEvent → Prop
  | nil : Series maxAttempts []
  | snoc {events : List PowerEvent} {event : PowerEvent} (earlier : Series maxAttempts events)
      (fits : Fits events.getLast? event)
      (ends : endsInWake events = true → event.kind = .wakeTimeout ∨ event.kind = .workerOnline)
      (limited : event.kind = .wakeSent → recentTimeouts events < maxAttempts)
      (last : event.kind = .wakeAbandoned → recentTimeouts events = maxAttempts) :
      Series maxAttempts (events ++ [event])

variable {maxAttempts : Nat} {events : List PowerEvent} {event : PowerEvent}

theorem recent_concat : recent (events ++ [event]) =
    if event.kind = .workerOnline ∨ event.kind = .wakeAbandoned then []
    else event :: recent events := by
  unfold recent
  rw [List.reverse_append, List.reverse_singleton, List.singleton_append, List.takeWhile_cons]
  by_cases online : event.kind = .workerOnline
  · simp [online]
  · by_cases abandoned : event.kind = .wakeAbandoned <;> simp [online, abandoned]

theorem recentWakes_concat : recentWakes (events ++ [event]) =
    if event.kind = .workerOnline ∨ event.kind = .wakeAbandoned then 0
    else recentWakes events + if event.kind = .wakeSent then 1 else 0 := by
  unfold recentWakes
  rw [recent_concat]
  split
  · rfl
  · simp [List.countP_cons]

theorem recentTimeouts_concat : recentTimeouts (events ++ [event]) =
    if event.kind = .workerOnline ∨ event.kind = .wakeAbandoned then 0
    else recentTimeouts events + if event.kind = .wakeTimeout then 1 else 0 := by
  unfold recentTimeouts
  rw [recent_concat]
  split
  · rfl
  · simp [List.countP_cons]

namespace Series

/-- Every recent wake but the one that waits timed out. -/
theorem balanced (series : Series maxAttempts events) :
    recentWakes events = recentTimeouts events + if endsInWake events then 1 else 0 := by
  induction series with
  | nil => rfl
  | @snoc events event earlier fits ends limited last inductionHypothesis =>
      rw [recentWakes_concat, recentTimeouts_concat, endsInWake_concat]
      by_cases waiting : endsInWake events = true
      · rw [if_pos waiting] at inductionHypothesis
        rcases ends waiting with ended | online
        · simp [ended, inductionHypothesis]
        · simp [online]
      · rw [if_neg waiting] at inductionHypothesis
        cases kind : event.kind with
        | wakeTimeout =>
            simp only [Fits, kind] at fits
            exact absurd (endsInWake_iff.mpr fits) waiting
        | _ => simp [inductionHypothesis]

/-- At most the limit of wakes are recent. -/
theorem wakes_le (series : Series maxAttempts events) : recentWakes events ≤ maxAttempts := by
  induction series with
  | nil => exact Nat.zero_le _
  | @snoc events event earlier fits ends limited last inductionHypothesis =>
      have balanced := earlier.balanced
      rw [recentWakes_concat]
      split
      · exact Nat.zero_le _
      · split
        · rename_i sent
          have fewer := limited sent
          have quiet : ¬ endsInWake events = true := by
            intro waiting
            rcases ends waiting with ended | online <;> simp_all
          rw [if_neg quiet] at balanced
          omega
        · omega

theorem of_append {later : List PowerEvent} (series : Series maxAttempts (events ++ later)) :
    Series maxAttempts events := by
  induction later using List.reverseRecOn with
  | nil => rwa [List.append_nil] at series
  | append_singleton later event inductionHypothesis =>
      rw [← List.append_assoc] at series
      generalize same : events ++ later ++ [event] = whole at series
      cases series with
      | nil => simp at same
      | snoc earlier _ _ _ _ =>
          exact inductionHypothesis ((List.append_inj' same rfl).1 ▸ earlier)

/-- What the events before it say of an event: a timeout comes directly after its
wake, a wake ends with its timeout or the worker online, and the worker is given
up directly after the last timeout. -/
theorem everywhere (series : Series maxAttempts events) : Everywhere (fun before event =>
    (event.kind = .wakeTimeout → endsInWake before = true) ∧
    (endsInWake before = true → event.kind = .wakeTimeout ∨ event.kind = .workerOnline) ∧
    (event.kind = .wakeAbandoned → recentTimeouts before = maxAttempts ∧
      ∃ last ∈ before.getLast?, last.kind = .wakeTimeout)) events := by
  induction series with
  | nil => exact everywhere_nil _
  | snoc earlier fits ends limited last inductionHypothesis =>
      rw [everywhere_concat]
      refine ⟨inductionHypothesis, ?_, ends, ?_⟩
      · intro ended
        simp only [Fits, ended] at fits
        exact endsInWake_iff.mpr fits
      · intro abandoned
        simp only [Fits, abandoned] at fits
        exact ⟨last abandoned, fits⟩

end Series

/-- Events that each fit the one before them, after a journal. -/
inductive Follows : List PowerEvent → List PowerEvent → Prop
  | nil (history : List PowerEvent) : Follows history []
  | cons {history events : List PowerEvent} {event : PowerEvent}
      (fits : Fits history.getLast? event) (rest : Follows (history ++ [event]) events) :
      Follows history (event :: events)

theorem endsInWake_of_kind {history : List PowerEvent} (other : event.kind ≠ .wakeSent) :
    endsInWake (history ++ [event]) = false := by
  rw [endsInWake_concat]
  exact decide_eq_false other

namespace Follows

variable {history : List PowerEvent}

/-- Without a new wake no wake waits that did not wait before. -/
theorem waited (follows : Follows history events) (kinds : ∀ event ∈ events, event.kind ≠ .wakeSent)
    (waiting : endsInWake (history ++ events) = true) : events = [] ∧ endsInWake history = true := by
  rcases List.eq_nil_or_concat events with rfl | ⟨init, last, rfl⟩
  · rw [List.append_nil] at waiting
    exact ⟨rfl, waiting⟩
  · rw [List.concat_eq_append, ← List.append_assoc, endsInWake_of_kind] at waiting
    · contradiction
    · exact kinds last (by simp)

/-- Without a wake nothing times out. -/
theorem silent (follows : Follows history events) (kinds : ∀ event ∈ events, event.kind ≠ .wakeSent)
    (quiet : endsInWake history = false) :
    endsInWake (history ++ events) = false ∧
      recentTimeouts (history ++ events) ≤ recentTimeouts history := by
  induction follows with
  | nil history => simp [quiet]
  | @cons history events event fits rest inductionHypothesis =>
      rw [List.forall_mem_cons] at kinds
      have untimed : event.kind ≠ .wakeTimeout := by
        intro ended
        simp only [Fits, ended] at fits
        rw [endsInWake_iff.mpr fits] at quiet
        contradiction
      have fewer : recentTimeouts (history ++ [event]) ≤ recentTimeouts history := by
        rw [recentTimeouts_concat]
        split
        · exact Nat.zero_le _
        · exact Nat.le_refl _
      rcases inductionHypothesis kinds.2 (endsInWake_of_kind kinds.1) with ⟨ends, timeouts⟩
      rw [List.append_assoc, List.singleton_append] at ends timeouts
      exact ⟨ends, timeouts.trans fewer⟩

/-- Events that neither wake a worker nor give it up, and end a wake that waits. -/
theorem series (follows : Follows history events) (earlier : Series maxAttempts history)
    (kinds : ∀ event ∈ events, event.kind ≠ .wakeSent ∧ event.kind ≠ .wakeAbandoned)
    (calm : endsInWake history = true → ∀ event ∈ events,
      event.kind = .wakeTimeout ∨ event.kind = .workerOnline) :
    Series maxAttempts (history ++ events) := by
  induction follows with
  | nil history => rwa [List.append_nil]
  | @cons history events event fits rest inductionHypothesis =>
      rw [List.forall_mem_cons] at kinds
      have next : Series maxAttempts (history ++ [event]) := by
        apply Series.snoc earlier fits
        · exact fun waiting => calm waiting event List.mem_cons_self
        · exact fun sent => absurd sent kinds.1.1
        · exact fun abandoned => absurd abandoned kinds.1.2
      have whole := inductionHypothesis next kinds.2 (by
        intro waiting
        rw [endsInWake_of_kind kinds.1.1] at waiting
        contradiction)
      rwa [List.append_assoc, List.singleton_append] at whole

end Follows

/-! ## The journal and the history -/

variable {env : Environment} {config : Config} {policy : RetryPolicy} {now : Int}
  {db after : Database} {history : Text → List PowerEvent} {workerId : Text}

theorem getLast?_lastOf {α : Type} {n : Nat} (positive : 0 < n) (elements : List α) :
    (lastOf n elements).getLast? = elements.getLast? := by
  rcases List.eq_nil_or_concat elements with rfl | ⟨init, last, rfl⟩
  · rw [lastOf_of_le (Nat.zero_le n)]
  · unfold lastOf
    rw [List.concat_eq_append, List.drop_append_of_le_length (by simp; omega),
      List.getLast?_concat, List.getLast?_concat]

/-- The journal keeps every recent event when there is room. -/
theorem recent_lastOf {n : Nat} (room : (recent events).length ≤ n) :
    recent (lastOf n events) = recent events := by
  unfold recent lastOf at *
  rw [← List.take_reverse, ← List.take_takeWhile, List.take_of_length_le room]

theorem unansweredWakes_eq (journal : db.journal workerId = lastOf powerEventRetention events)
    (room : (recent events).length ≤ powerEventRetention) :
    db.unansweredWakes workerId = recentTimeouts events := by
  have same : recent (db.journal workerId) = recent events := by
    rw [journal, recent_lastOf room]
  unfold recentTimeouts
  rw [← same, List.countP_eq_length_filter]
  rfl

theorem lastPowerEvent_eq (journal : db.journal workerId = lastOf powerEventRetention events) :
    db.lastPowerEvent workerId = events.getLast? := by
  unfold Database.lastPowerEvent
  rw [journal, getLast?_lastOf (by decide)]

/-- The events of a growth are appended to the history of their worker. -/
theorem Grows.follows {history : List PowerEvent} (grows : Grows db events after)
    (ordered : PowerOrdered db)
    (journal : db.journal workerId = lastOf powerEventRetention history) :
    Follows history (ofWorker workerId events) ∧
      after.journal workerId = lastOf powerEventRetention (history ++ ofWorker workerId events) := by
  induction grows generalizing history with
  | nil same =>
      constructor
      · exact .nil history
      · rw [same.journal, journal, ofWorker, List.filter_nil, List.append_nil]
  | @cons before middle after event events fits noted rest inductionHypothesis =>
      have orderedNext : PowerOrdered middle := (ordered.powerEvent _ _ _ _).same noted.same
      by_cases own : event.workerId = workerId
      · subst own
        have appended : middle.journal event.workerId =
            lastOf powerEventRetention (history ++ [event]) := by
          rw [noted.journal ordered, journal, lastOf_append]
        rw [lastPowerEvent_eq journal] at fits
        rcases inductionHypothesis orderedNext appended with ⟨follows, written⟩
        rw [List.append_assoc, List.singleton_append] at written
        have here : ofWorker event.workerId (event :: events) =
            event :: ofWorker event.workerId events :=
          List.filter_cons_of_pos (decide_eq_true rfl)
        rw [here]
        exact ⟨.cons fits follows, written⟩
      · have here : ofWorker workerId (event :: events) = ofWorker workerId events :=
          List.filter_cons_of_neg (by simpa using own)
        rw [here]
        apply inductionHypothesis orderedNext
        rw [noted.journal_of_ne (Ne.symm own), journal]

theorem Grows.fresh (grows : Grows db events after) :
    ∀ event ∈ events, db.nextPowerEvent ≤ event.eventId := by
  induction grows with
  | nil same => exact fun event member => absurd member List.not_mem_nil
  | @cons before middle after event events fits noted rest inductionHypothesis =>
      rw [List.forall_mem_cons]
      constructor
      · rw [noted.eventId]
      · intro other member
        have later := inductionHypothesis other member
        rw [noted.same.nextPowerEvent] at later
        exact Nat.le_of_succ_le later

/-- What was recorded of a worker can be read from its journal. -/
theorem Grows.recordedSince {history : List PowerEvent} (grows : Grows db events after)
    (ordered : PowerOrdered db)
    (journal : db.journal workerId = lastOf powerEventRetention history)
    (few : (ofWorker workerId events).length ≤ powerEventRetention) :
    db.recordedSince after workerId = ofWorker workerId events := by
  have written := (grows.follows ordered journal).2
  have split : after.journal workerId =
      lastOf (powerEventRetention - (ofWorker workerId events).length) history ++
        ofWorker workerId events := by
    rw [written]
    unfold lastOf
    have dropped : (history ++ ofWorker workerId events).length - powerEventRetention =
        history.length - (powerEventRetention - (ofWorker workerId events).length) := by
      rw [List.length_append]
      omega
    rw [dropped, List.drop_append_of_le_length (Nat.sub_le _ _)]
  unfold Database.recordedSince
  rw [split, List.filter_append, List.filter_eq_nil_iff.mpr, List.nil_append, List.filter_eq_self]
  · intro event member
    exact decide_eq_true (grows.fresh event (mem_ofWorker.mp member).1)
  · intro event member
    have kept : event ∈ db.journal workerId := by
      rw [journal]
      exact (List.drop_subset_drop_left history (by omega)) member
    have below := ordered.below event (List.mem_filter.mp kept).1
    simpa using below

/-! ## What the calls keep -/

theorem markWorkerWaking_workers {trigger : Text} {timeoutSeconds : Nat} {row : Option WorkerRow}
    (done : db.markWorkerWaking config now workerId timeoutSeconds trigger = .ok (row, after)) :
    after = db ∨ ∃ (woken : WorkerRow) (f : WorkerRow → WorkerRow)
      (keeps : ∀ row, (f row).workerId = row.workerId), db.workers.find? workerId = some woken ∧
        after.workers = db.workers.modify workerId f keeps ∧
        ∀ row, (f row).wakeRequestedAt.isSome = true ∧ (f row).wakeDeadlineAt.isSome = true := by
  unfold Database.markWorkerWaking at done
  split at done
  · contradiction
  · split at done
    · contradiction
    · rename_i woken found
      split at done <;> cases done
      · exact Or.inl rfl
      · refine Or.inr ⟨woken, fun row => { row with
          wokenByOhana := true
          wakeRequestedAt := some now
          wakeDeadlineAt := some (now + seconds timeoutSeconds) }, fun _ => rfl, found, rfl, ?_⟩
        exact fun _ => ⟨rfl, rfl⟩

/-- The worker is there, with the request and the deadline of its wake. -/
def Database.Waits (db : Database) (workerId : Text) : Prop :=
  ∃ row, db.workers.find? workerId = some row ∧
    row.wakeRequestedAt.isSome = true ∧ row.wakeDeadlineAt.isSome = true

namespace Database.Waits

theorem same (waits : db.Waits workerId) (same : SameWakes db after) : after.Waits workerId := by
  rcases waits with ⟨row, found, requested, deadline⟩
  rcases Table.find?_eq_some_iff.mp found with ⟨member, own⟩
  rcases same.target member with ⟨next, nextMem, wake⟩
  simp only [WorkerRow.wake, Prod.mk.injEq] at wake
  refine ⟨next, Table.find?_eq_some_iff.mpr ⟨nextMem, wake.1.trans own⟩, ?_, ?_⟩
  · rw [wake.2.2.1, requested]
  · rw [wake.2.2.2, deadline]

theorem of_find? (waits : db.Waits workerId)
    (same : after.workers.find? workerId = db.workers.find? workerId) : after.Waits workerId := by
  unfold Database.Waits
  rwa [same]

/-- A wake leaves the other workers, and gives its worker a deadline. -/
theorem markWorkerWaking {other trigger : Text} {timeoutSeconds : Nat} {row : Option WorkerRow}
    (done : db.markWorkerWaking config now other timeoutSeconds trigger = .ok (row, after)) :
    after = db ∨ (∀ workerId, db.Waits workerId → after.Waits workerId) ∧ after.Waits other := by
  rcases markWorkerWaking_workers done with same | ⟨woken, f, keeps, found, workers, wakes⟩
  · exact Or.inl same
  · have own : after.Waits other := by
      refine ⟨f woken, ?_, wakes woken⟩
      rw [workers, Table.find?_modify_self, found, Option.map_some]
    refine Or.inr ⟨?_, own⟩
    intro workerId waits
    by_cases same : workerId = other
    · exact same ▸ own
    · apply waits.of_find?
      rw [workers, Table.find?_modify_of_ne same]

theorem reportWorkerPower {other : Text} {started : Bool} {detail : Value} {done : Unit}
    (reported : db.reportWorkerPower now other started detail = .ok (done, after))
    (different : workerId ≠ other) (waits : db.Waits workerId) : after.Waits workerId := by
  unfold Database.reportWorkerPower at reported
  split at reported
  · contradiction
  · cases reported
    apply waits.of_find?
    rw [Table.find?_modify_of_ne different]
    rfl

theorem migrateIfRenamed {previous : Option Text} {other : Text}
    (done : db.migrateIfRenamed previous other = .ok after) (waits : db.Waits workerId)
    (kept : ∀ name ∈ previous, name ≠ workerId) : after.Waits workerId ∧
      (workerId = other → after = db) := by
  unfold Database.migrateIfRenamed at done
  split at done
  · cases done
    exact ⟨waits, fun _ => rfl⟩
  · rename_i previous
    split at done
    · rename_i renames
      rcases migrateWorkerIdentity_eq_ok done with ⟨⟨_, _, unknown⟩, _⟩
      have free : workerId ≠ other := by
        intro same
        rcases waits with ⟨row, found, _⟩
        rw [same, unknown] at found
        contradiction
      refine ⟨waits.of_find? ?_, fun same => absurd same free⟩
      have found := Table.find?_rekeyed (fun row : WorkerRow => { row with workerId := other })
        (fun _ => rfl) unknown renames.2 (migrateWorkerIdentity_rows done).1 workerId
      rwa [if_neg free, if_neg (Ne.symm (kept previous rfl))] at found
    · cases done
      exact ⟨waits, fun _ => rfl⟩

/-- A registration leaves the other workers, and answers a wake that waits. -/
theorem registerWorker {registration : Registration} {previous : Option Text} {row : WorkerRow}
    (done : db.registerWorker now registration previous = .ok (row, after))
    (ordered : PowerOrdered db) (waits : db.Waits workerId)
    (kept : ∀ name ∈ previous, name ≠ workerId)
    (sent : ∃ last ∈ db.lastPowerEvent workerId, last.kind = .wakeSent) :
    after.Waits workerId ∨ ∃ last ∈ after.lastPowerEvent workerId, last.kind = .workerOnline := by
  simp only [Database.registerWorker, bind_eq_ok] at done
  rcases done with ⟨migrated, migration, written, upserted, done⟩
  rcases waits.migrateIfRenamed migration kept with ⟨moved, unmoved⟩
  rcases upsertWorker_eq_ok upserted with ⟨_, others, _⟩
  by_cases own : workerId = registration.workerId
  · rw [unmoved own] at done upserted
    rcases waits with ⟨existing, found, requested, _⟩
    rcases Option.isSome_iff_exists.mp requested with ⟨instant, requestedAt⟩
    rw [own] at found sent
    simp only [found, Option.bind_some, requestedAt, pure_eq_ok, Prod.mk.injEq] at done
    rcases done with ⟨_, rfl⟩
    have silent := samePower_upsertWorker upserted
    rcases sent with ⟨last, foundLast, isSent⟩
    rw [← silent.lastPowerEvent, Option.mem_def] at foundLast
    rw [own]
    refine Or.inr ?_
    unfold Database.recordWorkerOnline
    rw [foundLast]
    dsimp only
    rw [if_pos (Or.inl isSent)]
    exact ⟨_, (ordered.same silent).lastPowerEvent_powerEvent _ _ _ _, rfl⟩
  · refine Or.inl (moved.of_find? ?_)
    rw [← others workerId own]
    split at done
    · simp only [pure_eq_ok, Prod.mk.injEq] at done
      rw [← done.2]
    · simp only [pure_eq_ok, Prod.mk.injEq] at done
      rw [← done.2]
      unfold Database.recordWorkerOnline
      split
      · rfl
      · dsimp only
        split <;> rfl

end Database.Waits

/-! ## What a call records -/

/-- The journals keep the last events of orderly histories, and a wake that waits
has its deadline. -/
structure Synced (maxAttempts : Nat) (history : Text → List PowerEvent) (db : Database) : Prop
    extends PowerOrdered db where
  journal : ∀ workerId, db.journal workerId = lastOf powerEventRetention (history workerId)
  series : ∀ workerId, Series maxAttempts (history workerId)
  waiting : ∀ workerId, endsInWake (history workerId) = true → db.Waits workerId
  room : ∀ workerId, (recent (history workerId)).length ≤ powerEventRetention

/-- A call records at most two events of a worker, and the histories stay
orderly. -/
structure CallEvents (maxAttempts : Nat) (history : Text → List PowerEvent) (operation : Operation)
    (db : Database) (events : List PowerEvent) (after : Database) : Prop where
  grows : Grows db events after
  few : ∀ workerId, (ofWorker workerId events).length ≤ 2
  series : ∀ workerId, Series maxAttempts (history workerId ++ ofWorker workerId events)
  waiting : ∀ workerId, endsInWake (history workerId ++ ofWorker workerId events) = true →
    after.Waits workerId
  wakes : ∀ event ∈ events, event.kind = .wakeSent → ∃ timeoutSeconds trigger,
    operation = .markWorkerWaking event.workerId timeoutSeconds trigger

section Calls

variable {operation : Operation}

theorem length_ofWorker_le (workerId : Text) (events : List PowerEvent) :
    (ofWorker workerId events).length ≤ events.length :=
  List.length_filter_le ..

/-- A call that neither wakes nor settles records no wake, gives no worker up and
only ends a wake that waits. -/
theorem Operation.Records.calm (records : operation.Records event)
    (wake : ∀ workerId timeoutSeconds trigger,
      operation ≠ .markWorkerWaking workerId timeoutSeconds trigger)
    (settles : ∀ limit, operation ≠ .settleUnansweredWakes limit)
    (orderly : operation.Orderly maxAttempts history) :
    (event.kind ≠ .wakeSent ∧ event.kind ≠ .wakeAbandoned) ∧
      (endsInWake (history event.workerId) = true → event.kind = .workerOnline) := by
  cases operation with
  | claim workerId supportedTypes shutdownAfterCompletion settle =>
      rcases records with ⟨own, granted, asked, answered⟩
      refine ⟨by simp [granted], ?_⟩
      intro waiting
      rw [own] at waiting
      have refused := orderly waiting
      rw [asked, answered] at refused
      contradiction
  | registerWorker payload previous =>
      rcases records with ⟨_, online⟩
      exact ⟨by simp [online], fun _ => online⟩
  | reportWorkerPower workerId started detail =>
      rcases records with ⟨own, reported⟩
      refine ⟨by rcases reported with kind | kind <;> simp [kind], ?_⟩
      intro waiting
      rw [own, show endsInWake (history workerId) = false from orderly] at waiting
      contradiction
  | recordWakeFailure workerId error trigger =>
      rcases records with ⟨own, failed⟩
      refine ⟨by simp [failed], ?_⟩
      intro waiting
      rw [own, show endsInWake (history workerId) = false from orderly] at waiting
      contradiction
  | markWorkerWaking workerId timeoutSeconds trigger => exact absurd rfl (wake _ _ _)
  | settleUnansweredWakes limit => exact absurd rfl (settles limit)
  | _ => exact False.elim records

theorem Synced.sent (synced : Synced maxAttempts history db)
    (waiting : endsInWake (history workerId) = true) :
    ∃ last ∈ db.lastPowerEvent workerId, last.kind = .wakeSent := by
  rw [lastPowerEvent_eq (synced.journal workerId)]
  exact endsInWake_iff.mp waiting

/-- A worker whose wake waits is kept by a call that records nothing for it. -/
theorem Synced.waits (synced : Synced maxAttempts history db)
    (wake : ∀ workerId timeoutSeconds trigger,
      operation ≠ .markWorkerWaking workerId timeoutSeconds trigger)
    (orderly : operation.Orderly maxAttempts history)
    (grows : Grows db events (operation.run env config now db).2)
    (waiting : endsInWake (history workerId) = true) (silent : ofWorker workerId events = []) :
    (operation.run env config now db).2.Waits workerId := by
  have waits := synced.waiting workerId waiting
  have sent := synced.sent waiting
  have journal : (operation.run env config now db).2.journal workerId = db.journal workerId := by
    rw [(grows.follows synced.toPowerOrdered (synced.journal workerId)).2, silent, List.append_nil,
      synced.journal]
  have last := congrArg List.getLast? journal
  by_cases registration : ∃ payload previous, operation = .registerWorker payload previous
  · rcases registration with ⟨payload, previous, rfl⟩
    revert last
    apply answering_induction (motive := fun after =>
      after.lastPowerEvent workerId = db.lastPowerEvent workerId → after.Waits workerId)
    · exact fun _ => waits
    · intro answer next done same
      rcases bind_eq_ok.mp done with ⟨registration, _, registered⟩
      have kept : ∀ name ∈ previous, name ≠ workerId := by
        intro name named equal
        rw [Option.mem_def] at named
        subst named equal
        rw [show endsInWake (history name) = false from orderly] at waiting
        contradiction
      rcases waits.registerWorker registered synced.toPowerOrdered kept sent with
        kept | ⟨answer, found, online⟩
      · exact kept
      · rcases sent with ⟨last, foundLast, isSent⟩
        rw [same, Option.mem_def.mp foundLast, Option.mem_some_iff] at found
        rw [← found, isSent] at online
        contradiction
  · by_cases report : ∃ other started detail, operation = .reportWorkerPower other started detail
    · rcases report with ⟨other, started, detail, rfl⟩
      apply answering_induction (motive := fun after => after.Waits workerId) waits
      intro answer next done
      apply waits.reportWorkerPower done
      intro same
      rw [same, show endsInWake (history other) = false from orderly] at waiting
      contradiction
    · apply waits.same
      apply sameWakes_run
      · exact fun payload previous same => registration ⟨payload, previous, same⟩
      · exact wake
      · exact fun other started detail same => report ⟨other, started, detail, same⟩

/-- The calls that neither wake nor settle. -/
theorem Synced.call (synced : Synced maxAttempts history db)
    (wake : ∀ workerId timeoutSeconds trigger,
      operation ≠ .markWorkerWaking workerId timeoutSeconds trigger)
    (settles : ∀ limit, operation ≠ .settleUnansweredWakes limit)
    (orderly : operation.Orderly maxAttempts history) : ∃ events,
      CallEvents maxAttempts history operation db events (operation.run env config now db).2 := by
  have adds := @adds_run env config now db operation settles
  rcases adds.grows with ⟨events, grows, listed, few⟩
  have calm : ∀ event ∈ events, (event.kind ≠ .wakeSent ∧ event.kind ≠ .wakeAbandoned) ∧
      (endsInWake (history event.workerId) = true → event.kind = .workerOnline) := by
    intro event member
    exact (listed event member).calm wake settles orderly
  have follows : ∀ workerId, Follows (history workerId) (ofWorker workerId events) :=
    fun workerId => (grows.follows synced.toPowerOrdered (synced.journal workerId)).1
  refine ⟨events, grows, ?_, ?_, ?_, ?_⟩
  · intro workerId
    have shorter := length_ofWorker_le workerId events
    omega
  · intro workerId
    apply (follows workerId).series (synced.series workerId)
    · exact fun event member => (calm event (mem_ofWorker.mp member).1).1
    · intro waiting event member
      rcases mem_ofWorker.mp member with ⟨inside, own⟩
      exact Or.inr ((calm event inside).2 (own ▸ waiting))
  · intro workerId waiting
    rcases (follows workerId).waited (fun event member => (calm event (mem_ofWorker.mp member).1).1.1)
      waiting with ⟨silent, waited⟩
    exact synced.waits wake orderly grows waited silent
  · exact fun event member sent => absurd sent (calm event member).1.1

/-- A wake. -/
theorem Synced.wake {trigger : Text} {timeoutSeconds : Nat} (synced : Synced maxAttempts history db)
    (quiet : endsInWake (history workerId) = false)
    (limited : recentTimeouts (history workerId) < maxAttempts) : ∃ events,
      CallEvents maxAttempts history (.markWorkerWaking workerId timeoutSeconds trigger) db events
        ((Operation.markWorkerWaking workerId timeoutSeconds trigger).run env config now db).2 := by
  have same : CallEvents maxAttempts history (.markWorkerWaking workerId timeoutSeconds trigger) db []
      db := by
    constructor
    · exact .nil (.refl db)
    · exact fun _ => Nat.zero_le 2
    · intro other
      simpa [ofWorker] using synced.series other
    · intro other waiting
      apply synced.waiting other
      simpa [ofWorker] using waiting
    · exact fun event member => absurd member List.not_mem_nil
  apply answering_induction (motive := fun after => ∃ events, CallEvents maxAttempts history
    (.markWorkerWaking workerId timeoutSeconds trigger) db events after)
  · exact ⟨[], same⟩
  · intro answer next done
    rcases Database.Waits.markWorkerWaking done with rfl | ⟨kept, own⟩
    · exact ⟨[], same⟩
    · rcases (adds_markWorkerWaking done).grows with ⟨events, grows, listed, few⟩
      have follows : ∀ workerId, Follows (history workerId) (ofWorker workerId events) :=
        fun workerId => (grows.follows synced.toPowerOrdered (synced.journal workerId)).1
      refine ⟨events, grows, ?_, ?_, ?_, ?_⟩
      · intro other
        have shorter := length_ofWorker_le other events
        omega
      · intro other
        have whole := follows other
        match events, few with
        | [], _ => simpa [ofWorker] using synced.series other
        | [event], _ =>
            rcases listed event (List.mem_singleton_self _) with ⟨woken, sent⟩
            by_cases same : event.workerId = other
            · have here : ofWorker other [event] = [event] := by simp [ofWorker, same]
              rw [here] at whole ⊢
              rw [← same, woken] at whole ⊢
              cases whole with
              | cons fits rest =>
                  apply Series.snoc (synced.series workerId) fits
                  · intro waiting
                    rw [quiet] at waiting
                    contradiction
                  · exact fun _ => limited
                  · exact fun abandoned => by simp [sent] at abandoned
            · have here : ofWorker other [event] = [] := by simp [ofWorker, same]
              rw [here, List.append_nil]
              exact synced.series other
      · intro other waiting
        by_cases silent : ofWorker other events = []
        · rw [silent, List.append_nil] at waiting
          exact kept other (synced.waiting other waiting)
        · rcases List.exists_mem_of_ne_nil _ silent with ⟨event, member⟩
          rcases mem_ofWorker.mp member with ⟨inside, same⟩
          rw [← same, (listed event inside).1]
          exact own
      · intro event member _
        rw [(listed event member).1]
        exact ⟨timeoutSeconds, trigger, rfl⟩

/-- A wake that waits leaves a timeout to the limit. -/
theorem Series.waiting_lt (series : Series maxAttempts events) (waiting : endsInWake events = true) :
    recentTimeouts events < maxAttempts := by
  have balanced := series.balanced
  have limited := series.wakes_le
  rw [if_pos waiting] at balanced
  omega

/-- What a settlement records for an overdue worker, by its history. -/
theorem Synced.settlement {row : WorkerRow} (synced : Synced maxAttempts history db)
    (waiting : endsInWake (history row.workerId) = true) :
    db.settlement maxAttempts row = .wakeTimeout ::
      if recentTimeouts (history row.workerId) + 1 = maxAttempts ∧ db.pendingJobs row ≠ [] then
        [.wakeAbandoned] else [] := by
  have fewer := (synced.series row.workerId).waiting_lt waiting
  have last : db.Abandons maxAttempts row ↔
      recentTimeouts (history row.workerId) + 1 = maxAttempts ∧ db.pendingJobs row ≠ [] := by
    unfold Database.Abandons
    rw [unansweredWakes_eq (synced.journal _) (synced.room _)]
    constructor
    · rintro ⟨reached, pending⟩
      exact ⟨by omega, pending⟩
    · rintro ⟨reached, pending⟩
      exact ⟨by omega, pending⟩
  unfold Database.settlement
  simp only [last]

theorem Synced.waits_of_overdue {row : WorkerRow} (synced : Synced maxAttempts history db)
    (overdue : row.Overdue config now db) : endsInWake (history row.workerId) = true := by
  rcases overdue.waiting with ⟨last, found, sent⟩
  rw [lastPowerEvent_eq (synced.journal _)] at found
  exact endsInWake_iff.mpr ⟨last, found, sent⟩

/-- A timeout, and the end of the attempts when it was the last one. -/
theorem Synced.ended {row : WorkerRow} (synced : Synced maxAttempts history db)
    (waiting : endsInWake (history row.workerId) = true)
    (kinds : events.map PowerEvent.kind = db.settlement maxAttempts row)
    (follows : Follows (history row.workerId) events) :
    Series maxAttempts (history row.workerId ++ events) := by
  rw [synced.settlement waiting] at kinds
  rcases List.map_eq_cons_iff.mp kinds with ⟨timeout, rest, rfl, ended, others⟩
  cases follows with
  | cons fits rest =>
      have first : Series maxAttempts (history row.workerId ++ [timeout]) := by
        apply Series.snoc (synced.series row.workerId) fits
        · exact fun _ => Or.inl ended
        · exact fun sent => by simp [ended] at sent
        · exact fun abandoned => by simp [ended] at abandoned
      rw [← List.singleton_append, ← List.append_assoc]
      split at others
      · rename_i last
        rcases List.map_eq_singleton_iff.mp others with ⟨abandonment, rfl, abandoned⟩
        cases rest with
        | cons fits _ =>
            apply Series.snoc first fits
            · intro waiting
              rw [endsInWake_of_kind (by simp [ended])] at waiting
              contradiction
            · exact fun sent => by simp [abandoned] at sent
            · intro _
              rw [recentTimeouts_concat]
              simpa [ended] using last.1
      · rw [List.map_eq_nil_iff.mp others, List.append_nil]
        exact first

/-- A settlement with the limit of the dispatcher. -/
theorem Synced.settle (synced : Synced maxAttempts history db) : ∃ events,
    CallEvents maxAttempts history (.settleUnansweredWakes maxAttempts) db events
        (db.settleUnansweredWakes config now maxAttempts) ∧
      Settles config now maxAttempts db.workers.rows db events := by
  rcases @grows_settleUnansweredWakes config now db synced.toPowerOrdered maxAttempts with
    ⟨events, grows, settles⟩
  have follows : ∀ workerId, Follows (history workerId) (ofWorker workerId events) :=
    fun workerId => (grows.follows synced.toPowerOrdered (synced.journal workerId)).1
  have owned : ∀ workerId, ofWorker workerId events = [] ∨
      ∃ row ∈ db.workers.rows, row.workerId = workerId ∧ row.Overdue config now db := by
    intro workerId
    by_cases silent : ofWorker workerId events = []
    · exact Or.inl silent
    · rcases List.exists_mem_of_ne_nil _ silent with ⟨event, member⟩
      rcases mem_ofWorker.mp member with ⟨inside, rfl⟩
      exact Or.inr (settles.owned event inside)
  have sameWakes : SameWakes db (db.settleUnansweredWakes config now maxAttempts) :=
    .of_workers (workers_settleUnansweredWakes maxAttempts db)
  refine ⟨events, ⟨grows, ?_, ?_, ?_, ?_⟩, settles⟩
  · intro workerId
    rcases owned workerId with silent | ⟨row, member, rfl, overdue⟩
    · rw [silent]
      exact Nat.zero_le 2
    · rw [← List.length_map (f := PowerEvent.kind), settles.settled row member overdue]
      unfold Database.settlement
      split <;> simp
  · intro workerId
    rcases owned workerId with silent | ⟨row, member, rfl, overdue⟩
    · rw [silent, List.append_nil]
      exact synced.series workerId
    · exact synced.ended (synced.waits_of_overdue overdue) (settles.settled row member overdue)
        (follows row.workerId)
  · intro workerId waiting
    rcases (follows workerId).waited (fun event member => by
      rcases settles.kinds (mem_ofWorker.mp member).1 with ended | ended <;> simp [ended])
      waiting with ⟨_, waited⟩
    exact (synced.waiting workerId waited).same sameWakes
  · intro event member sent
    rcases settles.kinds member with ended | ended <;> simp [ended] at sent

/-- Every orderly call. -/
theorem Synced.run (synced : Synced maxAttempts history db)
    (orderly : operation.Orderly maxAttempts history) : ∃ events,
      CallEvents maxAttempts history operation db events (operation.run env config now db).2 := by
  by_cases wake : ∃ workerId timeoutSeconds trigger,
      operation = .markWorkerWaking workerId timeoutSeconds trigger
  · rcases wake with ⟨workerId, timeoutSeconds, trigger, rfl⟩
    exact synced.wake orderly.1 orderly.2
  · by_cases settles : ∃ limit, operation = .settleUnansweredWakes limit
    · rcases settles with ⟨limit, rfl⟩
      rw [show limit = maxAttempts from orderly]
      rcases @Synced.settle maxAttempts config now db history synced with ⟨events, recorded, _⟩
      exact ⟨events, recorded⟩
    · push Not at wake settles
      exact synced.call wake settles orderly

end Calls

theorem length_recent_append (events later : List PowerEvent) :
    (recent (events ++ later)).length ≤ (recent events).length + later.length := by
  induction later using List.reverseRecOn with
  | nil => rw [List.append_nil, List.length_nil, Nat.add_zero]
  | append_singleton later event inductionHypothesis =>
      rw [← List.append_assoc, recent_concat, List.length_append, List.length_singleton]
      split
      · exact Nat.zero_le _
      · rw [List.length_cons]
        omega

/-- The histories after the events of a call. -/
theorem CallEvents.recordedSince {operation : Operation} (synced : Synced maxAttempts history db)
    (recorded : CallEvents maxAttempts history operation db events after) (workerId : Text) :
    db.recordedSince after workerId = ofWorker workerId events := by
  apply recorded.grows.recordedSince synced.toPowerOrdered (synced.journal workerId)
  exact (recorded.few workerId).trans (by decide)

theorem CallEvents.synced {operation : Operation} (synced : Synced maxAttempts history db)
    (recorded : CallEvents maxAttempts history operation db events after)
    (room : ∀ workerId, (recent (history workerId)).length + 2 ≤ powerEventRetention) :
    Synced maxAttempts (fun workerId => history workerId ++ db.recordedSince after workerId)
      after := by
  constructor
  · exact recorded.grows.ordered synced.toPowerOrdered
  · intro workerId
    rw [recorded.recordedSince synced]
    exact (recorded.grows.follows synced.toPowerOrdered (synced.journal workerId)).2
  · intro workerId
    rw [recorded.recordedSince synced]
    exact recorded.series workerId
  · intro workerId waiting
    rw [recorded.recordedSince synced] at waiting
    exact recorded.waiting workerId waiting
  · intro workerId
    rw [recorded.recordedSince synced]
    have longer := length_recent_append (history workerId) (ofWorker workerId events)
    have few := recorded.few workerId
    have spare := room workerId
    omega

/-! ## Runs -/

/-- The histories are orderly, and at most one worker is about to be woken again,
whose attempts are not used up. -/
structure WakeInvariant (maxAttempts : Nat) (service : WakeService) : Prop where
  synced : Synced maxAttempts service.history service.db
  single : service.asked.length ≤ 1
  silent : ∀ workerId ∈ service.asked, endsInWake (service.history workerId) = false ∧
    recentTimeouts (service.history workerId) < maxAttempts

theorem wakeInvariant_start (maxAttempts : Nat) : WakeInvariant maxAttempts .start where
  synced :=
    { ordered := .nil
      below := fun _ member => absurd member List.not_mem_nil
      journal := fun _ => (lastOf_of_le (Nat.zero_le _)).symm
      series := fun _ => .nil
      waiting := fun _ waiting => absurd waiting Bool.false_ne_true
      room := fun _ => Nat.zero_le _ }
  single := Nat.zero_le 1
  silent := fun _ member => absurd member List.not_mem_nil

namespace WakeInvariant

variable {service next : WakeService} {action : WakeAction}

/-- The call of an action is orderly. -/
theorem orderly {made : Call} (invariant : WakeInvariant policy.maxAttempts service)
    (positive : 1 ≤ policy.maxAttempts) (allowed : action.Allowed service)
    (orderly : action.Orderly policy service) (calls : action.made = some made) :
    made.operation.Orderly policy.maxAttempts service.history := by
  cases action with
  | call made' =>
      cases calls
      exact orderly
  | wake now workerId trigger timeoutSeconds =>
      cases calls
      have balanced := (invariant.synced.series workerId).balanced
      rw [show recentWakes (service.history workerId) = 0 from allowed] at balanced
      constructor
      · by_contra waiting
        rw [Bool.not_eq_false] at waiting
        rw [if_pos waiting] at balanced
        omega
      · omega
  | send now workerId timeoutSeconds =>
      cases calls
      exact invariant.silent workerId allowed
  | fail now workerId error =>
      cases calls
      exact (invariant.silent workerId allowed).1
  | ask now => contradiction
  | skip workerId => contradiction

/-- The worker that `unanswered_wake_retry` finds did not answer its last wake, and
has attempts left. -/
theorem retried {maxAttempts : Nat} {row : WorkerRow} (synced : Synced maxAttempts history db)
    (found : db.silentWorker config policy now = some row) :
    (∃ last ∈ (history row.workerId).getLast?, last.kind = .wakeTimeout) ∧
      recentTimeouts (history row.workerId) < policy.maxAttempts := by
  have test := List.find?_some found
  unfold Database.retries at test
  rw [lastPowerEvent_eq (synced.journal row.workerId)] at test
  split at test
  · contradiction
  · rename_i last isLast
    simp only [Bool.and_eq_true, decide_eq_true_eq] at test
    rw [unansweredWakes_eq (synced.journal _) (synced.room _)] at test
    exact ⟨⟨last, isLast, test.1.1.1.1⟩, test.1.1.2⟩

/-- The histories stay orderly, and a worker whose wake does not wait stays so
unless the action wakes it. -/
theorem moved (invariant : WakeInvariant policy.maxAttempts service)
    (positive : 1 ≤ policy.maxAttempts)
    (step : CalmStep env config policy service action next) :
    Synced policy.maxAttempts next.history next.db ∧ ∀ workerId,
      (∀ made timeoutSeconds trigger, action.made = some made →
        made.operation ≠ .markWorkerWaking workerId timeoutSeconds trigger) →
      endsInWake (service.history workerId) = false →
      endsInWake (next.history workerId) = false ∧
        recentTimeouts (next.history workerId) ≤ recentTimeouts (service.history workerId) := by
  rw [← step.step]
  unfold WakeService.next WakeAction.run
  cases calls : action.made with
  | none =>
      have recorded : CallEvents policy.maxAttempts service.history .listPairings service.db []
          service.db := by
        refine ⟨.nil (.refl _), fun _ => Nat.zero_le 2, ?_, ?_, ?_⟩
        · intro workerId
          simpa [ofWorker] using invariant.synced.series workerId
        · intro workerId waiting
          apply invariant.synced.waiting workerId
          simpa [ofWorker] using waiting
        · exact fun event member => absurd member List.not_mem_nil
      refine ⟨recorded.synced invariant.synced step.room, ?_⟩
      intro workerId _ quiet
      dsimp only
      rw [recorded.recordedSince invariant.synced, ofWorker, List.filter_nil, List.append_nil]
      exact ⟨quiet, Nat.le_refl _⟩
  | some made =>
      rcases @Synced.run _ env config made.now _ _ _ invariant.synced
        (invariant.orderly positive step.allowed step.orderly calls) with ⟨events, recorded⟩
      refine ⟨recorded.synced invariant.synced step.room, ?_⟩
      intro workerId unwoken quiet
      dsimp only
      rw [recorded.recordedSince invariant.synced]
      apply (recorded.grows.follows invariant.synced.toPowerOrdered
        (invariant.synced.journal workerId)).1.silent _ quiet
      intro event member sent
      rcases mem_ofWorker.mp member with ⟨inside, own⟩
      rcases recorded.wakes event inside sent with ⟨timeoutSeconds, trigger, woken⟩
      rw [own] at woken
      exact unwoken made timeoutSeconds trigger rfl woken

theorem step (invariant : WakeInvariant policy.maxAttempts service)
    (positive : 1 ≤ policy.maxAttempts)
    (step : CalmStep env config policy service action next) :
    WakeInvariant policy.maxAttempts next := by
  rcases invariant.moved positive step with ⟨synced, quiet⟩
  have asked : next.asked = action.pending config policy service := by
    rw [← step.step]
    rfl
  have kept : (∀ workerId ∈ service.asked, ∀ made timeoutSeconds trigger, action.made = some made →
      made.operation ≠ .markWorkerWaking workerId timeoutSeconds trigger) →
      ∀ workerId ∈ service.asked, endsInWake (next.history workerId) = false ∧
        recentTimeouts (next.history workerId) < policy.maxAttempts := by
    intro unwoken workerId member
    rcases invariant.silent workerId member with ⟨silent, limited⟩
    rcases quiet workerId (unwoken workerId member) silent with ⟨ends, fewer⟩
    exact ⟨ends, Nat.lt_of_le_of_lt fewer limited⟩
  have erased : ∀ workerId ∈ service.asked, service.asked.erase workerId = [] := by
    intro workerId member
    have single := invariant.single
    rw [← List.length_eq_zero_iff, List.length_erase_of_mem member]
    omega
  have done : next.asked = [] → WakeInvariant policy.maxAttempts next := by
    intro none
    refine ⟨synced, ?_, ?_⟩
    · rw [none]
      exact Nat.zero_le 1
    · rw [none]
      exact fun _ member => absurd member List.not_mem_nil
  have allowed := step.allowed
  have orderly := step.orderly
  cases action with
  | call made =>
      change next.asked = service.asked at asked
      refine ⟨synced, asked ▸ invariant.single, ?_⟩
      rw [asked]
      apply kept
      intro other _ made' timeoutSeconds trigger calls
      cases calls
      exact allowed other timeoutSeconds trigger
  | wake now workerId trigger timeoutSeconds =>
      change next.asked = service.asked at asked
      refine ⟨synced, asked ▸ invariant.single, ?_⟩
      rw [asked]
      apply kept
      intro other member made seconds text calls same
      cases calls
      cases same
      exact orderly member
  | ask now =>
      rw [WakeAction.pending, show service.asked = [] from orderly] at asked
      split at asked
      · rename_i row found
        refine ⟨synced, by simp [asked], ?_⟩
        rw [asked]
        intro other member
        rw [List.mem_singleton.mp member]
        rcases retried invariant.synced found with ⟨⟨last, isLast, ended⟩, limited⟩
        have silent : endsInWake (service.history row.workerId) = false := by
          rw [Option.mem_def] at isLast
          simp [endsInWake, isLast, ended]
        rcases quiet row.workerId (fun _ _ _ calls => by simp [WakeAction.made] at calls) silent with
          ⟨ends, fewer⟩
        exact ⟨ends, Nat.lt_of_le_of_lt fewer limited⟩
      · exact done asked
  | send now workerId timeoutSeconds =>
      exact done (asked.trans (erased workerId allowed))
  | fail now workerId error =>
      exact done (asked.trans (erased workerId allowed))
  | skip workerId =>
      exact done (asked.trans (erased workerId allowed))

end WakeInvariant

theorem wakeInvariant_of_run {actions : List WakeAction} {service : WakeService}
    (positive : 1 ≤ policy.maxAttempts)
    (run : Run (CalmStep env config policy) .start actions service) :
    WakeInvariant policy.maxAttempts service :=
  run.invariant (P := WakeInvariant policy.maxAttempts)
    (fun invariant step => invariant.step positive step) (wakeInvariant_start _)

/-- The wakes of a worker that was neither online nor given up meanwhile are at
most the limit. -/
theorem Series.countP_wakeSent_le {before within after : List PowerEvent}
    (series : Series maxAttempts (before ++ within ++ after))
    (open_ : ∀ event ∈ within, event.kind ≠ .workerOnline ∧ event.kind ≠ .wakeAbandoned) :
    (within.countP fun event => event.kind = .wakeSent) ≤ maxAttempts := by
  have whole : recent (before ++ within) = within.reverse ++ recent before := by
    unfold recent
    rw [List.reverse_append, List.takeWhile_append_of_pos]
    intro event member
    simpa using open_ event (List.mem_reverse.mp member)
  have limited := series.of_append.wakes_le
  unfold recentWakes at limited
  rw [whole, List.countP_append, List.countP_reverse] at limited
  omega

/-- What a settlement at some time records for a worker: nothing, unless its wake
waits past its deadline without a sign of the worker. -/
structure SettlesOnce (config : Config) (policy : RetryPolicy) (service : WakeService)
    (workerId : Text) (now : Int) : Prop where
  expired : ∀ row, service.db.workers.find? workerId = some row →
    endsInWake (service.history workerId) = true → (∃ deadline ∈ row.wakeDeadlineAt, deadline < now) →
    row.availability config now ≠ .available →
    (service.db.recordedSince (service.db.settleUnansweredWakes config now policy.maxAttempts)
      workerId).map PowerEvent.kind = .wakeTimeout ::
        if recentTimeouts (service.history workerId) + 1 = policy.maxAttempts ∧
          service.db.pendingJobs row ≠ [] then [.wakeAbandoned] else []
  others : (∀ row, service.db.workers.find? workerId = some row →
      endsInWake (service.history workerId) = true →
      (∃ deadline ∈ row.wakeDeadlineAt, deadline < now) →
      row.availability config now = .available) →
    service.db.recordedSince (service.db.settleUnansweredWakes config now policy.maxAttempts)
      workerId = []

theorem WakeInvariant.settlesOnce {service : WakeService}
    (invariant : WakeInvariant policy.maxAttempts service) (workerId : Text) (now : Int) :
    SettlesOnce config policy service workerId now := by
  rcases @Synced.settle policy.maxAttempts config now _ _ invariant.synced with
    ⟨events, recorded, settles⟩
  have same := recorded.recordedSince invariant.synced workerId
  constructor
  · intro row found waiting passed silent
    rcases Table.find?_eq_some_iff.mp found with ⟨member, rfl⟩
    rw [same, ← invariant.synced.settlement waiting]
    exact settles.settled row member ⟨passed, invariant.synced.sent waiting, silent⟩
  · intro excused
    rw [same]
    apply ofWorker_eq_nil
    intro event member own
    rcases settles.owned event member with ⟨row, rowMem, owner, overdue⟩
    have found : service.db.workers.find? workerId = some row :=
      Table.find?_eq_some_iff.mpr ⟨rowMem, owner.trans own⟩
    have waiting := invariant.synced.waits_of_overdue overdue
    rw [owner, own] at waiting
    exact overdue.silent (excused row found waiting overdue.passed)

/-- In every run that meets the condition, for every worker: between two events
in which it is online or given up at most the limit of wakes is sent; a timeout
comes directly after its wake, and a wake ends with its timeout or the worker
online; a wake that waits has a deadline, and a settlement past it records one
timeout, and the end of the attempts exactly with the last of them while work
waits, and nothing else; the worker is given up only then; and a retry is returned
only directly after a timeout that leaves attempts. -/
theorem wake_retries_bounded (env : Environment) (config : Config) (policy : RetryPolicy)
    (positive : 1 ≤ policy.maxAttempts) {actions : List WakeAction} {service : WakeService}
    (run : Run (CalmStep env config policy) .start actions service) (workerId : Text) :
    (∀ before within after, service.history workerId = before ++ within ++ after →
        (∀ event ∈ within, event.kind ≠ .workerOnline ∧ event.kind ≠ .wakeAbandoned) →
        (within.countP fun event => event.kind = .wakeSent) ≤ policy.maxAttempts) ∧
      Everywhere (fun before event =>
        (event.kind = .wakeTimeout → endsInWake before = true) ∧
        (endsInWake before = true → event.kind = .wakeTimeout ∨ event.kind = .workerOnline) ∧
        (event.kind = .wakeAbandoned → recentTimeouts before = policy.maxAttempts ∧
          ∃ last ∈ before.getLast?, last.kind = .wakeTimeout)) (service.history workerId) ∧
      (endsInWake (service.history workerId) = true → ∃ row,
        service.db.workers.find? workerId = some row ∧ row.wakeDeadlineAt.isSome = true) ∧
      (∀ now, SettlesOnce config policy service workerId now) ∧
      ∀ now row, service.db.silentWorker config policy now = some row →
        (∃ last ∈ (service.history row.workerId).getLast?, last.kind = .wakeTimeout) ∧
          recentTimeouts (service.history row.workerId) < policy.maxAttempts := by
  have invariant := wakeInvariant_of_run positive run
  have series := invariant.synced.series workerId
  refine ⟨?_, ?_, ?_, ?_, ?_⟩
  · intro before within after split open_
    rw [split] at series
    exact series.countP_wakeSent_le open_
  · exact series.everywhere
  · intro waiting
    rcases invariant.synced.waiting workerId waiting with ⟨row, found, _, deadline⟩
    exact ⟨row, found, deadline⟩
  · exact fun now => invariant.settlesOnce workerId now
  · exact fun now row found => WakeInvariant.retried invariant.synced found

/-! ## Two attempts -/

/-- The services after a list of actions. -/
def act (env : Environment) (config : Config) (policy : RetryPolicy) (actions : List WakeAction)
    (service : WakeService) : WakeService :=
  actions.foldl (WakeService.next env config policy) service

/-- Every action meets the condition; `count` bounds the events that are kept of
a worker. -/
def Calm (env : Environment) (config : Config) (policy : RetryPolicy) :
    Nat → List WakeAction → WakeService → Prop
  | _, [], _ => True
  | count, action :: actions, service =>
      let next := service.next env config policy action
      (action.Allowed service ∧ action.Orderly policy service ∧ count + 2 ≤ powerEventRetention) ∧
        Calm env config policy (count + next.db.powerEvents.length) actions next

theorem run_of_calm {count : Nat} {actions : List WakeAction} {service : WakeService}
    (bounded : ∀ workerId, (service.history workerId).length ≤ count)
    (calm : Calm env config policy count actions service) :
    Run (CalmStep env config policy) service actions (act env config policy actions service) := by
  induction actions generalizing count service with
  | nil => exact .nil service
  | cons action actions inductionHypothesis =>
      rcases calm with ⟨⟨allowed, orderly, room⟩, rest⟩
      have taken : CalmStep env config policy service action
          (service.next env config policy action) := by
        refine ⟨allowed, orderly, ?_, rfl⟩
        intro workerId
        have fewer : (recent (service.history workerId)).length ≤
            (service.history workerId).length := by
          have part := (List.takeWhile_sublist (l := (service.history workerId).reverse) fun event =>
            event.kind ≠ .workerOnline && event.kind ≠ .wakeAbandoned).length_le
          rwa [List.length_reverse] at part
        have total := bounded workerId
        omega
      apply Run.cons taken
      apply inductionHypothesis _ rest
      intro workerId
      have added : (service.db.recordedSince (action.run env config service.db) workerId).length ≤
          (action.run env config service.db).powerEvents.length :=
        (List.length_filter_le ..).trans (List.length_filter_le ..)
      have total := bounded workerId
      change (service.history workerId ++ _).length ≤ count + _
      rw [List.length_append]
      exact Nat.add_le_add total added

def twoAttempts : RetryPolicy where
  retryDelaySeconds := 60
  maxAttempts := 2

/-- A worker stays silent twice while a health check waits. -/
def silentTwice : List WakeAction :=
  [.call (secondsIn 0 (.registerWorker (announcement oldName) none)),
    .call (secondsIn 1 (.create healthRequest)),
    .wake (secondsIn 200 .listPairings).now oldName "queued_jobs".toList 10,
    .call (secondsIn 220 (.settleUnansweredWakes 2)),
    .ask (secondsIn 300 .listPairings).now,
    .send (secondsIn 301 .listPairings).now oldName 10,
    .call (secondsIn 320 (.settleUnansweredWakes 2))]

theorem calm_silentTwice :
    Calm winterEnvironment .default twoAttempts 0 silentTwice .start := by
  refine ⟨⟨nofun, trivial, by decide⟩, ⟨nofun, trivial, by decide +kernel⟩, ⟨?_, ?_, ?_⟩,
    ⟨nofun, rfl, by decide +kernel⟩, ⟨trivial, ?_, by decide +kernel⟩, ⟨?_, trivial, ?_⟩,
    ⟨nofun, rfl, by decide +kernel⟩, trivial⟩
  · exact show recentWakes _ = 0 by decide +kernel
  · exact show _ ∉ _ by decide +kernel
  · decide +kernel
  · exact show _ = [] by decide +kernel
  · exact show _ ∈ _ by decide +kernel
  · decide +kernel

/-- The worker is given up after its second timeout. -/
theorem silentTwice_bounded :
    let service := act winterEnvironment .default twoAttempts silentTwice .start
    (service.history oldName).map PowerEvent.kind =
        [.wakeSent, .wakeTimeout, .wakeSent, .wakeTimeout, .wakeAbandoned] ∧
      (∀ before within after, service.history oldName = before ++ within ++ after →
        (∀ event ∈ within, event.kind ≠ .workerOnline ∧ event.kind ≠ .wakeAbandoned) →
        (within.countP fun event => event.kind = .wakeSent) ≤ 2) ∧
      Everywhere (fun before event =>
        (event.kind = .wakeTimeout → endsInWake before = true) ∧
        (endsInWake before = true → event.kind = .wakeTimeout ∨ event.kind = .workerOnline) ∧
        (event.kind = .wakeAbandoned → recentTimeouts before = 2 ∧
          ∃ last ∈ before.getLast?, last.kind = .wakeTimeout)) (service.history oldName) ∧
      (endsInWake (service.history oldName) = true → ∃ row,
        service.db.workers.find? oldName = some row ∧ row.wakeDeadlineAt.isSome = true) ∧
      (∀ now, SettlesOnce .default twoAttempts service oldName now) ∧
      ∀ now row, service.db.silentWorker .default twoAttempts now = some row →
        (∃ last ∈ (service.history row.workerId).getLast?, last.kind = .wakeTimeout) ∧
          recentTimeouts (service.history row.workerId) < 2 :=
  ⟨by decide +kernel, wake_retries_bounded winterEnvironment .default twoAttempts (by decide)
    (run_of_calm (fun _ => Nat.le_refl 0) calm_silentTwice) oldName⟩

/-- The first wake waits past its deadline, and a wake by hand that could not be
sent is noted before the settlement. -/
def failedBeforeSettlement : List WakeAction :=
  [.call (secondsIn 0 (.registerWorker (announcement oldName) none)),
    .call (secondsIn 1 (.create healthRequest)),
    .wake (secondsIn 200 .listPairings).now oldName "queued_jobs".toList 10,
    .call (secondsIn 220 (.recordWakeFailure oldName "no route".toList "manual_check".toList)),
    .call (secondsIn 230 (.settleUnansweredWakes 2)),
    .call (secondsIn 300 (.settleUnansweredWakes 2))]

/-- The wake never times out, although its deadline passed without a sign of the
worker, and it is never sent again. -/
theorem failed_wake_hides_timeout :
    let service := act winterEnvironment .default twoAttempts failedBeforeSettlement .start
    let later := (secondsIn 400 .listPairings).now
    (service.history oldName).map PowerEvent.kind = [.wakeSent, .wakeFailed] ∧
      ((service.db.workers.find? oldName).any fun row =>
        row.wakeDeadlineAt.any (· < later) && row.availability .default later = .unavailable &&
          service.db.pendingJobs row ≠ []) = true ∧
      service.db.recordedSince (service.db.settleUnansweredWakes .default later 2) oldName = [] ∧
      service.db.silentWorker .default twoAttempts later = none := by
  decide +kernel

end OhanaAgent.Jobs
