import OhanaAgent.Jobs.Contracts

/-!
# Keeping a job alive until the planned wake

The service raises the timeout of a job that waits for the daily batch before
the repository sees it.  The raised timeout meets the bound of the request
contract, which this file states as an exact condition on the request.
-/

namespace OhanaAgent.Jobs

open OhanaAgent.Encoding.Json
open OhanaAgent.Store
open OhanaAgent.Time

/-! ## The request contract on a body -/

/-- How the contract reads the fields of a body that are not objects. -/
structure Coercion where
  protocolVersion : Value → Option Nat
  uuid : Value → Option Text
  string : Value → Option Text
  datetime : Value → Option Stamp
  integer : Value → Option Int

/-- The fields of `DistributedJobCreate`; a body has no other. -/
def jobCreateFields : List Text :=
  ["protocol_version".toList, "job_id".toList, "type".toList, "created_at".toList,
    "parameters".toList, "timeout".toList]

/-- The entry of a body, read by one of its readers. -/
def readField {α : Type} (reader : Value → Option α) (name : String) (body : Fields) :
    Option α :=
  (body.lookup name.toList).bind reader

/-- The fields of an object. -/
def objectFields : Value → Option Fields
  | .object fields => some fields
  | _ => none

/-- The protocol version of a body, 1 by default. -/
def Coercion.version (contract : Coercion) (body : Fields) : Option Nat :=
  match body.lookup "protocol_version".toList with
  | none => some 1
  | some value => contract.protocolVersion value

/-- The typed fields of a body. -/
def Coercion.payload (contract : Coercion) (body : Fields) : Option CreatePayload := do
  guard (body.keys.all (· ∈ jobCreateFields))
  let protocolVersion ← contract.version body
  let jobId ← readField contract.uuid "job_id" body
  let type ← readField contract.string "type" body
  let createdAt ← readField contract.datetime "created_at" body
  let parameters ← readField objectFields "parameters" body
  let timeout ← readField contract.integer "timeout" body
  return ⟨protocolVersion, jobId, type, createdAt, parameters, timeout⟩

/-- `DistributedJobCreate.model_validate` of a body. -/
def Coercion.validate (contract : Coercion) (body : Fields) : Except Failure JobCreate :=
  match contract.payload body with
  | none => .error (.value "Field required or invalid")
  | some payload => JobCreate.validate payload

theorem Coercion.validate_eq_ok {contract : Coercion} {body : Fields} {request : JobCreate} :
    contract.validate body = .ok request ↔
      ∃ payload, contract.payload body = some payload ∧ JobCreate.validate payload = .ok request := by
  unfold Coercion.validate
  cases contract.payload body <;> simp

theorem validate_eq_ok {payload : CreatePayload} {request : JobCreate} :
    JobCreate.validate payload = .ok request ↔
      payload.protocolVersion = 1 ∧ payload.jobId = request.jobId ∧ payload.type = request.type ∧
        payload.createdAt = .aware request.createdAt request.createdOffset ∧
        payload.parameters = request.parameters ∧ payload.timeout = request.timeout := by
  obtain ⟨protocolVersion, jobId, type, createdAt, parameters, timeout⟩ := payload
  obtain ⟨_, _, instant, offset, _, seconds, typeName, bounds⟩ := request
  unfold JobCreate.validate
  constructor
  · intro valid
    split at valid
    · simp at valid
    · rename_i version
      split at valid
      · split at valid
        · simp at valid
        · split at valid
          · simp only [Except.ok.injEq, JobCreate.mk.injEq] at valid
            obtain ⟨rfl, rfl, rfl, rfl, rfl, rfl⟩ := valid
            refine ⟨not_not.mp version, rfl, rfl, by assumption, rfl, ?_⟩
            dsimp only at *
            omega
          · simp at valid
      · simp at valid
  · rintro ⟨version, rfl, rfl, stamp, rfl, time⟩
    dsimp only at version stamp time typeName
    subst version stamp time
    have accepted : (1 : Int) ≤ seconds ∧ (seconds : Int) ≤ 86400 := by omega
    simp [typeName, accepted]

theorem Coercion.payload_eq_some {contract : Coercion} {body : Fields} {payload : CreatePayload} :
    contract.payload body = some payload ↔
      body.keys.all (· ∈ jobCreateFields) = true ∧
        contract.version body = some payload.protocolVersion ∧
        readField contract.uuid "job_id" body = some payload.jobId ∧
        readField contract.string "type" body = some payload.type ∧
        readField contract.datetime "created_at" body = some payload.createdAt ∧
        readField objectFields "parameters" body = some payload.parameters ∧
        readField contract.integer "timeout" body = some payload.timeout := by
  simp only [Coercion.payload, Option.bind_eq_bind, Option.bind_eq_some_iff, Option.pure_def,
    Option.some.injEq, Option.guard_eq_some']
  constructor
  · rintro ⟨_, known, version, versionRead, jobId, jobIdRead, type, typeRead, created, createdRead,
      parameters, parametersRead, timeout, timeoutRead, rfl⟩
    exact ⟨known, versionRead, jobIdRead, typeRead, createdRead, parametersRead, timeoutRead⟩
  · rintro ⟨known, versionRead, jobIdRead, typeRead, createdRead, parametersRead, timeoutRead⟩
    exact ⟨(), known, _, versionRead, _, jobIdRead, _, typeRead, _, createdRead, _, parametersRead,
      _, timeoutRead, rfl⟩

theorem toList_ne {name key : String} (different : name ≠ key) : name.toList ≠ key.toList :=
  fun equal => different (String.toList_inj.mp equal)

theorem readField_set_of_ne {α : Type} (reader : Value → Option α) (name : String) {key : String}
    (value : Value) (body : Fields) (different : name ≠ key) :
    readField reader name (body.set key.toList value) = readField reader name body := by
  rw [readField, Fields.lookup_set_of_ne value (toList_ne different), readField]

/-- A body keeps its other fields when its timeout is assigned. -/
theorem Coercion.payload_set_timeout {contract : Coercion} {body : Fields} {payload : CreatePayload}
    {value : Value} {timeout : Int} (read : contract.payload body = some payload)
    (assigned : contract.integer value = some timeout) :
    contract.payload (body.set "timeout".toList value) = some { payload with timeout := timeout } := by
  rw [payload_eq_some] at read ⊢
  obtain ⟨known, version, jobId, type, created, parameters, old⟩ := read
  obtain ⟨entry, found, -⟩ := Option.bind_eq_some_iff.mp old
  rw [Fields.keys_set_of_lookup value body found, Coercion.version,
    Fields.lookup_set_of_ne value (toList_ne (by simp)),
    readField_set_of_ne _ "job_id" value body (by simp),
    readField_set_of_ne _ "type" value body (by simp),
    readField_set_of_ne _ "created_at" value body (by simp),
    readField_set_of_ne _ "parameters" value body (by simp)]
  have renewed : readField contract.integer "timeout" (body.set "timeout".toList value) =
      some timeout := by
    rw [readField, Fields.lookup_set_self]
    exact assigned
  exact ⟨known, version, jobId, type, created, parameters, renewed⟩

/-! ## The extension -/

/-- The wake policy of the service, within the bounds it checks. -/
structure WakePolicy where
  enabled : Bool
  windowStartHour : Nat
  windowEndHour : Nat
  timeoutSeconds : Nat
  scheduleTimezone : Text
  window_bounds : windowStartHour < windowEndHour ∧ windowEndHour ≤ 24
  timeout_bounds : 10 ≤ timeoutSeconds ∧ timeoutSeconds ≤ 1800

/-- `ZoneInfo`, `int` and `datetime.fromisoformat` after `str`; the readers give
nothing where they raise an error that the service catches. -/
structure Library where
  zoneInfo : Text → LocalZone
  int : Value → Option Int
  fromisoformat : Value → Option Stamp

/-- `LOCAL_TIMEZONE`. -/
def localTimezone : Text :=
  "Europe/Paris".toList

/-- A datetime of the schedule: its instant and its local time. -/
structure Shown where
  instant : Int
  wall : Int

namespace Shown

/-- The day of the local time. -/
def date (shown : Shown) : Int :=
  shown.wall / day

/-- The hour of the local time. -/
def hour (shown : Shown) : Int :=
  shown.wall % day / Time.hour

end Shown

/-- `value.astimezone(zone)`, unless it overflows. -/
def astimezone (zone : Zone) (instant : Int) : Option Shown :=
  if Representable instant ∧ Representable (zone.wall instant) then
    some ⟨instant, zone.wall instant⟩
  else none

/-- The creation time on the schedule's clock.  A naive time is read in Paris,
and stays as it is when the schedule is in Paris too. -/
def Library.current (library : Library) (policy : WakePolicy) (createdAt : Stamp) : Option Shown :=
  match createdAt with
  | .aware instant _ => astimezone (library.zoneInfo policy.scheduleTimezone).toZone instant
  | .naive wall =>
      let instant := (library.zoneInfo localTimezone).instantOf wall
      if policy.scheduleTimezone = localTimezone then
        if Representable instant then some ⟨instant, wall⟩ else none
      else astimezone (library.zoneInfo policy.scheduleTimezone).toZone instant

/-- Membership of the type of a payload in a set of job types. -/
def typeIn (types : JobType → Bool) (payload : Fields) : Bool :=
  match payload.lookup "type".toList with
  | some (.string name) => (JobType.ofText name).any types
  | _ => false

/-- The planned window holds the local hour. -/
def WakePolicy.InWindow (policy : WakePolicy) (current : Shown) : Prop :=
  policy.windowStartHour ≤ current.hour ∧ current.hour < policy.windowEndHour

instance (policy : WakePolicy) (current : Shown) : Decidable (policy.InWindow current) :=
  inferInstanceAs (Decidable (_ ∧ _))

/-- A day of the calendar, unless it overflows. -/
def calendarDay (date : Int) : Option Int :=
  if Representable (date * day) then some date else none

/-- `_extend_job_timeout_until_planned_wake`; nothing when the calendar
overflows. -/
def extendJobTimeoutUntilPlannedWake (library : Library) (policy : WakePolicy) (payload : Fields) :
    Option Fields :=
  if policy.enabled = false ∨ 24 ≤ policy.windowEndHour ∨
      typeIn JobType.automaticWake payload = false then
    some payload
  else
    match readField library.int "timeout" payload,
        readField library.fromisoformat "created_at" payload with
    | some timeoutSeconds, some createdAt => do
        let current ← library.current policy createdAt
        if ¬ policy.InWindow current ∧
            typeIn JobType.deferredToBatch payload = false then
          return payload
        -- the next day is computed before the early morning is told apart
        let nextDay ← calendarDay (current.date + if policy.InWindow current then 0 else 1)
        let batchDay :=
          if ¬ policy.InWindow current ∧ current.hour < policy.windowStartHour then current.date
          else nextDay
        let plannedWake := (library.zoneInfo policy.scheduleTimezone).instantOf
          (batchDay * day + policy.windowEndHour * hour)
        guard (Representable plannedWake)
        let secondsUntilWake := ceilSeconds (plannedWake - current.instant)
        if secondsUntilWake ≤ 0 then
          return payload
        return payload.set "timeout".toList
          (.number (.ofInt (timeoutSeconds + secondsUntilWake + policy.timeoutSeconds)))
    | _, _ => some payload

/-! ## What the extension does -/

/-- The batch boundary after a local time: at the end hour of its day, or of the
next day from that hour on. -/
def Library.plannedWake (library : Library) (policy : WakePolicy) (wall : Int) : Int :=
  (library.zoneInfo policy.scheduleTimezone).instantOf
    ((wall / day + if wall % day / hour < policy.windowEndHour then 0 else 1) * day +
      policy.windowEndHour * hour)

/-- The next planned wake after an instant. -/
def Library.nextPlannedWake (library : Library) (policy : WakePolicy) (instant : Int) : Int :=
  library.plannedWake policy ((library.zoneInfo policy.scheduleTimezone).wall instant)

/-- The seconds the service adds until the wake. -/
def Library.secondsUntilWake (library : Library) (policy : WakePolicy) (current : Shown) : Int :=
  ceilSeconds (library.plannedWake policy current.wall - current.instant)

/-- The batch day and the wake are dates that exist. -/
def Library.OnCalendar (library : Library) (policy : WakePolicy) (current : Shown) : Prop :=
  Representable ((current.date + if policy.InWindow current then 0 else 1) * day) ∧
    Representable (library.plannedWake policy current.wall)

instance (library : Library) (policy : WakePolicy) (current : Shown) :
    Decidable (library.OnCalendar policy current) :=
  inferInstanceAs (Decidable (_ ∧ _))

/-- The service reads the creation time of a payload as a time of the
schedule. -/
def Library.Reads (library : Library) (policy : WakePolicy) (payload : Fields) (current : Shown) :
    Prop :=
  ∃ createdAt, readField library.fromisoformat "created_at" payload = some createdAt ∧
    library.current policy createdAt = some current

/-- The payloads the service passes on as they are. -/
inductive Unextended (library : Library) (policy : WakePolicy) (payload : Fields) : Prop
  | policy (off : policy.enabled = false ∨ 24 ≤ policy.windowEndHour)
  | type (other : typeIn JobType.automaticWake payload = false)
  | timeout (unread : readField library.int "timeout" payload = none)
  | createdAt (unread : readField library.fromisoformat "created_at" payload = none)
  | outside {current : Shown} (reads : library.Reads policy payload current)
      (away : ¬ policy.InWindow current)
      (undeferred : typeIn JobType.deferredToBatch payload = false)
  | past {current : Shown} (reads : library.Reads policy payload current)
      (calendar : library.OnCalendar policy current)
      (passed : library.plannedWake policy current.wall ≤ current.instant)

/-- The payloads whose timeout the service raises. -/
structure Extended (library : Library) (policy : WakePolicy) (payload : Fields) (timeout : Int)
    (current : Shown) : Prop where
  enabled : policy.enabled = true ∧ policy.windowEndHour < 24
  type : typeIn JobType.automaticWake payload = true
  timeout : readField library.int "timeout" payload = some timeout
  reads : library.Reads policy payload current
  grouped : policy.InWindow current ∨
    typeIn JobType.deferredToBatch payload = true
  calendar : library.OnCalendar policy current
  future : current.instant < library.plannedWake policy current.wall

/-- The batch day of the service is that of the next boundary. -/
theorem batchDay_eq (policy : WakePolicy) (current : Shown) :
    (if ¬ policy.InWindow current ∧ current.hour < policy.windowStartHour then current.date
      else current.date + if policy.InWindow current then 0 else 1) =
    current.wall / day + if current.wall % day / hour < policy.windowEndHour then 0 else 1 := by
  have window := policy.window_bounds
  have shownHour : current.hour = current.wall % day / hour := rfl
  have shownDate : current.date = current.wall / day := rfl
  rw [← shownHour, ← shownDate]
  unfold WakePolicy.InWindow
  split_ifs <;> omega

theorem wake_of_batchDay (library : Library) (policy : WakePolicy) (current : Shown) :
    (library.zoneInfo policy.scheduleTimezone).instantOf
      ((if ¬ policy.InWindow current ∧ current.hour < policy.windowStartHour then current.date
        else current.date + if policy.InWindow current then 0 else 1) * day +
          policy.windowEndHour * hour) =
    library.plannedWake policy current.wall := by
  rw [batchDay_eq]
  rfl

variable {library : Library} {policy : WakePolicy} {payload extended : Fields}

/-- The part of the extension after its inputs are read. -/
theorem extend_of_reads {timeout : Int} {current : Shown}
    (on : policy.enabled = true ∧ policy.windowEndHour < 24)
    (type : typeIn JobType.automaticWake payload = true)
    (time : readField library.int "timeout" payload = some timeout)
    (reads : library.Reads policy payload current) :
    extendJobTimeoutUntilPlannedWake library policy payload =
      if ¬ policy.InWindow current ∧ typeIn JobType.deferredToBatch payload = false then
        some payload
      else if library.OnCalendar policy current then
        if library.plannedWake policy current.wall ≤ current.instant then some payload
        else some (payload.set "timeout".toList (.number (.ofInt
          (timeout + library.secondsUntilWake policy current + policy.timeoutSeconds))))
      else none := by
  obtain ⟨createdAt, read, shown⟩ := reads
  have open_ : ¬ (policy.enabled = false ∨ 24 ≤ policy.windowEndHour ∨
      typeIn JobType.automaticWake payload = false) := by
    simp [on, type]
  have wait : ceilSeconds (library.plannedWake policy current.wall - current.instant) ≤ 0 ↔
      library.plannedWake policy current.wall ≤ current.instant := by
    have := @ceilSeconds_pos_iff (library.plannedWake policy current.wall - current.instant)
    omega
  rw [extendJobTimeoutUntilPlannedWake, if_neg open_, time, read]
  simp only [Option.bind_eq_bind, shown, Option.bind_some, calendarDay]
  split
  · rfl
  · by_cases nextDay : Representable ((current.date + if policy.InWindow current then 0 else 1) * day)
    · rw [if_pos nextDay]
      simp only [Option.bind_some, wake_of_batchDay]
      by_cases wake : Representable (library.plannedWake policy current.wall)
      · have calendar : library.OnCalendar policy current := ⟨nextDay, wake⟩
        simp only [guard, if_pos wake, if_pos calendar, Option.pure_def, Option.bind_some]
        exact if_congr wait rfl rfl
      · have away : ¬ library.OnCalendar policy current := fun calendar => wake calendar.2
        simp only [guard, if_neg wake, if_neg away]
        rfl
    · have away : ¬ library.OnCalendar policy current := fun calendar => nextDay calendar.1
      rw [if_neg nextDay, if_neg away]
      rfl

theorem extend_of_closed (closed : policy.enabled = false ∨ 24 ≤ policy.windowEndHour ∨
      typeIn JobType.automaticWake payload = false) :
    extendJobTimeoutUntilPlannedWake library policy payload = some payload := by
  rw [extendJobTimeoutUntilPlannedWake, if_pos closed]

theorem extend_of_unread (unread : readField library.int "timeout" payload = none ∨
      readField library.fromisoformat "created_at" payload = none) :
    extendJobTimeoutUntilPlannedWake library policy payload = some payload := by
  unfold extendJobTimeoutUntilPlannedWake
  split
  · rfl
  · split
    · rename_i time read
      rcases unread with unread | unread
      · simp [unread] at time
      · simp [unread] at read
    · rfl

theorem Unextended.extend_eq (kept : Unextended library policy payload) :
    extendJobTimeoutUntilPlannedWake library policy payload = some payload := by
  by_cases closed : policy.enabled = false ∨ 24 ≤ policy.windowEndHour ∨
      typeIn JobType.automaticWake payload = false
  · exact extend_of_closed closed
  · have on : policy.enabled = true ∧ policy.windowEndHour < 24 := by
      simp only [not_or, Bool.not_eq_false, not_le] at closed
      exact ⟨closed.1, closed.2.1⟩
    have type : typeIn JobType.automaticWake payload = true := by
      simp only [not_or, Bool.not_eq_false] at closed
      exact closed.2.2
    cases time : readField library.int "timeout" payload with
    | none => exact extend_of_unread (.inl time)
    | some timeout =>
        cases kept with
        | policy off => exact absurd (off.imp_right .inl) closed
        | type other => exact absurd (.inr (.inr other)) closed
        | timeout unread => exact extend_of_unread (.inl unread)
        | createdAt unread => exact extend_of_unread (.inr unread)
        | outside reads away undeferred =>
            rw [extend_of_reads on type time reads, if_pos ⟨away, undeferred⟩]
        | past reads calendar passed =>
            rw [extend_of_reads on type time reads, if_pos calendar, if_pos passed, ite_self]

theorem Extended.extend_eq {timeout : Int} {current : Shown}
    (raised : Extended library policy payload timeout current) :
    extendJobTimeoutUntilPlannedWake library policy payload =
      some (payload.set "timeout".toList (.number (.ofInt
        (timeout + library.secondsUntilWake policy current + policy.timeoutSeconds)))) := by
  have grouped : ¬ (¬ policy.InWindow current ∧ typeIn JobType.deferredToBatch payload = false) := by
    rintro ⟨away, undeferred⟩
    rcases raised.grouped with inside | deferred
    · exact away inside
    · simp [deferred] at undeferred
  rw [extend_of_reads raised.enabled raised.type raised.timeout raised.reads, if_neg grouped,
    if_pos raised.calendar, if_neg (Int.not_le.mpr raised.future)]

/-- A payload that comes back was kept, or its timeout was raised. -/
theorem extend_eq_some (returned : extendJobTimeoutUntilPlannedWake library policy payload =
      some extended) :
    (Unextended library policy payload ∧ extended = payload) ∨
      ∃ timeout current, Extended library policy payload timeout current := by
  by_cases kept : Unextended library policy payload
  · exact .inl ⟨kept, Option.some.inj (returned.symm.trans kept.extend_eq)⟩
  · right
    have on : policy.enabled = true ∧ policy.windowEndHour < 24 := by
      by_contra off
      refine kept (.policy ?_)
      cases enabled : policy.enabled
      · exact .inl rfl
      · exact .inr (Nat.not_lt.mp fun small => off ⟨enabled, small⟩)
    have type : typeIn JobType.automaticWake payload = true := by
      by_contra other
      exact kept (.type (Bool.not_eq_true _ ▸ other))
    cases time : readField library.int "timeout" payload with
    | none => exact absurd (.timeout time) kept
    | some timeout =>
        cases read : readField library.fromisoformat "created_at" payload with
        | none => exact absurd (.createdAt read) kept
        | some createdAt =>
            cases shown : library.current policy createdAt with
            | none =>
                have open_ : ¬ (policy.enabled = false ∨ 24 ≤ policy.windowEndHour ∨
                    typeIn JobType.automaticWake payload = false) := by
                  simp [on, type]
                rw [extendJobTimeoutUntilPlannedWake, if_neg open_, time, read] at returned
                simp [shown] at returned
            | some current =>
                have reads : library.Reads policy payload current := ⟨createdAt, read, shown⟩
                rw [extend_of_reads on type time reads] at returned
                split at returned
                · rename_i away
                  exact absurd (.outside reads away.1 away.2) kept
                · rename_i grouped
                  split at returned
                  · rename_i calendar
                    refine ⟨timeout, current, on, type, time, reads, ?_, calendar, ?_⟩
                    · by_cases inside : policy.InWindow current
                      · exact .inl inside
                      · exact .inr (Bool.not_eq_false _ ▸ fun undeferred =>
                          grouped ⟨inside, undeferred⟩)
                    · by_contra passed
                      exact kept (.past reads calendar (Int.not_lt.mp passed))
                  · simp at returned

/-! ## When the extension is acceptable -/

section Acceptable

variable {contract : Coercion} {request : JobCreate}
  (numbers : ∀ n, contract.integer (.number (.ofInt n)) = some n)
  (agree : ∀ value n m, contract.integer value = some n → library.int value = some m → m = n)

include numbers agree

omit numbers in
/-- The service and the contract read the same timeout. -/
theorem Extended.timeout_eq {timeout : Int} {current : Shown}
    (raised : Extended library policy payload timeout current)
    (accepted : contract.validate payload = .ok request) : timeout = request.timeout := by
  obtain ⟨read, payloadRead, valid⟩ := Coercion.validate_eq_ok.mp accepted
  obtain ⟨_, _, _, _, _, _, fieldRead⟩ := Coercion.payload_eq_some.mp payloadRead
  obtain ⟨_, _, _, _, _, time⟩ := validate_eq_ok.mp valid
  obtain ⟨entry, found, entryRead⟩ := Option.bind_eq_some_iff.mp fieldRead
  have serviceRead : library.int entry = some timeout := by
    have := raised.timeout
    rwa [readField, found, Option.bind_some] at this
  exact (agree entry _ _ entryRead serviceRead).trans time

/-- The request of the extended payload is the request with the raised
timeout. -/
theorem Extended.validate_iff {timeout : Int} {current : Shown}
    (raised : Extended library policy payload timeout current)
    (accepted : contract.validate payload = .ok request) {renewed : JobCreate} :
    contract.validate (payload.set "timeout".toList (.number (.ofInt
        (timeout + library.secondsUntilWake policy current + policy.timeoutSeconds)))) =
      .ok renewed ↔
    request.jobId = renewed.jobId ∧ request.type = renewed.type ∧
      request.createdAt = renewed.createdAt ∧ request.createdOffset = renewed.createdOffset ∧
      request.parameters = renewed.parameters ∧
      request.timeout + library.secondsUntilWake policy current + policy.timeoutSeconds =
        renewed.timeout := by
  have same := raised.timeout_eq agree accepted
  obtain ⟨read, payloadRead, valid⟩ := Coercion.validate_eq_ok.mp accepted
  obtain ⟨version, jobId, type, created, parameters, _⟩ := validate_eq_ok.mp valid
  rw [Coercion.validate, Coercion.payload_set_timeout payloadRead (numbers _)]
  simp only [validate_eq_ok, version, jobId, type, created, parameters, same, true_and,
    Stamp.aware.injEq, and_assoc]

/-- The extension of an accepted payload is accepted again, and covers the next
planned wake with the wake timeout and the original timeout, exactly when the
service passes the payload on as it is, or when the raised timeout stays within
a day and the service does not read a creation time nearer to the wake than the
contract does. -/
theorem extended_acceptable_iff (accepted : contract.validate payload = .ok request) :
    (∃ extended renewed,
      extendJobTimeoutUntilPlannedWake library policy payload = some extended ∧
      contract.validate extended = .ok renewed ∧
      (extended ≠ payload →
        library.nextPlannedWake policy request.createdAt + seconds policy.timeoutSeconds +
            seconds request.timeout ≤
          renewed.createdAt + seconds renewed.timeout)) ↔
    Unextended library policy payload ∨
      ∃ timeout current, Extended library policy payload timeout current ∧
        request.timeout + library.secondsUntilWake policy current + policy.timeoutSeconds ≤ 86400 ∧
        library.nextPlannedWake policy request.createdAt - request.createdAt ≤
          library.secondsUntilWake policy current * second := by
  constructor
  · rintro ⟨extended, renewed, returned, valid, covers⟩
    rcases extend_eq_some returned with ⟨kept, -⟩ | ⟨timeout, current, raised⟩
    · exact .inl kept
    · have equal := Option.some.inj (returned.symm.trans raised.extend_eq)
      have read := valid
      rw [equal, raised.validate_iff numbers agree accepted] at read
      obtain ⟨_, _, created, _, _, time⟩ := read
      have positive : 0 < library.secondsUntilWake policy current :=
        ceilSeconds_pos_iff.mpr (Int.sub_pos.mpr raised.future)
      have changed : extended ≠ payload := by
        rintro rfl
        obtain rfl := Except.ok.inj (accepted.symm.trans valid)
        omega
      have covered := covers changed
      have bounds := renewed.timeout_bounds
      refine .inr ⟨timeout, current, raised, by omega, ?_⟩
      simp only [seconds, ← created, ← time, second] at covered ⊢
      omega
  · rintro (kept | ⟨timeout, current, raised, fits, nearer⟩)
    · exact ⟨payload, request, kept.extend_eq, accepted, fun changed => absurd rfl changed⟩
    · have positive : 0 < library.secondsUntilWake policy current :=
        ceilSeconds_pos_iff.mpr (Int.sub_pos.mpr raised.future)
      have bounds := request.timeout_bounds
      have total : ((request.timeout + library.secondsUntilWake policy current +
          policy.timeoutSeconds).toNat : Int) =
          request.timeout + library.secondsUntilWake policy current + policy.timeoutSeconds := by
        omega
      refine ⟨_, { request with
          timeout := (request.timeout + library.secondsUntilWake policy current +
            policy.timeoutSeconds).toNat
          timeout_bounds := by omega }, raised.extend_eq, ?_, fun _ => ?_⟩
      · rw [raised.validate_iff numbers agree accepted]
        exact ⟨rfl, rfl, rfl, rfl, rfl, total.symm⟩
      · simp only [seconds, total, second] at nearer ⊢
        omega

end Acceptable

/-- A creation time that the service reads as the contract does is never nearer
to the wake. -/
theorem nearer_of_aware {createdAt : Int} {current : Shown} {offset : Int}
    (shown : library.current policy (.aware createdAt offset) = some current) :
    library.nextPlannedWake policy createdAt - createdAt ≤
      library.secondsUntilWake policy current * second := by
  simp only [Library.current, astimezone] at shown
  split at shown
  · obtain rfl := Option.some.inj shown
    exact le_ceilSeconds _
  · simp at shown

/-! ## The daily log check -/

/-- The default policy with wake enabled. -/
def WakePolicy.default : WakePolicy where
  enabled := true
  windowStartHour := 0
  windowEndHour := 5
  timeoutSeconds := 180
  scheduleTimezone := localTimezone
  window_bounds := by decide
  timeout_bounds := by decide

/-- 2026-01-15T05:00:00+01:00 and an hour later. -/
def batchTime : Int := 1768449600 * second

/-- A reader of whole numbers. -/
def readInteger : Value → Option Int
  | .number number => number.toInt?
  | _ => none

/-- A reader of these two datetimes. -/
def readWinterStamp : Value → Option Stamp
  | .string text => ([batchTime, batchTime + hour].find? fun instant =>
      isoText hour instant = text).map fun instant => .aware instant hour
  | _ => none

def readString : Value → Option Text
  | .string text => some text
  | _ => none

/-- Winter time everywhere. -/
def winterLibrary : Library where
  zoneInfo := fun _ => ⟨⟨fun _ => hour⟩, fun _ => hour⟩
  int := readInteger
  fromisoformat := readWinterStamp

def winterContract : Coercion where
  protocolVersion := fun value => (readInteger value).map Int.toNat
  uuid := readString
  string := readString
  datetime := readWinterStamp
  integer := readInteger

/-- The body of the log check that `request_log_health_check` makes. -/
def logCheck (createdAt : Int) : Fields :=
  .ofList [
    ("protocol_version".toList, .number (.ofInt 1)),
    ("job_id".toList, .string "00000000-0000-4000-8000-000000000003".toList),
    ("type".toList, .string "logs.health_check".toList),
    ("created_at".toList, .string (isoText hour createdAt)),
    ("parameters".toList, .object (.ofList [
      ("sources".toList, .array (.ofList [.string "infra-01".toList])),
      ("window_started_at".toList, .string (isoText hour (createdAt - day))),
      ("window_ended_at".toList, .string (isoText hour createdAt)),
      ("max_bytes_per_source".toList, .number (.ofInt 2097152)),
      ("baseline".toList, .array .nil),
      ("incident_id".toList, .atom .null)])),
    ("timeout".toList, .number (.ofInt 900))]

/-- The request of a body, if it is accepted. -/
def Coercion.accepts (contract : Coercion) (body : Fields) : Bool :=
  match contract.validate body with
  | .ok _ => true
  | .error _ => false

/-- The request of the log check at 06:00. -/
def laterLogCheckRequest : JobCreate where
  jobId := "00000000-0000-4000-8000-000000000003".toList
  type := "logs.health_check".toList
  createdAt := batchTime + hour
  createdOffset := hour
  parameters := ((logCheck (batchTime + hour)).lookup "parameters".toList >>= objectFields).getD .nil
  timeout := 900
  typeName := by decide +kernel
  timeout_bounds := by decide

theorem validate_laterLogCheck :
    winterContract.validate (logCheck (batchTime + hour)) = .ok laterLogCheckRequest := by
  refine Coercion.validate_eq_ok.mpr ⟨⟨1, laterLogCheckRequest.jobId, laterLogCheckRequest.type,
    .aware (batchTime + hour) hour, laterLogCheckRequest.parameters, 900⟩,
    Coercion.payload_eq_some.mpr ?_, validate_eq_ok.mpr ⟨rfl, rfl, rfl, rfl, rfl, rfl⟩⟩
  decide +kernel

/-- The log check of 06:00 waits for the next batch. -/
theorem laterLogCheck_extended :
    Extended winterLibrary .default (logCheck (batchTime + hour)) 900
      ⟨batchTime + hour, batchTime + 2 * hour⟩ where
  enabled := by decide
  type := by decide +kernel
  timeout := by decide +kernel
  reads := ⟨.aware (batchTime + hour) hour, by decide +kernel, rfl⟩
  grouped := .inr (by decide +kernel)
  calendar := by decide +kernel
  future := by decide +kernel

/-- The log check of 06:00 is accepted with its raised timeout. -/
theorem laterLogCheck_acceptable :
    ∃ extended renewed,
      extendJobTimeoutUntilPlannedWake winterLibrary .default (logCheck (batchTime + hour)) =
        some extended ∧
      winterContract.validate extended = .ok renewed ∧
      (extended ≠ logCheck (batchTime + hour) →
        winterLibrary.nextPlannedWake .default (batchTime + hour) + seconds 180 + seconds 900 ≤
          renewed.createdAt + seconds renewed.timeout) :=
  (extended_acceptable_iff (fun n => Number.toInt?_ofInt n)
    (fun _ _ _ first second => Option.some.inj (second.symm.trans first))
    validate_laterLogCheck).mpr
    (.inr ⟨900, _, laterLogCheck_extended, by decide +kernel,
      @nearer_of_aware winterLibrary .default (batchTime + hour) _ hour rfl⟩)

/-- The log check of 05:00 is an accepted request, and its extension is not. -/
theorem logCheck_at_batch_rejected :
    winterContract.accepts (logCheck batchTime) = true ∧
    (extendJobTimeoutUntilPlannedWake winterLibrary .default (logCheck batchTime)).map
        (fun extended => (readField readInteger "timeout" extended,
          winterContract.accepts extended)) =
      some (some 87480, false) := by
  decide +kernel

end OhanaAgent.Jobs
