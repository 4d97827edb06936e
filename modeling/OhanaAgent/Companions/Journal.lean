import OhanaAgent.Companions.Repository
import OhanaAgent.Transition.Trace

/-!
# The journal of the companion repository

What the answers of the calls say: requests opened with their secret, decisions,
tokens delivered, revocations and push registrations.  One lemma says what a call
can do to the tables and which event it adds.
-/

namespace OhanaAgent.Companions

open Encoding.Json (Text)
open Store
open Time
open Transition

variable {env : Environment} {config : Config} {now : Instant} {db after : Database}

/-- A request opened by a creation, with the secret and the expiry it returned. -/
structure Opening where
  pairingId : Text
  deviceId : Text
  secret : Text
  expiresAt : Instant

/-- A token delivered to a poll, with the secret that the poll presented. -/
structure Delivery where
  pairingId : Text
  deviceId : Text
  secret : Text
  token : Text
  deliveredAt : Instant
  expiresAt : Instant

inductive Event where
  | created (opening : Opening)
  | approved (pairingId : Text)
  | rejected (pairingId : Text)
  | consumed (delivery : Delivery)
  | revoked (deviceId : Text)
  | registered (deviceId : Text)

/-- The device that a pairing was opened for. -/
def Database.deviceOf (db : Database) (pairingId : Text) : Text :=
  (db.pairings.find? pairingId).elim [] PairingRow.deviceId

/-- The events of a call, from its reply. -/
def Call.events (call : Call) (db : Database) (reply : Reply) : List Event :=
  match call.operation, reply with
  | .createPairing payload _ _ _, .ok (.created document) =>
      [.created ⟨document.pairingId, strip payload.deviceId, document.pollingSecret,
        document.expiresAt⟩]
  | .approvePairing pairingId, .ok _ => [.approved pairingId]
  | .rejectPairing pairingId, .ok _ => [.rejected pairingId]
  | .pollPairing pairingId payload _, .ok (.result document) =>
      document.companionToken.toList.map fun token =>
        .consumed ⟨pairingId, db.deviceOf pairingId, strip payload.pollingSecret, token, call.now,
          document.tokenExpiresAt.getD call.now⟩
  | .revoke deviceId, .ok _ => [.revoked deviceId]
  | .registerPushToken deviceId _, .ok (.registered answer) =>
      if answer.enabled then [.registered deviceId] else []
  | _, _ => []

/-- The tables and the events so far. -/
structure History where
  db : Database
  journal : List Event

def History.empty : History :=
  ⟨Database.empty, []⟩

/-- The history after one call. -/
def record (env : Environment) (config : Config) (history : History) (call : Call) : History where
  db := (call.run env config history.db).2
  journal := history.journal ++ call.events history.db (call.run env config history.db).1

/-- The history of a run from new tables. -/
def history (env : Environment) (config : Config) (calls : List Call) : History :=
  reached (record env config) History.empty calls

/-! ## The operations -/

theorem rows_expirePairings (db : Database) :
    (db.expirePairings now).pairings.rows = db.pairings.rows.map (PairingRow.swept now) := rfl

theorem mem_updatePairing_iff {pairingId : Text} {f : PairingRow → PairingRow}
    {keeps : ∀ row, (f row).pairingId = row.pairingId} {row : PairingRow} :
    row ∈ (db.updatePairing pairingId f keeps).pairings ↔
      (∃ source ∈ db.pairings, source.pairingId = pairingId ∧ f source = row) ∨
        (row ∈ db.pairings ∧ row.pairingId ≠ pairingId) := by
  simp only [Database.updatePairing, Table.mem_modify]

theorem mem_updateCredential_iff {deviceId : Text} {f : CredentialRow → CredentialRow}
    {keeps : ∀ row, (f row).deviceId = row.deviceId} {row : CredentialRow} :
    row ∈ (db.updateCredential deviceId f keeps).credentials ↔
      (∃ source ∈ db.credentials, source.deviceId = deviceId ∧ f source = row) ∨
        (row ∈ db.credentials ∧ row.deviceId ≠ deviceId) := by
  simp only [Database.updateCredential, Table.mem_modify]

theorem mem_disablePushToken_iff {deviceId : Text} {row : PushRow} :
    row ∈ (db.disablePushToken deviceId).pushTokens ↔
      (∃ source ∈ db.pushTokens, source.deviceId = deviceId ∧
        { source with enabled := false } = row) ∨
        (row ∈ db.pushTokens ∧ row.deviceId ≠ deviceId) := by
  simp only [Database.disablePushToken, Table.mem_modify]

theorem requiredPairing_eq_ok {pairingId : Text} {row : PairingRow} :
    db.requiredPairing pairingId = .ok row ↔ db.pairings.find? pairingId = some row := by
  unfold Database.requiredPairing
  cases db.pairings.find? pairingId <;> simp

theorem requiredDevice_eq_ok {deviceId : Text} {row : CredentialRow} :
    db.requiredDevice deviceId = .ok row ↔ db.credentials.find? deviceId = some row := by
  unfold Database.requiredDevice
  cases db.credentials.find? deviceId <;> simp

theorem deviceId_of_validate {payload : PairingPayload} {request : PairingRequest}
    (valid : PairingRequest.validate payload = .ok request) :
    request.deviceId = strip payload.deviceId := by
  unfold PairingRequest.validate at valid
  split at valid
  · contradiction
  · split at valid
    · split at valid
      · split at valid
        · split at valid
          · cases valid
            rfl
          · contradiction
        · contradiction
      · contradiction
    · contradiction

theorem secret_of_validate {payload : PollPayload} {secret : Text}
    (valid : payload.validate = .ok secret) : secret = strip payload.pollingSecret := by
  unfold PollPayload.validate at valid
  split at valid
  · contradiction
  · split at valid
    · cases valid
      rfl
    · contradiction

/-- A creation appends a pairing with a new identifier. -/
theorem createPairing_eq_ok {payload : PairingPayload} {pairingId secret code : Text}
    {answer : PairingCreated}
    (done : db.createPairing env config now payload pairingId secret code = .ok (answer, after)) :
    ∃ request expiresAt, PairingRequest.validate payload = .ok request ∧
      (∀ other ∈ (db.expirePairings now).pairings, other.pairingId ≠ pairingId) ∧
      after.pairings.rows = (db.expirePairings now).pairings.rows ++
        [request.pairing env config now expiresAt pairingId secret code] ∧
      after.credentials = db.credentials ∧ after.pushTokens = db.pushTokens ∧
      answer = ⟨pairingId, secret, code, expiresAt, config.tlsCaSha256,
        config.tlsCaCertificatePem⟩ := by
  simp only [Database.createPairing, bind_eq_ok] at done
  obtain ⟨request, valid, expiresAt, _, done⟩ := done
  split at done
  · simp at done
  · split at done
    · simp at done
    · split at done
      · simp at done
      · rename_i pairings inserted
        simp only [pure_eq_ok, Prod.mk.injEq] at done
        obtain ⟨rfl, rfl⟩ := done
        obtain ⟨fresh, rows⟩ := Table.insert?_eq_some_iff.mp inserted
        exact ⟨request, expiresAt, valid, fresh, rows, rfl, rfl, rfl⟩

theorem approvePairing_eq_ok {pairingId : Text} {answer : PairingDocument}
    (done : db.approvePairing now pairingId = .ok (answer, after)) :
    ∃ old, (db.expirePairings now).pairings.find? pairingId = some old ∧
      ((old.status = .approved ∧ after = db.expirePairings now) ∨
        (old.status = .pending ∧ after = (db.expirePairings now).updatePairing pairingId
          (PairingRow.approved now) fun _ => rfl)) := by
  simp only [Database.approvePairing, bind_eq_ok, requiredPairing_eq_ok] at done
  obtain ⟨old, found, done⟩ := done
  split at done
  · rename_i approved
    simp only [pure_eq_ok, Prod.mk.injEq] at done
    exact ⟨old, found, Or.inl ⟨approved, done.2.symm⟩⟩
  · split at done
    · simp at done
    · rename_i pending
      simp only [bind_eq_ok, pure_eq_ok, Prod.mk.injEq] at done
      obtain ⟨_, _, _, rfl⟩ := done
      exact ⟨old, found, Or.inr ⟨not_not.mp pending, rfl⟩⟩

theorem rejectPairing_eq_ok {pairingId : Text} {answer : PairingDocument}
    (done : db.rejectPairing now pairingId = .ok (answer, after)) :
    ∃ old, (db.expirePairings now).pairings.find? pairingId = some old ∧
      ((old.status = .rejected ∧ after = db.expirePairings now) ∨
        (old.status.live = true ∧ after = (db.expirePairings now).updatePairing pairingId
          PairingRow.rejected fun _ => rfl)) := by
  simp only [Database.rejectPairing, bind_eq_ok, requiredPairing_eq_ok] at done
  obtain ⟨old, found, done⟩ := done
  split at done
  · rename_i rejected
    simp only [pure_eq_ok, Prod.mk.injEq] at done
    exact ⟨old, found, Or.inl ⟨rejected, done.2.symm⟩⟩
  · split at done
    · simp at done
    · rename_i live
      simp only [bind_eq_ok, pure_eq_ok, Prod.mk.injEq] at done
      obtain ⟨_, _, _, rfl⟩ := done
      exact ⟨old, found, Or.inr ⟨by simpa using live, rfl⟩⟩

/-- A poll presents the secret of a pairing, and takes a token when the pairing
is approved. -/
theorem pollPairing_eq_ok {pairingId token : Text} {payload : PollPayload} {answer : PairingResult}
    (done : db.pollPairing env config now pairingId payload token = .ok (answer, after)) :
    ∃ old, (db.expirePairings now).pairings.find? pairingId = some old ∧
      old.pollingSecretSha256 = env.sha256 (strip payload.pollingSecret) ∧
      ((old.status = .approved ∧ answer.companionToken = some token ∧
          ∃ expiresAt, answer.tokenExpiresAt = some expiresAt ∧
            after = (db.expirePairings now).delivered now pairingId
              (old.credential env now token expiresAt)) ∨
        (answer.companionToken = none ∧ after = db.expirePairings now)) := by
  simp only [Database.pollPairing, bind_eq_ok, requiredPairing_eq_ok] at done
  obtain ⟨secret, valid, old, found, done⟩ := done
  cases secret_of_validate valid
  split at done
  · simp at done
  · rename_i secretMatches
    refine ⟨old, found, not_not.mp secretMatches, ?_⟩
    split at done
    · rename_i approved
      simp only [bind_eq_ok, pure_eq_ok, Prod.mk.injEq] at done
      obtain ⟨expiresAt, _, _, _, rfl, rfl⟩ := done
      exact Or.inl ⟨approved, rfl, expiresAt, rfl, rfl⟩
    · simp only [pure_eq_ok, Prod.mk.injEq] at done
      obtain ⟨rfl, rfl⟩ := done
      exact Or.inr ⟨rfl, rfl⟩

theorem credentials_revoked (db : Database) (deviceId : Text) :
    (db.revoked now deviceId).credentials = (db.updateCredential deviceId
      (fun row => { row with revokedAt := some now }) fun _ => rfl).credentials := rfl

theorem revoke_eq_ok {deviceId : Text} {answer : DeviceDocument}
    (done : db.revoke now deviceId = .ok (answer, after)) :
    ∃ credential, db.credentials.find? deviceId = some credential ∧
      ((credential.revokedAt = none ∧ after = db.revoked now deviceId) ∨
        (credential.revokedAt.isSome = true ∧ after = db)) := by
  simp only [Database.revoke, bind_eq_ok, requiredDevice_eq_ok] at done
  obtain ⟨credential, found, row, _, done⟩ := done
  simp only [pure_eq_ok, Prod.mk.injEq] at done
  obtain ⟨_, rfl⟩ := done
  refine ⟨credential, found, ?_⟩
  cases credential.revokedAt with
  | none => exact Or.inl ⟨rfl, rfl⟩
  | some at_ => exact Or.inr ⟨rfl, rfl⟩

theorem registerPushToken_eq_ok {deviceId : Text} {payload : PushPayload} {answer : PushAnswer}
    (done : db.registerPushToken now deviceId payload = .ok (answer, after)) :
    ∃ (credential : CredentialRow) (request : PushRegistration),
      db.credentials.find? deviceId = some credential ∧ credential.revokedAt = none ∧
        answer.enabled = request.enabled ∧
        after = { db with pushTokens := db.pushTokens.upsert (request.pushRow deviceId now) } := by
  simp only [Database.registerPushToken, bind_eq_ok, requiredDevice_eq_ok] at done
  obtain ⟨request, _, credential, found, done⟩ := done
  split at done
  · simp at done
  · rename_i active
    simp only [pure_eq_ok, Prod.mk.injEq] at done
    obtain ⟨rfl, rfl⟩ := done
    exact ⟨credential, request, found, by simpa using active, rfl, rfl⟩

/-! ## One call -/

/-- What a call can make of the tables, with its event. -/
inductive Effect (env : Environment) (config : Config) (now : Instant) (db : Database) :
    Database → List Event → Prop where
  | nothing : Effect env config now db db []
  | swept : Effect env config now db (db.expirePairings now) []
  | seen (deviceId : Text) :
      Effect env config now db (db.updateCredential deviceId
        (fun row => { row with lastSeenAt := some now }) fun _ => rfl) []
  | created (request : PairingRequest) (expiresAt : Instant) (pairingId secret code : Text)
      (after : Database)
      (fresh : ∀ other ∈ (db.expirePairings now).pairings, other.pairingId ≠ pairingId)
      (pairings : after.pairings.rows = (db.expirePairings now).pairings.rows ++
        [request.pairing env config now expiresAt pairingId secret code])
      (credentials : after.credentials = db.credentials)
      (pushTokens : after.pushTokens = db.pushTokens) :
      Effect env config now db after
        [.created ⟨pairingId, request.deviceId, secret, expiresAt⟩]
  | approvedAgain (pairingId : Text) (old : PairingRow)
      (found : (db.expirePairings now).pairings.find? pairingId = some old)
      (status : old.status = .approved) :
      Effect env config now db (db.expirePairings now) [.approved pairingId]
  | approved (pairingId : Text) (old : PairingRow)
      (found : (db.expirePairings now).pairings.find? pairingId = some old)
      (status : old.status = .pending) :
      Effect env config now db ((db.expirePairings now).updatePairing pairingId
        (PairingRow.approved now) fun _ => rfl) [.approved pairingId]
  | rejectedAgain (pairingId : Text) (old : PairingRow)
      (found : (db.expirePairings now).pairings.find? pairingId = some old)
      (status : old.status = .rejected) :
      Effect env config now db (db.expirePairings now) [.rejected pairingId]
  | rejected (pairingId : Text) (old : PairingRow)
      (found : (db.expirePairings now).pairings.find? pairingId = some old) :
      Effect env config now db ((db.expirePairings now).updatePairing pairingId
        PairingRow.rejected fun _ => rfl) [.rejected pairingId]
  | consumed (pairingId secret token : Text) (expiresAt : Instant) (old : PairingRow)
      (found : (db.expirePairings now).pairings.find? pairingId = some old)
      (proved : old.pollingSecretSha256 = env.sha256 secret) (status : old.status = .approved) :
      Effect env config now db
        ((db.expirePairings now).delivered now pairingId (old.credential env now token expiresAt))
        [.consumed ⟨pairingId, old.deviceId, secret, token, now, expiresAt⟩]
  | revokedAgain (deviceId : Text) (credential : CredentialRow)
      (found : db.credentials.find? deviceId = some credential)
      (status : credential.revokedAt.isSome = true) :
      Effect env config now db db [.revoked deviceId]
  | revoked (deviceId : Text) (credential : CredentialRow)
      (found : db.credentials.find? deviceId = some credential) :
      Effect env config now db (db.revoked now deviceId) [.revoked deviceId]
  | registered (deviceId : Text) (credential : CredentialRow) (request : PushRegistration)
      (found : db.credentials.find? deviceId = some credential)
      (status : credential.revokedAt = none) :
      Effect env config now db
        { db with pushTokens := db.pushTokens.upsert (request.pushRow deviceId now) }
        (if request.enabled then [.registered deviceId] else [])
  | disabled (deviceId : Text) : Effect env config now db (db.disablePushToken deviceId) []

/-- A call adds at most one event. -/
theorem Effect.events_cases {events : List Event}
    (effect : Effect env config now db after events) : events = [] ∨ ∃ event, events = [event] := by
  cases effect with
  | nothing | swept | seen | disabled => exact Or.inl rfl
  | registered deviceId credential request found status =>
      split
      · exact Or.inr ⟨_, rfl⟩
      · exact Or.inl rfl
  | _ => exact Or.inr ⟨_, rfl⟩

theorem deviceOf_eq {pairingId : Text} {old : PairingRow}
    (found : (db.expirePairings now).pairings.find? pairingId = some old) :
    db.deviceOf pairingId = old.deviceId := by
  obtain ⟨member, same⟩ := Table.find?_eq_some_iff.mp found
  rw [Table.mem_def, rows_expirePairings] at member
  obtain ⟨row, rowMem, rfl⟩ := List.mem_map.mp member
  have keeps : (row.swept now).pairingId = row.pairingId ∧
      (row.swept now).deviceId = row.deviceId := by
    unfold PairingRow.swept
    split <;> exact ⟨rfl, rfl⟩
  have source : db.pairings.find? pairingId = some row :=
    Table.find?_eq_some_iff.mpr ⟨rowMem, keeps.1 ▸ same⟩
  rw [Database.deviceOf, source, keeps.2]
  rfl

/-- Every call has one of the effects. -/
theorem effect_run (env : Environment) (config : Config) (call : Call) (db : Database) :
    Effect env config call.now db (call.run env config db).2
      (call.events db (call.run env config db).1) := by
  obtain ⟨now, operation⟩ := call
  cases operation with
  | createPairing payload pairingId secret code =>
      rcases commit_cases (Database.createPairing env config now payload pairingId secret code) db
        with ⟨answer, after, done, outcome⟩ | ⟨failure, _, outcome⟩
      · obtain ⟨request, expiresAt, valid, fresh, pairings, credentials, pushTokens, rfl⟩ :=
          createPairing_eq_ok done
        simp only [Call.run, Call.events, answering, outcome, Except.map,
          ← deviceId_of_validate valid]
        exact .created request expiresAt pairingId secret code after fresh pairings credentials
          pushTokens
      · simp only [Call.run, Call.events, answering, outcome, Except.map]
        exact .nothing
  | listPairings => exact .swept
  | approvePairing pairingId =>
      rcases commit_cases (Database.approvePairing now pairingId) db
        with ⟨answer, after, done, outcome⟩ | ⟨failure, _, outcome⟩
      · simp only [Call.run, Call.events, answering, outcome, Except.map]
        obtain ⟨old, found, ⟨status, rfl⟩ | ⟨status, rfl⟩⟩ := approvePairing_eq_ok done
        · exact .approvedAgain pairingId old found status
        · exact .approved pairingId old found status
      · simp only [Call.run, Call.events, answering, outcome, Except.map]
        exact .nothing
  | rejectPairing pairingId =>
      rcases commit_cases (Database.rejectPairing now pairingId) db
        with ⟨answer, after, done, outcome⟩ | ⟨failure, _, outcome⟩
      · simp only [Call.run, Call.events, answering, outcome, Except.map]
        obtain ⟨old, found, ⟨status, rfl⟩ | ⟨_, rfl⟩⟩ := rejectPairing_eq_ok done
        · exact .rejectedAgain pairingId old found status
        · exact .rejected pairingId old found
      · simp only [Call.run, Call.events, answering, outcome, Except.map]
        exact .nothing
  | pollPairing pairingId payload token =>
      rcases commit_cases (Database.pollPairing env config now pairingId payload token) db
        with ⟨answer, after, done, outcome⟩ | ⟨failure, _, outcome⟩
      · simp only [Call.run, Call.events, answering, outcome, Except.map]
        obtain ⟨old, found, proved, ⟨status, given, expiresAt, until_, rfl⟩ | ⟨withheld, rfl⟩⟩ :=
          pollPairing_eq_ok done
        · rw [given, until_, deviceOf_eq found]
          exact .consumed pairingId _ token expiresAt old found proved status
        · rw [withheld]
          exact .swept
      · simp only [Call.run, Call.events, answering, outcome, Except.map]
        exact .nothing
  | authorize deviceId token =>
      simp only [Call.run, Call.events, Database.authorize]
      split
      · exact .nothing
      · split
        · exact .nothing
        · exact .seen deviceId
  | listDevices => exact .nothing
  | revoke deviceId =>
      rcases commit_cases (Database.revoke now deviceId) db
        with ⟨answer, after, done, outcome⟩ | ⟨failure, _, outcome⟩
      · simp only [Call.run, Call.events, answering, outcome, Except.map]
        obtain ⟨credential, found, ⟨_, rfl⟩ | ⟨status, rfl⟩⟩ := revoke_eq_ok done
        · exact .revoked deviceId credential found
        · exact .revokedAgain deviceId credential found status
      · simp only [Call.run, Call.events, answering, outcome, Except.map]
        exact .nothing
  | registerPushToken deviceId payload =>
      rcases commit_cases (Database.registerPushToken now deviceId payload) db
        with ⟨answer, after, done, outcome⟩ | ⟨failure, _, outcome⟩
      · simp only [Call.run, Call.events, answering, outcome, Except.map]
        obtain ⟨credential, request, found, status, enabled, rfl⟩ := registerPushToken_eq_ok done
        rw [enabled]
        exact .registered deviceId credential request found status
      · simp only [Call.run, Call.events, answering, outcome, Except.map]
        exact .nothing
  | pushTargets environment => exact .nothing
  | disablePushToken deviceId => exact .disabled deviceId

end OhanaAgent.Companions
