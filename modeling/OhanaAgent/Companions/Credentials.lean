import OhanaAgent.Companions.Journal

/-!
# Companion credentials

Every pairing comes from a creation and carries the approval that its status
claims; a pairing that was rejected or consumed is over.  Every credential is the
last one delivered for its device, and a device that was revoked has no enabled
push address until it registers one with a new credential.
-/

namespace OhanaAgent.Companions

open Encoding.Json (Text)
open Store
open Time
open Transition

variable {env : Environment} {config : Config} {now : Instant} {db after : Database}
  {journal events : List Event}

/-! ## Pairings -/

/-- The token of a pairing was due: to the secret of its creation, after an
approval, before the expiry, and neither after a rejection nor a second time. -/
structure Due (earlier : List Event) (delivery : Delivery) : Prop where
  approved : ∃ before between opening, earlier = before ++ .created opening :: between ∧
    opening.pairingId = delivery.pairingId ∧ opening.deviceId = delivery.deviceId ∧
    opening.secret = delivery.secret ∧ .approved delivery.pairingId ∈ between ∧
    delivery.deliveredAt.val < opening.expiresAt.val
  notRejected : .rejected delivery.pairingId ∉ earlier
  first : ∀ other, .consumed other ∈ earlier → other.pairingId ≠ delivery.pairingId

/-- A pairing comes from a creation, and from an approval when it is approved. -/
def Traced (env : Environment) (journal : List Event) (row : PairingRow) : Prop :=
  ∃ before between opening, journal = before ++ .created opening :: between ∧
    opening.pairingId = row.pairingId ∧ opening.deviceId = row.deviceId ∧
    env.sha256 opening.secret = row.pollingSecretSha256 ∧ opening.expiresAt = row.expiresAt ∧
    (row.status = .approved → .approved row.pairingId ∈ between)

/-- The event ends its pairing. -/
def Closes (pairingId : Text) : Event → Prop
  | .rejected other => other = pairingId
  | .consumed delivery => delivery.pairingId = pairingId
  | _ => False

/-- The pairings agree with the journal. -/
structure Recorded (env : Environment) (journal : List Event) (db : Database) : Prop where
  traced : ∀ row ∈ db.pairings, Traced env journal row
  closed : ∀ pairingId, (∃ event ∈ journal, Closes pairingId event) →
    ∃ row ∈ db.pairings, row.pairingId = pairingId ∧ row.status.live = false

/-- The row is the same pairing, and its status is no earlier one. -/
structure Continues (events : List Event) (row next : PairingRow) : Prop where
  pairingId : next.pairingId = row.pairingId
  deviceId : next.deviceId = row.deviceId
  secret : next.pollingSecretSha256 = row.pollingSecretSha256
  expiresAt : next.expiresAt = row.expiresAt
  approved : next.status = .approved → row.status = .approved ∨ .approved row.pairingId ∈ events
  live : next.status.live = true → row.status.live = true

theorem Continues.refl (row : PairingRow) : Continues events row row :=
  ⟨rfl, rfl, rfl, rfl, Or.inl, id⟩

theorem continues_swept (row : PairingRow) : Continues events row (row.swept now) := by
  unfold PairingRow.swept
  split
  · exact ⟨rfl, rfl, rfl, rfl, by simp, by simp [PairingStatus.live]⟩
  · exact Continues.refl row

theorem Traced.next {row next : PairingRow} (traced : Traced env journal row)
    (continues : Continues events row next) : Traced env (journal ++ events) next := by
  obtain ⟨before, between, opening, rfl, pairingId, deviceId, secret, expiresAt, approved⟩ := traced
  refine ⟨before, between ++ events, opening, by simp, pairingId.trans continues.pairingId.symm,
    deviceId.trans continues.deviceId.symm, secret.trans continues.secret.symm,
    expiresAt.trans continues.expiresAt.symm, ?_⟩
  intro status
  rw [continues.pairingId]
  rcases continues.approved status with already | now_
  · exact List.mem_append_left _ (approved already)
  · exact List.mem_append_right _ now_

/-- Pairings that continue keep the agreement, when each event that ends a pairing
left it ended. -/
theorem Recorded.next (recorded : Recorded env journal db)
    (source : ∀ next ∈ after.pairings, ∃ row ∈ db.pairings, Continues events row next)
    (target : ∀ row ∈ db.pairings, ∃ next ∈ after.pairings, Continues events row next)
    (ends : ∀ pairingId, (∃ event ∈ events, Closes pairingId event) →
      ∃ row ∈ after.pairings, row.pairingId = pairingId ∧ row.status.live = false) :
    Recorded env (journal ++ events) after where
  traced next member := by
    obtain ⟨row, rowMem, continues⟩ := source next member
    exact (recorded.traced row rowMem).next continues
  closed pairingId := by
    rintro ⟨event, member, closes⟩
    rcases List.mem_append.mp member with old | new
    · obtain ⟨row, rowMem, same, over_⟩ := recorded.closed pairingId ⟨event, old, closes⟩
      obtain ⟨next, nextMem, continues⟩ := target row rowMem
      refine ⟨next, nextMem, continues.pairingId.trans same, ?_⟩
      cases live : next.status.live with
      | false => rfl
      | true =>
          rw [continues.live live] at over_
          contradiction
    · exact ends pairingId ⟨event, new, closes⟩

/-- Tables whose pairings did not change keep the agreement. -/
theorem Recorded.of_eq (recorded : Recorded env journal db) (same : after.pairings = db.pairings)
    (open_ : ∀ event ∈ events, ∀ pairingId, ¬ Closes pairingId event) :
    Recorded env (journal ++ events) after := by
  apply recorded.next
  · rw [same]
    exact fun row member => ⟨row, member, Continues.refl row⟩
  · rw [same]
    exact fun row member => ⟨row, member, Continues.refl row⟩
  · rintro pairingId ⟨event, member, closes⟩
    exact absurd closes (open_ event member pairingId)

theorem Recorded.expire (recorded : Recorded env journal db) :
    Recorded env journal (db.expirePairings now) := by
  have swept : Recorded env (journal ++ []) (db.expirePairings now) := by
    apply recorded.next
    · intro next member
      obtain ⟨row, rowMem, rfl⟩ := List.mem_map.mp member
      exact ⟨row, rowMem, continues_swept row⟩
    · intro row member
      exact ⟨_, List.mem_map_of_mem member, continues_swept row⟩
    · rintro pairingId ⟨event, member, _⟩
      contradiction
  rwa [List.append_nil] at swept

/-- One pairing moves on. -/
theorem Recorded.update (recorded : Recorded env journal db) {pairingId : Text}
    {old : PairingRow} {f : PairingRow → PairingRow}
    {keeps : ∀ row, (f row).pairingId = row.pairingId}
    (found : db.pairings.find? pairingId = some old) (continues : Continues events old (f old))
    (ends : ∀ other, (∃ event ∈ events, Closes other event) →
      other = pairingId ∧ (f old).status.live = false) :
    Recorded env (journal ++ events) (db.updatePairing pairingId f keeps) := by
  obtain ⟨oldMem, oldId⟩ := Table.find?_eq_some_iff.mp found
  have only : ∀ row ∈ db.pairings, row.pairingId = pairingId → row = old := fun row member same =>
    db.pairings.key_injective member oldMem (same.trans oldId.symm)
  have written : f old ∈ (db.updatePairing pairingId f keeps).pairings :=
    mem_updatePairing_iff.mpr (Or.inl ⟨old, oldMem, oldId, rfl⟩)
  apply recorded.next
  · intro next member
    rcases mem_updatePairing_iff.mp member with ⟨row, rowMem, same, rfl⟩ | ⟨rowMem, _⟩
    · rw [only row rowMem same]
      exact ⟨old, oldMem, continues⟩
    · exact ⟨next, rowMem, Continues.refl next⟩
  · intro row member
    by_cases same : row.pairingId = pairingId
    · rw [only row member same]
      exact ⟨f old, written, continues⟩
    · exact ⟨row, mem_updatePairing_iff.mpr (Or.inr ⟨member, same⟩), Continues.refl row⟩
  · intro other closes
    obtain ⟨rfl, over_⟩ := ends other closes
    exact ⟨f old, written, continues.pairingId.trans oldId, over_⟩

/-- A live pairing is not ended by any event. -/
theorem Recorded.not_closed (recorded : Recorded env journal db) {row : PairingRow}
    (member : row ∈ db.pairings) (live : row.status.live = true) {event : Event}
    (eventMem : event ∈ journal) : ¬ Closes row.pairingId event := by
  intro closes
  obtain ⟨other, otherMem, same, over_⟩ := recorded.closed _ ⟨event, eventMem, closes⟩
  rw [db.pairings.key_injective otherMem member same, live] at over_
  contradiction

/-- After `_expire_pairings_locked` the live pairings are not expired. -/
theorem before_expiry {row : PairingRow} (member : row ∈ (db.expirePairings now).pairings)
    (live : row.status.live = true) : now.val < row.expiresAt.val := by
  obtain ⟨source, _, rfl⟩ := List.mem_map.mp member
  unfold PairingRow.swept at live ⊢
  split
  · rename_i swept
    rw [if_pos swept] at live
    contradiction
  · rename_i kept
    rw [if_neg kept] at live
    have later : ¬ isoformat source.expiresAt ≤ isoformat now := fun texts => kept ⟨live, texts⟩
    rw [isoformat, isoformat, isoText_le_iff source.expiresAt.property now.property] at later
    omega

/-- An appended pairing is the one of its creation. -/
theorem Recorded.append (recorded : Recorded env journal db) {request : PairingRequest}
    {expiresAt : Instant} {pairingId secret code : Text}
    (rows : after.pairings.rows = db.pairings.rows ++
      [request.pairing env config now expiresAt pairingId secret code]) :
    Recorded env (journal ++ [.created ⟨pairingId, request.deviceId, secret, expiresAt⟩])
      after where
  traced row member := by
    rw [Table.mem_def, rows] at member
    rcases List.mem_append.mp member with old | new
    · exact (recorded.traced row old).next (Continues.refl row)
    · rw [List.mem_singleton.mp new]
      exact ⟨journal, [], _, rfl, rfl, rfl, rfl, rfl, by simp [PairingRequest.pairing]⟩
  closed other := by
    rintro ⟨event, member, closes⟩
    rcases List.mem_append.mp member with old | new
    · obtain ⟨row, rowMem, same, over_⟩ := recorded.closed other ⟨event, old, closes⟩
      refine ⟨row, ?_, same, over_⟩
      rw [Table.mem_def, rows]
      exact List.mem_append_left _ rowMem
    · rw [List.mem_singleton.mp new] at closes
      contradiction

/-- Every effect of a call keeps the agreement. -/
theorem Recorded.step (recorded : Recorded env journal db)
    (effect : Effect env config now db after events) : Recorded env (journal ++ events) after := by
  cases effect with
  | nothing => exact recorded.of_eq rfl (by simp)
  | swept => exact recorded.expire.of_eq rfl (by simp)
  | seen deviceId => exact recorded.of_eq rfl (by simp)
  | created request expiresAt pairingId secret code _ _ rows _ _ =>
      exact recorded.expire.append rows
  | approvedAgain pairingId old found status =>
      exact recorded.expire.of_eq rfl (by simp [Closes])
  | approved pairingId old found status =>
      have oldId := (Table.find?_eq_some_iff.mp found).2
      apply recorded.expire.update found
      · exact ⟨rfl, rfl, rfl, rfl, fun _ => Or.inr (by simp [oldId]),
          fun _ => by simp [status, PairingStatus.live]⟩
      · simp [Closes]
  | rejectedAgain pairingId old found status =>
      obtain ⟨oldMem, oldId⟩ := Table.find?_eq_some_iff.mp found
      apply recorded.expire.next
      · exact fun row member => ⟨row, member, Continues.refl row⟩
      · exact fun row member => ⟨row, member, Continues.refl row⟩
      · rintro other ⟨event, member, closes⟩
        rw [List.mem_singleton.mp member] at closes
        exact ⟨old, oldMem, oldId.trans closes, by rw [status]; rfl⟩
  | rejected pairingId old found =>
      apply recorded.expire.update found
      · exact ⟨rfl, rfl, rfl, rfl, by simp [PairingRow.rejected],
          by simp [PairingRow.rejected, PairingStatus.live]⟩
      · rintro other ⟨event, member, closes⟩
        rw [List.mem_singleton.mp member] at closes
        exact ⟨closes.symm, rfl⟩
  | consumed pairingId secret token expiresAt old found proved status =>
      have stored : Recorded env journal { db.expirePairings now with
          credentials := (db.expirePairings now).credentials.upsert
            (old.credential env now token expiresAt) } := by
        rw [← List.append_nil journal]
        exact recorded.expire.of_eq rfl (by simp)
      apply stored.update found
      · exact ⟨rfl, rfl, rfl, rfl, by simp [PairingRow.consumed],
          by simp [PairingRow.consumed, PairingStatus.live]⟩
      · rintro other ⟨event, member, closes⟩
        rw [List.mem_singleton.mp member] at closes
        exact ⟨closes.symm, rfl⟩
  | revokedAgain deviceId credential found status => exact recorded.of_eq rfl (by simp [Closes])
  | revoked deviceId credential found => exact recorded.of_eq rfl (by simp [Closes])
  | registered deviceId credential request found status =>
      have opens : ∀ event ∈ (if request.enabled then [Event.registered deviceId] else []),
          ∀ pairingId, ¬ Closes pairingId event := by
        split <;> simp [Closes]
      exact recorded.of_eq rfl opens
  | disabled deviceId => exact recorded.of_eq rfl (by simp)

/-- A delivery is due. -/
theorem Recorded.due (recorded : Recorded env journal db)
    (collisionFree : Function.Injective env.sha256) {delivery : Delivery}
    (effect : Effect env config now db after [.consumed delivery]) : Due journal delivery := by
  generalize added : [Event.consumed delivery] = events at effect
  cases effect with
  | consumed pairingId secret token expiresAt old found proved status =>
      cases added
      obtain ⟨oldMem, rfl⟩ := Table.find?_eq_some_iff.mp found
      have live : old.status.live = true := by rw [status]; rfl
      obtain ⟨before, between, opening, rfl, sameId, sameDevice, sameSecret, expiry, approved⟩ :=
        recorded.expire.traced old oldMem
      refine ⟨⟨before, between, opening, rfl, sameId, sameDevice, ?_, approved status, ?_⟩, ?_, ?_⟩
      · exact collisionFree (sameSecret.trans proved)
      · rw [expiry]
        exact before_expiry oldMem live
      · intro rejected
        exact recorded.expire.not_closed oldMem live rejected rfl
      · intro other consumed
        exact recorded.expire.not_closed oldMem live consumed
  | registered deviceId credential request found status =>
      split at added <;> simp at added
  | _ => simp at added

/-! ## Credentials -/

/-- A credential is the last one delivered for its device, and is revoked when
its device was revoked since. -/
def Held (env : Environment) (journal : List Event) (credential : CredentialRow) : Prop :=
  ∃ before following delivery, journal = before ++ .consumed delivery :: following ∧
    delivery.deviceId = credential.deviceId ∧
    env.sha256 delivery.token = credential.tokenSha256 ∧
    delivery.expiresAt = credential.expiresAt ∧
    (∀ other, .consumed other ∈ following → other.deviceId ≠ credential.deviceId) ∧
    (credential.revokedAt.isSome = true ↔ .revoked credential.deviceId ∈ following)

/-- The event delivers or revokes a credential of the device. -/
def Touches (deviceId : Text) : Event → Prop
  | .consumed delivery => delivery.deviceId = deviceId
  | .revoked other => other = deviceId
  | _ => False

/-- The credentials agree with the journal. -/
structure Issued (env : Environment) (journal : List Event) (db : Database) : Prop where
  held : ∀ credential ∈ db.credentials, Held env journal credential
  known : ∀ delivery, .consumed delivery ∈ journal →
    ∃ credential ∈ db.credentials, credential.deviceId = delivery.deviceId

/-- A credential that no event touched is held as before. -/
theorem Held.untouched {credential next : CredentialRow} (held : Held env journal credential)
    (deviceId : next.deviceId = credential.deviceId)
    (token : next.tokenSha256 = credential.tokenSha256)
    (expiresAt : next.expiresAt = credential.expiresAt)
    (revokedAt : next.revokedAt = credential.revokedAt)
    (others : ∀ event ∈ events, ¬ Touches credential.deviceId event) :
    Held env (journal ++ events) next := by
  obtain ⟨before, following, delivery, rfl, same, digest, expiry, last, revoked⟩ := held
  refine ⟨before, following ++ events, delivery, by simp, same.trans deviceId.symm,
    digest.trans token.symm, expiry.trans expiresAt.symm, ?_, ?_⟩
  · intro other member
    rw [deviceId]
    rcases List.mem_append.mp member with old | new
    · exact last other old
    · exact others _ new
  · rw [revokedAt, deviceId, revoked, List.mem_append, or_iff_left]
    exact fun member => others _ member rfl

/-- Tables whose credentials did not change keep the agreement. -/
theorem Issued.of_eq (issued : Issued env journal db) (same : after.credentials = db.credentials)
    (others : ∀ deviceId, ∀ event ∈ events, ¬ Touches deviceId event) :
    Issued env (journal ++ events) after where
  held credential member := by
    rw [same] at member
    exact (issued.held credential member).untouched rfl rfl rfl rfl (others _)
  known delivery member := by
    rcases List.mem_append.mp member with old | new
    · rw [same]
      exact issued.known delivery old
    · exact absurd rfl (others _ _ new)

/-- The credentials of the other devices are held as before. -/
theorem Issued.deliver (issued : Issued env journal db) (delivery : Delivery)
    (credential : CredentialRow) (credentials : after.credentials = db.credentials.upsert credential)
    (deviceId : delivery.deviceId = credential.deviceId)
    (token : env.sha256 delivery.token = credential.tokenSha256)
    (expiresAt : delivery.expiresAt = credential.expiresAt) (valid : credential.revokedAt = none) :
    Issued env (journal ++ [.consumed delivery]) after where
  held other member := by
    rw [credentials] at member
    rcases Table.mem_upsert.mp member with rfl | ⟨old, different⟩
    · exact ⟨journal, [], delivery, rfl, deviceId, token, expiresAt, by simp, by simp [valid]⟩
    · apply (issued.held other old).untouched rfl rfl rfl rfl
      simpa [Touches, deviceId] using Ne.symm different
  known other member := by
    rw [credentials]
    rcases List.mem_append.mp member with old | new
    · obtain ⟨row, rowMem, same⟩ := issued.known other old
      by_cases here : row.deviceId = credential.deviceId
      · exact ⟨credential, Table.mem_upsert.mpr (Or.inl rfl), here.symm.trans same⟩
      · exact ⟨row, Table.mem_upsert.mpr (Or.inr ⟨rowMem, here⟩), same⟩
    · cases List.mem_singleton.mp new
      exact ⟨credential, Table.mem_upsert.mpr (Or.inl rfl), deviceId.symm⟩

/-- A device revoked once more keeps its credential. -/
theorem Issued.revokeAgain (issued : Issued env journal db) {credential : CredentialRow}
    (member : credential ∈ db.credentials) (revoked : credential.revokedAt.isSome = true) :
    Issued env (journal ++ [.revoked credential.deviceId]) db where
  held other otherMem := by
    by_cases same : other.deviceId = credential.deviceId
    · rw [db.credentials.key_injective otherMem member same]
      obtain ⟨before, following, delivery, rfl, deviceId, token, expiry, last, _⟩ :=
        issued.held credential member
      refine ⟨before, following ++ [.revoked credential.deviceId], delivery, by simp, deviceId,
        token, expiry, ?_, by simp [revoked]⟩
      intro next nextMem
      exact last next (by simpa using nextMem)
    · apply (issued.held other otherMem).untouched rfl rfl rfl rfl
      simpa [Touches] using Ne.symm same
  known delivery deliveryMem := issued.known delivery (by simpa using deliveryMem)

/-- Writing a column of a credential that is not its key keeps its device. -/
theorem exists_updateCredential (deviceId : Text) {f : CredentialRow → CredentialRow}
    (keeps : ∀ row, (f row).deviceId = row.deviceId) {credential : CredentialRow}
    (member : credential ∈ db.credentials) :
    ∃ next ∈ (db.updateCredential deviceId f keeps).credentials,
      next.deviceId = credential.deviceId := by
  by_cases same : credential.deviceId = deviceId
  · exact ⟨f credential, mem_updateCredential_iff.mpr (Or.inl ⟨credential, member, same, rfl⟩),
      keeps credential⟩
  · exact ⟨credential, mem_updateCredential_iff.mpr (Or.inr ⟨member, same⟩), rfl⟩

/-- The device of a revoked session. -/
theorem Issued.revoke (issued : Issued env journal db) (deviceId : Text) :
    Issued env (journal ++ [.revoked deviceId]) (db.revoked now deviceId) where
  held other otherMem := by
    rw [credentials_revoked] at otherMem
    rcases mem_updateCredential_iff.mp otherMem with
      ⟨source, sourceMem, rfl, rfl⟩ | ⟨sourceMem, different⟩
    · obtain ⟨before, following, delivery, rfl, same, token, expiry, last, _⟩ :=
        issued.held source sourceMem
      refine ⟨before, following ++ [.revoked source.deviceId], delivery, by simp, same, token,
        expiry, ?_, by simp⟩
      intro next nextMem
      exact last next (by simpa using nextMem)
    · apply (issued.held other sourceMem).untouched rfl rfl rfl rfl
      simpa [Touches] using Ne.symm different
  known delivery deliveryMem := by
    obtain ⟨credential, member, same⟩ := issued.known delivery (by simpa using deliveryMem)
    obtain ⟨next, nextMem, nextId⟩ := exists_updateCredential deviceId
      (f := fun row => { row with revokedAt := some now }) (fun _ => rfl) member
    exact ⟨next, nextMem, nextId.trans same⟩

/-- Recording the last use of a credential. -/
theorem Issued.see (issued : Issued env journal db) (deviceId : Text) :
    Issued env journal (db.updateCredential deviceId
      (fun row => { row with lastSeenAt := some now }) fun _ => rfl) where
  held other otherMem := by
    rw [← List.append_nil journal]
    rcases mem_updateCredential_iff.mp otherMem with ⟨source, sourceMem, _, rfl⟩ | ⟨sourceMem, _⟩
    · exact (issued.held source sourceMem).untouched rfl rfl rfl rfl (by simp)
    · exact (issued.held other sourceMem).untouched rfl rfl rfl rfl (by simp)
  known delivery deliveryMem := by
    obtain ⟨credential, member, same⟩ := issued.known delivery deliveryMem
    obtain ⟨next, nextMem, nextId⟩ := exists_updateCredential deviceId
      (f := fun row => { row with lastSeenAt := some now }) (fun _ => rfl) member
    exact ⟨next, nextMem, nextId.trans same⟩

/-- Every effect of a call keeps the agreement. -/
theorem Issued.step (issued : Issued env journal db)
    (effect : Effect env config now db after events) : Issued env (journal ++ events) after := by
  cases effect with
  | nothing => exact issued.of_eq rfl (by simp)
  | swept => exact issued.of_eq rfl (by simp)
  | seen deviceId =>
      rw [List.append_nil]
      exact issued.see deviceId
  | created request expiresAt pairingId secret code _ _ _ same _ =>
      exact issued.of_eq same (by simp [Touches])
  | approvedAgain pairingId old found status => exact issued.of_eq rfl (by simp [Touches])
  | approved pairingId old found status => exact issued.of_eq rfl (by simp [Touches])
  | rejectedAgain pairingId old found status => exact issued.of_eq rfl (by simp [Touches])
  | rejected pairingId old found => exact issued.of_eq rfl (by simp [Touches])
  | consumed pairingId secret token expiresAt old found proved status =>
      exact issued.deliver _ (old.credential env now token expiresAt) rfl rfl rfl rfl rfl
  | revokedAgain deviceId credential found status =>
      obtain ⟨member, rfl⟩ := Table.find?_eq_some_iff.mp found
      exact issued.revokeAgain member status
  | revoked deviceId credential found => exact issued.revoke deviceId
  | registered deviceId credential request found status =>
      have others : ∀ other, ∀ event ∈
          (if request.enabled then [Event.registered deviceId] else []), ¬ Touches other event := by
        split <;> simp [Touches]
      exact issued.of_eq rfl others
  | disabled deviceId => exact issued.of_eq rfl (by simp)

/-! ## Push addresses -/

/-- After every revocation of the device a new credential was delivered for it, and
it registered since. -/
def Restored (journal : List Event) (deviceId : Text) : Prop :=
  ∀ before following, journal = before ++ .revoked deviceId :: following →
    ∃ between delivery rest, following = between ++ .consumed delivery :: rest ∧
      delivery.deviceId = deviceId ∧ .registered deviceId ∈ rest

/-- An enabled push address belongs to a credential that is not revoked, and to a
device that has registered since its revocations. -/
def Addressed (journal : List Event) (db : Database) : Prop :=
  ∀ push ∈ db.pushTokens, push.enabled = true →
    (∀ credential ∈ db.credentials, credential.deviceId = push.deviceId →
      credential.revokedAt = none) ∧ Restored journal push.deviceId

theorem Restored.append {deviceId : Text} (restored : Restored journal deviceId)
    (others : .revoked deviceId ∉ events) : Restored (journal ++ events) deviceId := by
  intro before following equal
  induction events using List.reverseRecOn generalizing following with
  | nil => exact restored before following (by simpa using equal)
  | append_singleton events event ih =>
      rw [List.mem_append, not_or, List.mem_singleton] at others
      rw [← List.append_assoc] at equal
      rcases concat_eq_split_iff.mp equal with ⟨_, same, _⟩ | ⟨rest, rfl, earlier⟩
      · exact absurd same.symm others.2
      · obtain ⟨between, delivery, rest, rfl, device, registered⟩ := ih others.1 rest earlier
        exact ⟨between, delivery, rest ++ [event], by simp, device,
          List.mem_append_left _ registered⟩

/-- A device with a valid credential is restored by a registration. -/
theorem Issued.restored (issued : Issued env journal db) {credential : CredentialRow}
    (member : credential ∈ db.credentials) (valid : credential.revokedAt = none) :
    Restored (journal ++ [.registered credential.deviceId]) credential.deviceId := by
  intro before following equal
  obtain ⟨first, since, delivery, rfl, device, _, _, _, revoked⟩ := issued.held credential member
  have absent : .revoked credential.deviceId ∉ since := by simp [← revoked, valid]
  rcases concat_eq_split_iff.mp equal with ⟨_, same, _⟩ | ⟨rest, rfl, earlier⟩
  · contradiction
  · obtain ⟨between, rfl⟩ := split_of_not_mem earlier.symm (by simp) absent
    exact ⟨between, delivery, since ++ [.registered credential.deviceId], by simp, device,
      by simp⟩

/-- Calls that add no push address and revoke nothing keep the addresses. -/
theorem Addressed.next (addressed : Addressed journal db)
    (pushTokens : ∀ push ∈ after.pushTokens, push.enabled = true → push ∈ db.pushTokens)
    (credentials : ∀ next ∈ after.credentials, next.revokedAt = none ∨
      ∃ credential ∈ db.credentials, credential.deviceId = next.deviceId ∧
        credential.revokedAt = next.revokedAt)
    (others : ∀ deviceId, .revoked deviceId ∉ events) : Addressed (journal ++ events) after := by
  intro push member enabled
  obtain ⟨valid, restored⟩ := addressed push (pushTokens push member enabled) enabled
  refine ⟨?_, restored.append (others _)⟩
  intro next nextMem same
  rcases credentials next nextMem with none_ | ⟨credential, credentialMem, device, revokedAt⟩
  · exact none_
  · rw [← revokedAt]
    exact valid credential credentialMem (device.trans same)

/-- Tables whose credentials and push addresses did not change keep the addresses. -/
theorem Addressed.of_eq (addressed : Addressed journal db)
    (pushTokens : after.pushTokens = db.pushTokens)
    (credentials : after.credentials = db.credentials)
    (others : ∀ deviceId, .revoked deviceId ∉ events) : Addressed (journal ++ events) after := by
  apply addressed.next _ _ others
  · rw [pushTokens]
    exact fun _ member _ => member
  · rw [credentials]
    exact fun credential member => Or.inr ⟨credential, member, rfl, rfl⟩

theorem Addressed.revokeAgain (addressed : Addressed journal db) {credential : CredentialRow}
    (member : credential ∈ db.credentials) (revoked : credential.revokedAt.isSome = true) :
    Addressed (journal ++ [.revoked credential.deviceId]) db := by
  intro push pushMem enabled
  obtain ⟨valid, restored⟩ := addressed push pushMem enabled
  refine ⟨valid, restored.append ?_⟩
  intro same
  rw [valid credential member (by simpa using (List.mem_singleton.mp same).symm)] at revoked
  contradiction

theorem Addressed.revoke (addressed : Addressed journal db) (deviceId : Text) :
    Addressed (journal ++ [.revoked deviceId]) (db.revoked now deviceId) := by
  intro push pushMem enabled
  rcases mem_disablePushToken_iff.mp pushMem with ⟨_, _, _, rfl⟩ | ⟨member, different⟩
  · contradiction
  · obtain ⟨valid, restored⟩ := addressed push member enabled
    refine ⟨?_, restored.append (by simpa using different)⟩
    intro credential credentialMem same
    rw [credentials_revoked] at credentialMem
    rcases mem_updateCredential_iff.mp credentialMem with ⟨source, _, here, rfl⟩ | ⟨kept, _⟩
    · exact absurd (same.symm.trans here) different
    · exact valid credential kept same

theorem Addressed.register (addressed : Addressed journal db) (issued : Issued env journal db)
    {credential : CredentialRow} (member : credential ∈ db.credentials)
    (valid : credential.revokedAt = none) (request : PushRegistration) :
    Addressed (journal ++ if request.enabled then [.registered credential.deviceId] else [])
      { db with pushTokens := db.pushTokens.upsert (request.pushRow credential.deviceId now) } := by
  intro push pushMem enabled
  rcases Table.mem_upsert.mp pushMem with rfl | ⟨old, different⟩
  · have asked : request.enabled = true := enabled
    rw [if_pos asked]
    refine ⟨?_, issued.restored member valid⟩
    intro other otherMem same
    rw [db.credentials.key_injective otherMem member same]
    exact valid
  · obtain ⟨others, restored⟩ := addressed push old enabled
    refine ⟨others, restored.append ?_⟩
    split <;> simp

/-- Every effect of a call keeps the addresses. -/
theorem Addressed.step (addressed : Addressed journal db) (issued : Issued env journal db)
    (effect : Effect env config now db after events) : Addressed (journal ++ events) after := by
  cases effect with
  | nothing => exact addressed.of_eq rfl rfl (by simp)
  | swept => exact addressed.of_eq rfl rfl (by simp)
  | seen deviceId =>
      apply addressed.next
      · exact fun _ member _ => member
      · intro next nextMem
        rcases mem_updateCredential_iff.mp nextMem with ⟨source, member, _, rfl⟩ | ⟨member, _⟩
        · exact Or.inr ⟨source, member, rfl, rfl⟩
        · exact Or.inr ⟨next, member, rfl, rfl⟩
      · simp
  | created request expiresAt pairingId secret code _ _ _ credentials pushTokens =>
      exact addressed.of_eq pushTokens credentials (by simp)
  | approvedAgain pairingId old found status => exact addressed.of_eq rfl rfl (by simp)
  | approved pairingId old found status => exact addressed.of_eq rfl rfl (by simp)
  | rejectedAgain pairingId old found status => exact addressed.of_eq rfl rfl (by simp)
  | rejected pairingId old found => exact addressed.of_eq rfl rfl (by simp)
  | consumed pairingId secret token expiresAt old found proved status =>
      apply addressed.next
      · exact fun _ member _ => member
      · intro next nextMem
        rcases Table.mem_upsert.mp nextMem with rfl | ⟨member, _⟩
        · exact Or.inl rfl
        · exact Or.inr ⟨next, member, rfl, rfl⟩
      · simp
  | revokedAgain deviceId credential found status =>
      obtain ⟨member, rfl⟩ := Table.find?_eq_some_iff.mp found
      exact addressed.revokeAgain member status
  | revoked deviceId credential found => exact addressed.revoke deviceId
  | registered deviceId credential request found status =>
      obtain ⟨member, rfl⟩ := Table.find?_eq_some_iff.mp found
      exact addressed.register issued member status request
  | disabled deviceId =>
      apply addressed.next
      · intro push member enabled
        rcases mem_disablePushToken_iff.mp member with ⟨_, _, _, rfl⟩ | ⟨kept, _⟩
        · contradiction
        · exact kept
      · exact fun credential member => Or.inr ⟨credential, member, rfl, rfl⟩
      · simp

/-! ## Runs -/

/-- The tables agree with the journal. -/
structure Agrees (env : Environment) (journal : List Event) (db : Database) : Prop where
  recorded : Recorded env journal db
  issued : Issued env journal db
  addressed : Addressed journal db

theorem agrees_empty : Agrees env [] Database.empty where
  recorded := ⟨by simp [Database.empty], by simp⟩
  issued := ⟨by simp [Database.empty], by simp⟩
  addressed := by simp [Addressed, Database.empty]

theorem history_concat (calls : List Call) (call : Call) :
    history env config (calls ++ [call]) = record env config (history env config calls) call :=
  reached_concat

theorem agrees_history (calls : List Call) :
    Agrees env (history env config calls).journal (history env config calls).db := by
  induction calls using List.reverseRecOn with
  | nil => exact agrees_empty
  | append_singleton calls call ih =>
      rw [history_concat]
      have effect := effect_run env config call (history env config calls).db
      exact ⟨ih.recorded.step effect, ih.issued.step effect, ih.addressed.step ih.issued effect⟩

/-- Every delivery of a run was due. -/
theorem due_history (collisionFree : Function.Injective env.sha256) (calls : List Call)
    {earlier later : List Event} {delivery : Delivery}
    (split : (history env config calls).journal = earlier ++ .consumed delivery :: later) :
    Due earlier delivery := by
  induction calls using List.reverseRecOn generalizing later with
  | nil => simp [history, History.empty] at split
  | append_singleton calls call ih =>
      rw [history_concat] at split
      have effect := effect_run env config call (history env config calls).db
      simp only [record] at split
      rcases effect.events_cases with none_ | ⟨event, one⟩
      · rw [none_, List.append_nil] at split
        exact ih split
      · rw [one] at split effect
        rcases concat_eq_split_iff.mp split with ⟨rfl, rfl, _⟩ | ⟨rest, _, before⟩
        · exact (agrees_history calls).recorded.due collisionFree effect
        · exact ih before

theorem authorize_eq_true_iff {deviceId token : Text} :
    (db.authorize env now deviceId token).1 = true ↔
      ∃ credential ∈ db.credentials, credential.deviceId = deviceId ∧
        credential.revokedAt = none ∧ credential.tokenSha256 = env.sha256 token ∧
        now.val < credential.expiresAt.val := by
  unfold Database.authorize
  split
  · rename_i none_
    simp only [Bool.false_eq_true, false_iff, not_exists, not_and]
    intro credential member same valid
    have found := Table.find?_eq_some_iff.mpr ⟨member, same⟩
    simp [found, Option.filter, valid] at none_
  · rename_i row some_
    rw [Option.filter_eq_some_iff, Table.find?_eq_some_iff] at some_
    obtain ⟨⟨member, same⟩, valid⟩ := some_
    constructor
    · intro granted
      split at granted
      · contradiction
      · rename_i passes
        rw [not_or, not_not] at passes
        exact ⟨row, member, same, by simpa using valid, passes.2, by omega⟩
    · rintro ⟨credential, credentialMem, device, _, digest, unexpired⟩
      rw [db.credentials.key_injective credentialMem member (device.trans same.symm)]
        at digest unexpired
      rw [if_neg]
      rw [not_or, not_not]
      exact ⟨by omega, digest⟩

/-- The token is the last one delivered for the device, no revocation followed and
it has not expired. -/
def Current (journal : List Event) (now : Instant) (deviceId token : Text) : Prop :=
  ∃ before following delivery, journal = before ++ .consumed delivery :: following ∧
    delivery.deviceId = deviceId ∧ delivery.token = token ∧
    (∀ other, .consumed other ∈ following → other.deviceId ≠ deviceId) ∧
    .revoked deviceId ∉ following ∧ now.val < delivery.expiresAt.val

/-- The event delivers a token for the device. -/
def Delivers (deviceId : Text) (event : Event) : Prop :=
  ∃ delivery, event = .consumed delivery ∧ delivery.deviceId = deviceId

theorem Issued.authorize_iff (issued : Issued env journal db)
    (collisionFree : Function.Injective env.sha256) (deviceId token : Text) :
    (db.authorize env now deviceId token).1 = true ↔ Current journal now deviceId token := by
  rw [authorize_eq_true_iff]
  constructor
  · rintro ⟨credential, member, rfl, valid, digest, unexpired⟩
    obtain ⟨before, following, delivery, equal, device, sameToken, expiry, last, revoked⟩ :=
      issued.held credential member
    refine ⟨before, following, delivery, equal, device,
      collisionFree (sameToken.trans digest), last, ?_, by rwa [expiry]⟩
    simp [← revoked, valid]
  · rintro ⟨before, following, delivery, equal, rfl, rfl, last, unrevoked, unexpired⟩
    obtain ⟨credential, member, device⟩ := issued.known delivery (by simp [equal])
    obtain ⟨before', following', delivery', equal', device', sameToken, expiry, last', revoked⟩ :=
      issued.held credential member
    obtain ⟨same, rfl⟩ := eq_of_last_split (R := Delivers delivery.deviceId)
      (equal.symm.trans equal') ⟨delivery, rfl, rfl⟩ ⟨delivery', rfl, device'.trans device⟩
      (by rintro next nextMem ⟨other, rfl, otherDevice⟩; exact last other nextMem otherDevice)
      (by
        rintro next nextMem ⟨other, rfl, otherDevice⟩
        exact last' other nextMem (otherDevice.trans device.symm))
    cases same
    refine ⟨credential, member, device, ?_, sameToken.symm, by rwa [← expiry]⟩
    rw [← device, ← revoked] at unrevoked
    simpa using unrevoked

theorem mem_pushTargets {environment deviceId address : Text}
    (member : (deviceId, address) ∈ db.pushTargets now environment) :
    ∃ push ∈ db.pushTokens, push.deviceId = deviceId ∧ push.enabled = true ∧
      ∃ credential ∈ db.credentials, credential.deviceId = deviceId ∧
        credential.revokedAt = none ∧ now.val < credential.expiresAt.val := by
  obtain ⟨push, pushMem, chosen⟩ := List.mem_filterMap.mp member
  split at chosen
  · rename_i deviceToken credential _ found
    obtain ⟨credentialMem, device⟩ := Table.find?_eq_some_iff.mp found
    split at chosen
    · rename_i passes
      obtain ⟨enabled, _, valid, unexpired⟩ := passes
      rw [isoformat, isoformat, isoText_lt_iff now.property credential.expiresAt.property]
        at unexpired
      cases chosen
      exact ⟨push, pushMem, rfl, enabled, credential, credentialMem, device, valid, unexpired⟩
    · contradiction
  · contradiction

/-- Along every run a token is delivered when it is due, and to no other poll;
`authorize` accepts the last token delivered for a device while it is neither
revoked nor expired; and the push addresses belong to devices with such a token
that registered again after every revocation. -/
theorem companion_credentials (env : Environment) (config : Config)
    (collisionFree : Function.Injective env.sha256) (calls : List Call) :
    (∀ earlier later delivery,
        (history env config calls).journal = earlier ++ .consumed delivery :: later →
          Due earlier delivery) ∧
      (∀ now deviceId token,
        ((history env config calls).db.authorize env now deviceId token).1 = true ↔
          Current (history env config calls).journal now deviceId token) ∧
      ∀ now environment deviceId address,
        (deviceId, address) ∈ (history env config calls).db.pushTargets now environment →
          (∃ token, Current (history env config calls).journal now deviceId token) ∧
            Restored (history env config calls).journal deviceId := by
  have agrees : Agrees env (history env config calls).journal (history env config calls).db :=
    agrees_history calls
  refine ⟨?_, ?_, ?_⟩
  · intro earlier later delivery split
    exact due_history collisionFree calls split
  · intro now deviceId token
    exact agrees.issued.authorize_iff collisionFree deviceId token
  · intro now environment deviceId address member
    obtain ⟨push, pushMem, rfl, enabled, credential, credentialMem, device, valid, unexpired⟩ :=
      mem_pushTargets member
    refine ⟨?_, (agrees.addressed push pushMem enabled).2⟩
    obtain ⟨before, following, delivery, equal, same, _, expiry, last, revoked⟩ :=
      agrees.issued.held credential credentialMem
    rw [device] at last revoked same
    refine ⟨delivery.token, before, following, delivery, equal, same, rfl, last, ?_,
      by rwa [expiry]⟩
    simp [← revoked, valid]

/-- A digest without collisions. -/
def plainEnvironment : Environment :=
  ⟨id⟩

def quarterConfig : Config where
  pairingTtlSeconds := 600
  credentialTtlDays := 90
  maxPendingPairings := 10
  tlsCaSha256 := List.replicate 64 'a'
  tlsCaCertificatePem := List.replicate 64 'a'
  sha256_valid := by decide
  certificate_bounds := by decide

def pairingTime : Instant :=
  ⟨1767225600 * second, by decide⟩

def phone : Text :=
  "iphone-1".toList

def phoneToken : Text :=
  List.replicate 64 't'

/-- A telephone pairs, is approved, takes its token and registers for push messages. -/
def pairedPhone : List Call :=
  [⟨pairingTime, .createPairing ⟨1, phone, "Phone".toList, "ios".toList, "1.0".toList⟩
      "p1".toList (List.replicate 43 's') "ABCD-EFGH".toList⟩,
    ⟨pairingTime, .approvePairing "p1".toList⟩,
    ⟨pairingTime, .pollPairing "p1".toList ⟨1, List.replicate 43 's'⟩ phoneToken⟩,
    ⟨pairingTime, .registerPushToken phone
      ⟨1, true, some (List.replicate 64 'b'), "production".toList⟩⟩]

/-- The telephone is accepted with its token and receives push messages. -/
theorem companion_credentials_paired :
    Current (history plainEnvironment quarterConfig pairedPhone).journal pairingTime phone
        phoneToken ∧
      Restored (history plainEnvironment quarterConfig pairedPhone).journal phone := by
  have credentials := companion_credentials plainEnvironment quarterConfig
    Function.injective_id pairedPhone
  refine ⟨(credentials.2.1 pairingTime phone phoneToken).mp (by decide +kernel), ?_⟩
  exact (credentials.2.2 pairingTime "production".toList phone (List.replicate 64 'b')
    (by decide +kernel)).2

end OhanaAgent.Companions
