import OhanaAgent.Store.Latest
import OhanaAgent.Tsunade.Learning

/-!
# How often an incident teaches

A confirmation looks for an experience that names its incident before its
transaction, and the transaction makes the experience name that incident
instead of the one it named before.  An incident therefore teaches once in every
state of a run exactly when no confirmation is disturbed: no other call confirms
the incident after that search, and no other incident had taken over what the
incident taught when the search was made.
-/

namespace OhanaAgent.Tsunade

open OhanaAgent.Encoding.Json
open OhanaAgent.Store
open OhanaAgent.Time
open OhanaAgent.Transition

variable {env : Environment} {digest : Text → Text} {now : Int}

/-! ## What an incident taught -/

namespace Knowledge

/-- What the confirmations of an incident added to a counter of all experiences. -/
def taught (count : Confirmed → Nat) (incidentId : Text) (state : Knowledge) : Nat :=
  ((state.journal.filter fun entry => entry.incidentId = incidentId).map count).sum

/-- The incident teaches one attempt and one success at most. -/
def TeachesOnce (state : Knowledge) : Prop :=
  ∀ incidentId, state.taught Confirmed.attempts incidentId ≤ 1 ∧
    state.taught Confirmed.successes incidentId ≤ 1

end Knowledge

/-- No confirmation of the incident follows the search, and what the incident
had taught before was not taken over by another incident. -/
def Unrivalled (journal : List Confirmed) (read : Nat) (incidentId : Text) : Prop :=
  (∀ entry ∈ journal.drop read, entry.incidentId ≠ incidentId) ∧
    ∀ earlier entry later, journal.take read = earlier ++ entry :: later →
      entry.incidentId = incidentId → ∀ other ∈ later, other.signature = entry.signature →
        other.incidentId = incidentId

/-- The transition is no transaction of a confirmation, or that of an undisturbed
one. -/
def Knowledge.Undisturbed (state : Knowledge) (label : Int × Lecture) : Prop :=
  ∀ index view candidate request read, label.2 = .proceed index →
    state.calls index = some (.prepared view candidate request read) →
      Unrivalled state.journal read view.row.incidentId

/-! ## The increments of one confirmation -/

theorem Store.total_eq (count : ExperienceRow → Nat) (store : Store) :
    store.total count = store.experiences.sumOf count := rfl

/-- A confirmation adds one to the total of the attempts and of the successes. -/
theorem Learns.total {view : IncidentView} {candidate : Candidate} {request : ConfirmationRequest}
    {signature experienceId : Text} {memory after : Memory}
    (learns : Learns env now view candidate request signature memory experienceId after)
    (listed : ∀ lesson ∈ memory.lessons, memory.store.Knows lesson.experienceId)
    (count : ExperienceRow → Nat)
    (first : ∀ id, count (view.experience now candidate id) = 1)
    (again : ∀ row : ExperienceRow,
      count (row.confirmed now (view.succeededAt now)) = count row + 1) :
    after.store.total count = memory.store.total count + 1 := by
  rw [Store.total_eq, Store.total_eq]
  cases learns with
  | first _ inserted _ _ _ _ => rw [Table.sumOf_insert? inserted, first]
  | @again existing _ known _ experiences _ _ _ _ =>
      obtain ⟨row, member, same⟩ := listed existing known
      have moved := Table.sumOf_modify count member
        (ExperienceRow.confirmed now (view.succeededAt now)) fun _ => rfl
      rw [same, ← experiences, again] at moved
      omega

/-! ## The names of the experiences -/

/-- The experience of a signature names the incident confirmed last with it, a
prepared call found no experience of its incident, and every confirmation added
one. -/
structure Knowledge.Named (state : Knowledge) : Prop where
  names : ∀ signature entry, latest Confirmed.signature signature state.journal = some entry →
    ∃ lesson ∈ state.lessons, lesson.signature = signature ∧ lesson.incidentId = entry.incidentId
  prepared : ∀ index view candidate request read,
    state.calls index = some (.prepared view candidate request read) →
      read ≤ state.journal.length ∧ ∀ signature entry,
        latest Confirmed.signature signature (state.journal.take read) = some entry →
          entry.incidentId ≠ view.row.incidentId
  single : ∀ entry ∈ state.journal, entry.attempts = 1 ∧ entry.successes = 1

/-- No identifier that is still to be drawn is one of an experience. -/
def Store.Undrawn (env : Environment) (store : Store) : Prop :=
  ∀ row ∈ store.experiences, ∀ drawn, store.uuids ≤ drawn → row.experienceId ≠ env.uuid drawn

namespace Knowledge.Named

variable {state next : Knowledge}

theorem opened (legacy : LegacyDatabase env) : (Knowledge.opened legacy).Named where
  names := by simp [Knowledge.opened]
  prepared := by simp [Knowledge.opened]
  single := by simp [Knowledge.opened]

/-- The lessons keep their signatures and their incidents, and no call is
prepared. -/
theorem keep (named : state.Named) (journal : next.journal = state.journal)
    (lessons : ∀ lesson ∈ state.lessons, ∃ kept ∈ next.lessons,
      kept.signature = lesson.signature ∧ kept.incidentId = lesson.incidentId)
    (calls : ∀ index view candidate request read,
      next.calls index = some (.prepared view candidate request read) →
        state.calls index = some (.prepared view candidate request read)) : next.Named where
  names := by
    intro signature entry found
    rw [journal] at found
    obtain ⟨lesson, member, same, incident⟩ := named.names signature entry found
    obtain ⟨kept, keptMem, keptSame, keptIncident⟩ := lessons lesson member
    exact ⟨kept, keptMem, keptSame.trans same, keptIncident.trans incident⟩
  prepared := by
    intro index view candidate request read call
    rw [journal]
    exact named.prepared index view candidate request read
      (calls index view candidate request read call)
  single := by
    rw [journal]
    exact named.single

/-- The search found no experience of the incident. -/
theorem prepare (named : state.Named) {index : Nat} {view : IncidentView} {candidate : Candidate}
    {request : ConfirmationRequest} (unsaved : state.memory.alreadySaved view.row.incidentId = false) :
    (state.advance index (some (.prepared view candidate request state.journal.length))).Named where
  names := named.names
  prepared := by
    intro other otherView otherCandidate otherRequest read call
    simp only [Knowledge.advance, Function.update_apply] at call
    split at call
    · obtain ⟨rfl, rfl, rfl, rfl⟩ := Confirmation.prepared.inj (Option.some.inj call)
      refine ⟨Nat.le_refl _, ?_⟩
      intro signature entry found
      rw [Knowledge.advance, List.take_length] at found
      obtain ⟨lesson, member, _, incident⟩ := named.names signature entry found
      intro same
      have saved := List.any_eq_false.mp unsaved lesson member
      simp [incident, same] at saved
    · exact named.prepared other otherView otherCandidate otherRequest read call
  single := named.single

/-- A committed confirmation. -/
theorem learn {view : IncidentView} {candidate : Candidate} {request : ConfirmationRequest}
    {signature experienceId : Text} {memory : Memory} {entry : Confirmed} (named : state.Named)
    (learns : Learns env now view candidate request signature state.memory experienceId memory)
    (incident : entry.incidentId = view.row.incidentId) (signed : entry.signature = signature)
    (one : entry.attempts = 1 ∧ entry.successes = 1) (lessons : next.lessons = memory.lessons)
    (journal : next.journal = state.journal ++ [entry])
    (calls : ∀ index call, next.calls index = some call → state.calls index = some call) :
    next.Named where
  names := by
    intro wanted last found
    rw [journal, latest_concat] at found
    rw [lessons]
    split at found
    · rename_i same
      obtain rfl := Option.some.inj found
      cases learns with
      | first _ _ inserted _ _ _ =>
          refine ⟨view.lesson candidate request (env.uuid state.memory.store.uuids) signature, ?_,
            signed.symm.trans same, incident.symm⟩
          rw [Table.mem_def, (Table.insert?_eq_some_iff.mp inserted).2]
          exact List.mem_append_right _ (List.mem_singleton_self _)
      | @again existing _ known equal _ modified _ _ _ =>
          refine ⟨existing.confirmed request view.row.incidentId, ?_,
            equal.trans (signed.symm.trans same), incident.symm⟩
          rw [modified]
          exact Table.mem_modify.mpr (Or.inl ⟨existing, known, equal, rfl⟩)
    · rename_i other
      obtain ⟨lesson, member, same, named⟩ := named.names wanted last found
      refine ⟨lesson, ?_, same, named⟩
      cases learns with
      | first _ _ inserted _ _ _ =>
          rw [Table.mem_def, (Table.insert?_eq_some_iff.mp inserted).2]
          exact List.mem_append_left _ member
      | again _ _ _ modified _ _ _ =>
          rw [modified]
          refine Table.mem_modify.mpr (Or.inr ⟨member, ?_⟩)
          rw [same]
          exact fun equal => other (signed.trans equal.symm)
  prepared := by
    intro index otherView otherCandidate otherRequest read call
    obtain ⟨bound, apart⟩ := named.prepared index otherView otherCandidate otherRequest read
      (calls index _ call)
    rw [journal, List.take_append_of_le_length bound, List.length_append]
    exact ⟨Nat.le_trans bound (Nat.le_add_right _ _), apart⟩
  single := by
    rw [journal]
    intro other member
    rcases List.mem_append.mp member with old | new
    · exact named.single other old
    · exact List.mem_singleton.mp new ▸ one

end Knowledge.Named

/-! ## A prepared call commits -/

/-- The identifier that a new experience draws is new: the transaction does not
fail. -/
theorem confirmExperience_ok {memory : Memory} (undrawn : memory.store.Undrawn env)
    (view : IncidentView) (candidate : Candidate) (request : ConfirmationRequest) :
    ∃ experienceId after, memory.confirmExperience env digest now view candidate request =
      .ok (experienceId, after) := by
  have written : ∃ experienceId after, memory.writeExperience env now view candidate request
      (signatureOf digest view.row.key candidate) = .ok (experienceId, after) := by
    unfold Memory.writeExperience
    cases found : memory.lessons.find? (signatureOf digest view.row.key candidate) with
    | some existing => exact ⟨_, _, rfl⟩
    | none =>
        obtain ⟨experiences, inserted⟩ := memory.store.experiences.exists_insert?
          (view.experience now candidate (env.uuid memory.store.uuids))
          fun row member => undrawn row member _ (Nat.le_refl _)
        obtain ⟨lessons, kept⟩ := memory.lessons.exists_insert?
          (view.lesson candidate request (env.uuid memory.store.uuids)
            (signatureOf digest view.row.key candidate))
          fun lesson member => Table.find?_eq_none_iff.mp found lesson member
        simp only [inserted, kept]
        exact ⟨_, _, rfl⟩
  obtain ⟨experienceId, after, writes⟩ := written
  rw [Memory.confirmExperience, writes]
  exact ⟨_, _, rfl⟩

/-- Identifiers are drawn in order. -/
theorem Effect.uuids {before after : Store} (effect : Effect env now before after) :
    before.uuids ≤ after.uuids := by
  cases effect with
  | settle settling => exact settling.uuids
  | steer settling _ steers => exact steers.uuids ▸ settling.uuids
  | propose _ proposes => exact proposes.uuids ▸ Nat.le_add_right _ _
  | follow follows => exact follows.uuids ▸ Nat.le_add_right _ _

theorem Store.Undrawn.balanced {before after : Store} (undrawn : before.Undrawn env)
    (balanced : Balanced before after) (uuids : before.uuids ≤ after.uuids) :
    after.Undrawn env := by
  intro row member drawn later
  obtain ⟨old, oldMem, same, _⟩ := balanced.experiences.source member
  rw [same]
  exact undrawn old oldMem drawn (Nat.le_trans uuids later)

theorem Store.Undrawn.learn {view : IncidentView} {candidate : Candidate}
    {request : ConfirmationRequest} {signature experienceId : Text} {memory after : Memory}
    (undrawn : memory.store.Undrawn env)
    (learns : Learns env now view candidate request signature memory experienceId after) :
    after.store.Undrawn env := by
  intro row member drawn later
  cases learns with
  | first _ inserted _ _ uuids _ =>
      rw [uuids] at later
      have inside : row ∈ after.store.experiences.rows := member
      rw [(Table.insert?_eq_some_iff.mp inserted).2, List.mem_append, List.mem_singleton] at inside
      rcases inside with old | rfl
      · exact undrawn row old drawn (Nat.le_trans (Nat.le_succ _) later)
      · intro equal
        have same := env.uuid_injective equal
        omega
  | again _ _ experiences _ _ uuids _ =>
      rw [uuids] at later
      rw [experiences] at member
      rcases Table.mem_modify.mp member with ⟨source, sourceMem, _, rfl⟩ | ⟨old, _⟩
      · exact undrawn source sourceMem drawn later
      · exact undrawn row old drawn later

/-! ## The invariant of a run -/

namespace Knowledge

variable {legacy : LegacyDatabase env} {state : Knowledge}

/-- What holds in every state of a run. -/
structure Ready (legacy : LegacyDatabase env) (state : Knowledge) : Prop where
  tallied : state.Tallied legacy
  named : state.Named
  undrawn : state.service.store.Undrawn env

theorem Ready.opened (legacy : LegacyDatabase env) : (Knowledge.opened legacy).Ready legacy where
  tallied := .opened legacy
  named := .opened legacy
  undrawn := by
    intro row member drawn later
    obtain ⟨source, sourceMem, rfl⟩ := List.mem_map.mp (Table.mem_def.mp member)
    exact legacy.undrawn source sourceMem drawn later

/-- A transition that leaves the experiences alone. -/
theorem Ready.account {next : Knowledge} (ready : state.Ready legacy)
    (tallied : next.Tallied legacy)
    (accounting : Accounting state.service.store next.service.store)
    (uuids : state.service.store.uuids ≤ next.service.store.uuids)
    (named : next.Named) : next.Ready legacy :=
  ⟨tallied, named, ready.undrawn.balanced (accounting.balanced ready.tallied.linked) uuids⟩

/-- A call that ends or goes on, without a candidate. -/
theorem Ready.step {index : Nat} {call : Option Confirmation} (ready : state.Ready legacy)
    (unprepared : ∀ view candidate request read,
      call ≠ some (.prepared view candidate request read)) :
    (state.advance index call).Ready legacy := by
  refine ready.account (ready.tallied.advance index call) (.refl _) (Nat.le_refl _) (ready.named.keep rfl
    (fun lesson member => ⟨lesson, member, rfl, rfl⟩) ?_)
  intro other view candidate request read found
  simp only [advance, Function.update_apply] at found
  split at found
  · exact absurd found (unprepared view candidate request read)
  · exact found

/-- A transaction of a prepared call. -/
theorem Ready.learn {index : Nat} {view : IncidentView} {candidate : Candidate}
    {request : ConfirmationRequest} {experienceId : Text} {memory : Memory}
    (ready : state.Ready legacy)
    (learns : Learns env now view candidate request
      (signatureOf digest view.row.key candidate) state.memory experienceId memory) :
    let next := ((state.remember memory).enter state.service.store view.row.incidentId
      (signatureOf digest view.row.key candidate) experienceId).advance index none
    next.Ready legacy ∧ ∃ entry, entry.incidentId = view.row.incidentId ∧ entry.attempts = 1 ∧
      entry.successes = 1 ∧ next.journal = state.journal ++ [entry] := by
  intro next
  have attempts := learns.total ready.tallied.listed ExperienceRow.attemptCount (fun _ => rfl)
    fun _ => rfl
  have successes := learns.total ready.tallied.listed ExperienceRow.successCount (fun _ => rfl)
    fun _ => rfl
  have oneAttempt : memory.store.total ExperienceRow.attemptCount -
      state.service.store.total ExperienceRow.attemptCount = 1 := by
    rw [attempts]
    exact Nat.add_sub_cancel_left _ 1
  have oneSuccess : memory.store.total ExperienceRow.successCount -
      state.service.store.total ExperienceRow.successCount = 1 := by
    rw [successes]
    exact Nat.add_sub_cancel_left _ 1
  refine ⟨⟨ready.tallied.learn learns rfl rfl rfl rfl, ?_, ready.undrawn.learn learns⟩,
    _, rfl, oneAttempt, oneSuccess, rfl⟩
  refine ready.named.learn learns rfl rfl ⟨oneAttempt, oneSuccess⟩ rfl rfl ?_
  intro other call found
  simp only [next, advance, Function.update_apply] at found
  split at found
  · contradiction
  · exact found

/-- The next part of a call. -/
theorem ready_proceed (ready : state.Ready legacy) (index : Nat) :
    (state.proceed env digest now index).Ready legacy := by
  unfold proceed
  split
  · exact ready
  · split
    · exact ready.step (by simp)
    · exact ready.step (by simp)
    · split
      · exact ready.step (by simp)
      · exact ready.step (by simp)
  · rename_i view lead request _
    split
    · exact ready.step (by simp)
    · rename_i unsaved
      cases view.candidate lead with
      | none => exact ready.step (by simp)
      | some candidate =>
          exact ready.account (ready.tallied.advance index _) (.refl _) (Nat.le_refl _)
            (ready.named.prepare (Bool.eq_false_iff.mpr unsaved))
  · split
    · exact ready.step (by simp)
    · rename_i confirmed
      exact (ready.learn (confirmExperience_eq_ok confirmed)).1

theorem ready_act (ready : state.Ready legacy) (label : Int × Lecture) :
    (state.act env digest label).Ready legacy := by
  have tallied := (@tallied_act env digest legacy state ready.tallied label).1
  obtain ⟨now, lecture⟩ := label
  cases lecture with
  | serve action =>
      have sound := ready.tallied.sound
      have accounting := @accounting_act env now state.service sound action
      have uuids := ((transition_act sound ⟨now, action⟩).effect sound).uuids
      revert tallied
      unfold act
      split
      · rename_i equal
        obtain rfl := Lecture.serve.inj equal
        intro tallied
        exact ready.account tallied accounting uuids (ready.named.keep rfl
          (fun lesson member => ⟨lesson, member, rfl, rfl⟩) (by simp))
      · rename_i equal
        obtain rfl := Lecture.serve.inj equal
        intro tallied
        exact ready.account tallied accounting uuids (ready.named.keep rfl
          (fun lesson member => ⟨lesson, member, rfl, rfl⟩) fun _ _ _ _ _ found => found)
      all_goals contradiction
  | confirmExperience incidentId request =>
      have read := (@steady_get env now incidentId state.service.store).accounting
      have quiet := @settling_expireRepairs env now state.service.store
      rw [← snd_get incidentId] at quiet
      revert tallied
      show (state.confirmExperience env now incidentId request).Tallied legacy →
        (state.confirmExperience env now incidentId request).Ready legacy
      unfold confirmExperience
      dsimp only
      split
      · intro tallied
        exact ready.account tallied read quiet.uuids (ready.named.keep rfl
          (fun lesson member => ⟨lesson, member, rfl, rfl⟩) fun _ _ _ _ _ found => found)
      · intro tallied
        refine ready.account tallied read quiet.uuids (ready.named.keep rfl
          (fun lesson member => ⟨lesson, member, rfl, rfl⟩) ?_)
        intro index view candidate wanted drawn found
        simp only [Function.update_apply] at found
        split at found
        · simp at found
        · exact found
  | proceed index => exact ready_proceed ready index
  | setExperienceState experienceId stateOf reason =>
      revert tallied
      show (state.remember _).Tallied legacy → (state.remember _).Ready legacy
      rcases commit_cases (Memory.setExperienceState env now experienceId stateOf reason)
        state.memory with ⟨⟨⟩, after, set, equal⟩ | ⟨_, _, equal⟩
      · rw [equal]
        intro tallied
        obtain ⟨accounting, quiet, _, kept⟩ := accounting_setExperienceState set
        exact ready.account tallied accounting quiet.settling.uuids (ready.named.keep rfl kept
          fun _ _ _ _ _ found => found)
      · rw [equal]
        exact fun _ => ready

theorem ready_reached (legacy : LegacyDatabase env) (labels : List (Int × Lecture)) :
    (reached (Knowledge.act env digest) (Knowledge.opened legacy) labels).Ready legacy :=
  trace_induction (I := fun _ (state : Knowledge) => state.Ready legacy) (Ready.opened legacy)
    (fun _ label ready => ready_act ready label) labels

/-! ## What a transition enters in the journal -/

/-- A transition commits a prepared call or enters nothing. -/
theorem journal_act (ready : state.Ready legacy) (label : Int × Lecture) :
    (∃ index view candidate request read entry, label.2 = .proceed index ∧
      state.calls index = some (.prepared view candidate request read) ∧
      entry.incidentId = view.row.incidentId ∧ entry.attempts = 1 ∧ entry.successes = 1 ∧
      (state.act env digest label).journal = state.journal ++ [entry]) ∨
    (∀ index view candidate request read, label.2 = .proceed index →
      state.calls index ≠ some (.prepared view candidate request read)) ∧
      (state.act env digest label).journal = state.journal := by
  obtain ⟨now, lecture⟩ := label
  cases lecture with
  | serve action =>
      refine Or.inr ⟨by simp, ?_⟩
      unfold act
      split
      · rfl
      · rfl
      all_goals contradiction
  | confirmExperience incidentId request =>
      refine Or.inr ⟨by simp, ?_⟩
      show (state.confirmExperience env now incidentId request).journal = state.journal
      unfold confirmExperience
      dsimp only
      split <;> rfl
  | setExperienceState experienceId stateOf reason => exact Or.inr ⟨by simp, rfl⟩
  | proceed index =>
      cases call : state.calls index with
      | none =>
          refine Or.inr ⟨?_, ?_⟩
          · rintro other view candidate request read equal
            obtain rfl := Lecture.proceed.inj equal
            simp [call]
          · simp [act, proceed, call]
      | some confirmation =>
          cases confirmation with
          | prepared view candidate request read =>
              have commits : ∃ experienceId memory, state.memory.confirmExperience env digest now view
                candidate request = .ok (experienceId, memory) :=
                confirmExperience_ok ready.undrawn view candidate request
              obtain ⟨experienceId, memory, confirmed⟩ := commits
              have learns := confirmExperience_eq_ok confirmed
              obtain ⟨_, entry, incident, attempts, successes, journal⟩ :=
                @Ready.learn env digest now legacy state index _ _ _ _ _ ready learns
              refine Or.inl ⟨index, view, candidate, request, read, entry, rfl, call, incident,
                attempts, successes, ?_⟩
              rw [← journal]
              simp [act, proceed, call, confirmed]
          | viewed view request =>
              refine Or.inr ⟨?_, ?_⟩
              · rintro other view candidate request read equal
                obtain rfl := Lecture.proceed.inj equal
                simp [call]
              · simp only [act, proceed, call]
                split
                · rfl
                · rfl
                · split <;> rfl
          | weighed view lead request =>
              refine Or.inr ⟨?_, ?_⟩
              · rintro other view candidate request read equal
                obtain rfl := Lecture.proceed.inj equal
                simp [call]
              · simp only [act, proceed, call]
                split <;> rfl

/-! ## Teaching once -/

/-- Confirmations that add one each are counted. -/
theorem taught_eq {count : Confirmed → Nat} (one : ∀ entry ∈ state.journal, count entry = 1)
    (incidentId : Text) : state.taught count incidentId =
      (state.journal.filter fun entry => entry.incidentId = incidentId).length := by
  rw [taught, List.map_congr_left (g := fun _ => 1) fun entry member =>
    one entry (List.mem_of_mem_filter member)]
  simp

/-- An incident teaches once when it has one confirmation. -/
theorem Ready.teachesOnce_iff_settled (ready : state.Ready legacy) : state.TeachesOnce ↔
    ∀ incidentId, (state.journal.filter fun entry => entry.incidentId = incidentId).length ≤ 1 := by
  unfold TeachesOnce
  simp only [taught_eq fun entry member => (ready.named.single entry member).1,
    taught_eq fun entry member => (ready.named.single entry member).2, and_self]

/-- A prepared call is unrivalled when its incident has no confirmation yet. -/
theorem Ready.unrivalled_iff (ready : state.Ready legacy) {index : Nat} {view : IncidentView}
    {candidate : Candidate} {request : ConfirmationRequest} {read : Nat}
    (call : state.calls index = some (.prepared view candidate request read)) :
    Unrivalled state.journal read view.row.incidentId ↔
      ∀ entry ∈ state.journal, entry.incidentId ≠ view.row.incidentId := by
  obtain ⟨_, apart⟩ := ready.named.prepared index view candidate request read call
  constructor
  · rintro ⟨later, earlier⟩ entry member
    rw [← List.take_append_drop read state.journal, List.mem_append] at member
    rcases member with old | new
    · obtain ⟨front, back, cut⟩ := List.append_of_mem old
      intro same
      -- the experience of its signature was named by the incident ever since
      obtain ⟨last, found, place⟩ := @latest_of_cut _ _ _ Confirmed.signature entry front back
      rw [← cut] at found
      refine apart entry.signature last found ?_
      rcases place with rfl | inside
      · exact same
      · exact earlier front entry back cut same last inside (key_of_latest found)
    · exact later entry new
  · intro none
    refine ⟨fun entry member => none entry (List.mem_of_mem_drop member), ?_⟩
    intro earlier entry later cut same
    have member : entry ∈ state.journal := by
      apply List.mem_of_mem_take (i := read)
      rw [cut]
      exact List.mem_append_right _ List.mem_cons_self
    exact absurd same (none entry member)

/-- One more confirmation keeps an incident teaching once when it is the first of
its incident. -/
theorem filter_concat_le_iff {journal : List Confirmed} {entry : Confirmed}
    (before : ∀ incidentId,
      (journal.filter fun other => other.incidentId = incidentId).length ≤ 1) :
    (∀ incidentId, ((journal ++ [entry]).filter fun other =>
      other.incidentId = incidentId).length ≤ 1) ↔
      ∀ other ∈ journal, other.incidentId ≠ entry.incidentId := by
  constructor
  · intro once other member same
    have two := once entry.incidentId
    rw [List.filter_append, List.length_append] at two
    have last : ([entry].filter fun other => other.incidentId = entry.incidentId).length = 1 := by
      simp
    have old : 0 < (journal.filter fun other => other.incidentId = entry.incidentId).length :=
      List.length_pos_of_mem (List.mem_filter.mpr ⟨member, by simp [same]⟩)
    omega
  · intro first incidentId
    rw [List.filter_append, List.length_append]
    by_cases same : entry.incidentId = incidentId
    · have none : journal.filter (fun other => other.incidentId = incidentId) = [] := by
        rw [List.filter_eq_nil_iff]
        intro other member equal
        exact first other member ((of_decide_eq_true equal).trans same.symm)
      rw [none]
      simp [same]
    · have kept := before incidentId
      simp only [List.filter_singleton, same, decide_false]
      exact kept

/-- In every state of a run each incident teaches one attempt and one success at
most, exactly when every confirmation that the run commits is undisturbed. -/
theorem teachesOnce_iff (env : Environment) (digest : Text → Text) (legacy : LegacyDatabase env)
    (labels : List (Int × Lecture)) :
    (∀ earlier later, labels = earlier ++ later →
      (reached (Knowledge.act env digest) (Knowledge.opened legacy) earlier).TeachesOnce) ↔
    ∀ earlier label later, labels = earlier ++ label :: later →
      (reached (Knowledge.act env digest) (Knowledge.opened legacy) earlier).Undisturbed label := by
  have entry : ∀ earlier, (reached (Knowledge.act env digest) (Knowledge.opened legacy)
      earlier).Ready legacy := ready_reached legacy
  refine always_iff (P := Knowledge.Undisturbed) ?_ ?_ ?_ labels
  · intro incidentId
    exact ⟨Nat.zero_le _, Nat.zero_le _⟩
  · intro earlier label once undisturbed
    have ready := entry earlier
    have after := @ready_act env digest legacy _ ready label
    rw [ready.teachesOnce_iff_settled] at once
    rw [after.teachesOnce_iff_settled]
    rcases @journal_act env digest legacy _ ready label with
      ⟨index, view, candidate, request, read, entered, proceeds, call, incident, _, _, journal⟩ |
        ⟨_, journal⟩
    · rw [journal, filter_concat_le_iff once, incident]
      exact (ready.unrivalled_iff call).mp
        (undisturbed index view candidate request read proceeds call)
    · rw [journal]
      exact once
  · intro earlier label once disturbed
    have ready := entry earlier
    have after := @ready_act env digest legacy _ ready label
    rw [ready.teachesOnce_iff_settled] at once
    rw [after.teachesOnce_iff_settled]
    intro still
    apply disturbed
    intro index view candidate request read proceeds call
    rw [ready.unrivalled_iff call]
    rcases @journal_act env digest legacy _ ready label with
      ⟨other, otherView, _, _, _, entered, otherProceeds, otherCall, incident, _, _, journal⟩ |
        ⟨idle, _⟩
    · obtain rfl := Lecture.proceed.inj (proceeds.symm.trans otherProceeds)
      obtain ⟨rfl, _⟩ := Confirmation.prepared.inj (Option.some.inj (call.symm.trans otherCall))
      rw [journal, filter_concat_le_iff once, incident] at still
      exact still
    · exact absurd call (idle index view candidate request read proceeds)

end Knowledge

/-! ## Two incidents with one signature -/

/-- A fault that a declared manual action ends; the incident draws one
identifier and the action another. -/
def manualRecovery (start drawn : Nat) (id : Char) : List (Int × Lecture) :=
  [(summerMorning + start * minute, .serve (.process
      (dhcpObservation [id, 'a'] .unhealthy (summerMorning + start * minute)))),
    (summerMorning + (start + 1) * minute, .serve (.declareManualResolution
      (summerEnvironment.uuid drawn) ⟨"box", none, .vision⟩ "")),
    (summerMorning + (start + 2) * minute, .serve (.process
      (dhcpObservation [id, 'b'] .healthy (summerMorning + (start + 2) * minute))))]

/-- A call of `confirm_experience` from its read to its transaction. -/
def confirmation (start call drawn : Nat) : List (Int × Lecture) :=
  [(summerMorning + start * minute,
      .confirmExperience (summerEnvironment.uuid drawn) ⟨.vision, ['a']⟩),
    (summerMorning + start * minute, .proceed call),
    (summerMorning + start * minute, .proceed call),
    (summerMorning + start * minute, .proceed call)]

/-- The first incident is confirmed, then the second one, then the first again. -/
def alternatingConfirmations : List (Int × Lecture) :=
  manualRecovery 0 0 'a' ++ confirmation 3 0 0 ++ manualRecovery 10 3 'b' ++ confirmation 13 1 3 ++
    confirmation 14 2 0

/-- The first incident teaches twice. -/
theorem alternatingConfirmations_teach_twice :
    ¬ (reached (Knowledge.act summerEnvironment id)
      (Knowledge.opened (LegacyDatabase.fresh summerEnvironment))
      alternatingConfirmations).TeachesOnce :=
  fun once => absurd (once (summerEnvironment.uuid 0)).1 (by decide +kernel)

end OhanaAgent.Tsunade
