import OhanaAgent.Transition.Trace
import OhanaAgent.Tsunade.Balance

/-!
# The counters of the experiences

A confirmation inserts an experience with one attempt and one success, or adds
them to the experience with its signature.  In every state that is reached, the
counters of an experience are those of the migrated database, those of its
confirmations and those of the repairs that refer to it.
-/

namespace OhanaAgent.Tsunade

open OhanaAgent.Encoding.Json
open OhanaAgent.Store
open OhanaAgent.Time
open OhanaAgent.Transition

variable {env : Environment} {digest : Text → Text} {now : Int}

/-! ## The transaction of a confirmation -/

/-- What a committed confirmation wrote. -/
inductive Learns (env : Environment) (now : Int) (view : IncidentView) (candidate : Candidate)
    (request : ConfirmationRequest) (signature : Text) (memory : Memory) : Text → Memory → Prop
  | first {after : Memory} (unknown : memory.lessons.find? signature = none)
      (experience : memory.store.experiences.insert?
        (view.experience now candidate (env.uuid memory.store.uuids)) = some after.store.experiences)
      (lesson : memory.lessons.insert?
        (view.lesson candidate request (env.uuid memory.store.uuids) signature) = some after.lessons)
      (repairs : after.store.repairs = memory.store.repairs)
      (uuids : after.store.uuids = memory.store.uuids + 1)
      (quiet : Quiet memory.store after.store) :
      Learns env now view candidate request signature memory (env.uuid memory.store.uuids) after
  | again {existing : Lesson} {after : Memory} (known : existing ∈ memory.lessons)
      (same : existing.signature = signature)
      (experiences : after.store.experiences = memory.store.experiences.modify existing.experienceId
        (ExperienceRow.confirmed now (view.succeededAt now)) fun _ => rfl)
      (lessons : after.lessons = memory.lessons.modify signature
        (Lesson.confirmed request view.row.incidentId) fun _ => rfl)
      (repairs : after.store.repairs = memory.store.repairs)
      (uuids : after.store.uuids = memory.store.uuids)
      (quiet : Quiet memory.store after.store) :
      Learns env now view candidate request signature memory existing.experienceId after

theorem confirmExperience_eq_ok {view : IncidentView} {candidate : Candidate}
    {request : ConfirmationRequest} {memory after : Memory} {experienceId : Text}
    (confirmed : memory.confirmExperience env digest now view candidate request =
      .ok (experienceId, after)) :
    Learns env now view candidate request (signatureOf digest view.row.key candidate) memory
      experienceId after := by
  simp only [Memory.confirmExperience, bind_eq_ok] at confirmed
  obtain ⟨⟨id, written⟩, writes, rest⟩ := confirmed
  obtain ⟨rfl, rfl⟩ := Prod.mk.inj (pure_eq_ok.mp rest)
  unfold Memory.writeExperience at writes
  split at writes
  · rename_i unknown
    dsimp only at writes
    split at writes
    · rename_i experiences lessons inserted kept
      obtain ⟨rfl, rfl⟩ := Prod.mk.inj (Except.ok.inj writes)
      exact .first unknown inserted kept rfl rfl (.of_same rfl rfl rfl
        (.of_eq rfl rfl rfl (Nat.le_succ _) ⟨_, rfl⟩))
    · contradiction
  · rename_i existing found
    obtain ⟨known, same⟩ := Table.find?_eq_some_iff.mp found
    obtain ⟨rfl, rfl⟩ := Prod.mk.inj (Except.ok.inj writes)
    exact .again known same rfl rfl rfl rfl (.of_same rfl rfl rfl
      (.of_eq rfl rfl rfl (Nat.le_refl _) ⟨_, rfl⟩))

namespace Learns

variable {view : IncidentView} {candidate : Candidate} {request : ConfirmationRequest}
  {signature experienceId : Text} {memory after : Memory}

theorem quiet (learns : Learns env now view candidate request signature memory experienceId after) :
    Quiet memory.store after.store := by
  cases learns <;> assumption

theorem repairs
    (learns : Learns env now view candidate request signature memory experienceId after) :
    after.store.repairs = memory.store.repairs := by
  cases learns <;> assumption

/-- An experience that was there is still there. -/
theorem knows (learns : Learns env now view candidate request signature memory experienceId after)
    {id : Text} (known : memory.store.Knows id) : after.store.Knows id := by
  obtain ⟨row, member, same⟩ := known
  cases learns with
  | first _ inserted _ _ _ _ =>
      refine ⟨row, ?_, same⟩
      rw [Table.mem_def, (Table.insert?_eq_some_iff.mp inserted).2]
      exact List.mem_append_left _ member
  | @again existing _ _ _ experiences _ _ _ _ =>
      have rewrites : Table.Rewrites (fun row next : ExperienceRow =>
          next.experienceId = row.experienceId) memory.store.experiences after.store.experiences := by
        rw [experiences]
        exact Table.Rewrites.modify _ (fun _ _ _ => rfl) fun _ _ _ => rfl
      obtain ⟨next, nextMem, kept⟩ := rewrites.target member
      exact ⟨next, nextMem, kept.trans same⟩

/-- The confirmed experience is there. -/
theorem known (learns : Learns env now view candidate request signature memory experienceId after)
    (listed : ∀ lesson ∈ memory.lessons, memory.store.Knows lesson.experienceId) :
    after.store.Knows experienceId := by
  have kept := @knows env now view candidate request signature experienceId memory after learns
  cases learns with
  | first _ inserted _ _ _ _ =>
      refine ⟨view.experience now candidate (env.uuid memory.store.uuids), ?_, rfl⟩
      rw [Table.mem_def, (Table.insert?_eq_some_iff.mp inserted).2]
      exact List.mem_append_right _ (List.mem_singleton_self _)
  | @again existing _ known _ _ _ _ _ _ => exact kept (listed existing known)

/-- Every lesson afterwards is about an experience that is there. -/
theorem listed (learns : Learns env now view candidate request signature memory experienceId after)
    (before : ∀ lesson ∈ memory.lessons, memory.store.Knows lesson.experienceId) :
    ∀ lesson ∈ after.lessons, after.store.Knows lesson.experienceId := by
  intro lesson member
  have kept := @knows env now view candidate request signature experienceId memory after learns
  have confirmed := learns.known before
  cases learns with
  | first _ _ inserted _ _ _ =>
      rw [Table.mem_def, (Table.insert?_eq_some_iff.mp inserted).2, List.mem_append,
        List.mem_singleton] at member
      rcases member with old | rfl
      · exact kept (before lesson old)
      · exact confirmed
  | again _ _ _ lessons _ _ _ =>
      rw [lessons] at member
      rcases Table.mem_modify.mp member with ⟨source, sourceMem, _, rfl⟩ | ⟨old, _⟩
      · exact kept (before source sourceMem)
      · exact kept (before lesson old)

end Learns

/-! ## The invariant -/

/-- What a confirmation contributes to an experience. -/
def Confirmed.contribution (experienceId : Text) (entry : Confirmed) : Counters :=
  if entry.experienceId = experienceId then ⟨1, 1, 0⟩ else 0

/-- What the confirmations contribute to an experience. -/
def Knowledge.confirmations (experienceId : Text) (state : Knowledge) : Counters :=
  (state.journal.map (Confirmed.contribution experienceId)).sum

/-- The counters of an experience in the migrated database. -/
def LegacyDatabase.counters (legacy : LegacyDatabase env) (experienceId : Text) : Counters :=
  match legacy.experiences.find? experienceId with
  | none => 0
  | some row => row.counters

/-- The migration counts an attempt for each outcome. -/
theorem LegacyDatabase.counters_consistent (legacy : LegacyDatabase env) (experienceId : Text) :
    (legacy.counters experienceId).Consistent := by
  unfold counters
  split
  · exact Counters.consistent_zero
  · rename_i row found
    obtain ⟨source, _, rfl⟩ := List.mem_map.mp (Table.find?_eq_some_iff.mp found).1
    exact Nat.le_refl _

/-- The counters are accounted for. -/
structure Knowledge.Tallied (legacy : LegacyDatabase env) (state : Knowledge) : Prop where
  sound : state.service.Sound env
  linked : state.service.store.Linked
  kept : ∀ row ∈ legacy.experiences, state.service.store.Knows row.experienceId
  entered : ∀ entry ∈ state.journal, state.service.store.Knows entry.experienceId
  listed : ∀ lesson ∈ state.lessons, state.service.store.Knows lesson.experienceId
  tally : ∀ row ∈ state.service.store.experiences, row.counters =
    legacy.counters row.experienceId + state.confirmations row.experienceId +
      state.service.store.contributions row.experienceId

namespace Knowledge.Tallied

variable {legacy : LegacyDatabase env} {state : Knowledge}

theorem opened (legacy : LegacyDatabase env) : (Knowledge.opened legacy).Tallied legacy where
  sound :=
    ⟨⟨legacy.accounted.known, legacy.accounted.requested, legacy.accounted.pending,
      legacy.accounted.drawn, legacy.accounted.drawnRequests, legacy.accounted.references⟩,
      by simp [Knowledge.opened], by simp [Knowledge.opened]⟩
  linked := by
    intro repair member experienceId refers
    rw [legacy.unlinked repair member] at refers
    contradiction
  kept := fun row member => ⟨row, member, rfl⟩
  entered := by simp [Knowledge.opened]
  listed := by
    intro lesson member
    obtain ⟨row, rowMem, rfl⟩ := List.mem_map.mp (Table.mem_def.mp member)
    exact ⟨row.migrated, List.mem_map_of_mem rowMem, rfl⟩
  tally := by
    intro row member
    have found : legacy.experiences.find? row.experienceId = some row :=
      Table.find?_eq_some_iff.mpr ⟨member, rfl⟩
    have nothing : (Knowledge.opened legacy).service.store.contributions row.experienceId = 0 :=
      Table.sumOf_eq_zero fun repair repairMem =>
        RepairRow.contribution_of_ne (by simp [legacy.unlinked repair repairMem])
    have silent : (Knowledge.opened legacy).confirmations row.experienceId = 0 := rfl
    rw [nothing, silent, LegacyDatabase.counters, found, add_zero, add_zero]

/-- A part that accounts and confirms nothing. -/
theorem account {service : Service} {next : Knowledge} (tallied : state.Tallied legacy)
    (sound : service.Sound env) (accounting : Accounting state.service.store service.store)
    (moved : next.service = service)
    (lessons : ∀ lesson ∈ next.lessons, ∃ old ∈ state.lessons,
      lesson.experienceId = old.experienceId)
    (journal : next.journal = state.journal) : next.Tallied legacy := by
  have balanced := accounting.balanced tallied.linked
  subst moved
  refine ⟨sound, accounting.linked tallied.linked, ?_, ?_, ?_, ?_⟩
  · exact fun row member => balanced.knows (tallied.kept row member)
  · rw [journal]
    exact fun entry member => balanced.knows (tallied.entered entry member)
  · intro lesson member
    obtain ⟨old, oldMem, same⟩ := lessons lesson member
    exact same ▸ balanced.knows (tallied.listed old oldMem)
  · intro row member
    obtain ⟨old, oldMem, same, moves⟩ := balanced.experiences.source member
    have before := tallied.tally old oldMem
    rw [Knowledge.confirmations, journal, same]
    apply add_right_cancel (b := state.service.store.contributions old.experienceId)
    calc row.counters + state.service.store.contributions old.experienceId
        = old.counters + next.service.store.contributions old.experienceId := moves
      _ = _ := by
          rw [before, Knowledge.confirmations]
          abel

/-- No repair, no confirmation and no row of the migrated database contributes
to an experience that is not there. -/
theorem unknown (tallied : state.Tallied legacy) {experienceId : Text}
    (fresh : ¬ state.service.store.Knows experienceId) :
    legacy.counters experienceId = 0 ∧ state.confirmations experienceId = 0 ∧
      state.service.store.contributions experienceId = 0 := by
  refine ⟨?_, ?_, ?_⟩
  · have absent : legacy.experiences.find? experienceId = none := by
      rw [Table.find?_eq_none_iff]
      rintro row member rfl
      exact fresh (tallied.kept row member)
    rw [LegacyDatabase.counters, absent]
  · apply List.sum_eq_zero
    intro value member
    obtain ⟨entry, entryMem, rfl⟩ := List.mem_map.mp member
    apply if_neg
    rintro rfl
    exact fresh (tallied.entered entry entryMem)
  · apply Table.sumOf_eq_zero
    intro repair member
    apply RepairRow.contribution_of_ne
    intro refers
    exact fresh (tallied.linked repair member experienceId refers).2

/-- A committed confirmation counts once, for its experience. -/
theorem learn {view : IncidentView} {candidate : Candidate} {request : ConfirmationRequest}
    {signature experienceId : Text} {memory : Memory} {entry : Confirmed}
    (tallied : state.Tallied legacy)
    (learns : Learns env now view candidate request signature state.memory experienceId memory)
    (named : entry.experienceId = experienceId) {next : Knowledge}
    (service : next.service = { state.service with store := memory.store })
    (lessons : next.lessons = memory.lessons) (journal : next.journal = state.journal ++ [entry]) :
    next.Tallied legacy := by
  have sound := tallied.sound.settle learns.quiet.settling
  have contributes : ∀ id, memory.store.contributions id = state.service.store.contributions id :=
    fun id => congrArg (Table.sumOf (RepairRow.contribution id)) learns.repairs
  have confirms : ∀ id, next.confirmations id = state.confirmations id + entry.contribution id := by
    intro id
    rw [Knowledge.confirmations, journal, List.map_append, List.sum_append]
    simp [Knowledge.confirmations]
  have keeps : ∀ {id}, state.service.store.Knows id → memory.store.Knows id := learns.knows
  have known := learns.known tallied.listed
  have listed := learns.listed tallied.listed
  have repairs := learns.repairs
  refine ⟨service ▸ sound, ?_, ?_, ?_, ?_, ?_⟩
  · rw [service]
    intro repair member id refers
    have old : repair ∈ state.service.store.repairs := repairs ▸ member
    obtain ⟨executed, knows⟩ := tallied.linked repair old id refers
    exact ⟨executed, keeps knows⟩
  · rw [service]
    exact fun row member => keeps (tallied.kept row member)
  · rw [service, journal]
    intro other member
    rcases List.mem_append.mp member with old | new
    · exact keeps (tallied.entered other old)
    · rw [List.mem_singleton.mp new, named]
      exact known
  · rw [service, lessons]
    exact listed
  · rw [service]
    intro row member
    rw [confirms, contributes]
    cases learns with
    | first unknown inserted _ _ _ _ =>
        obtain ⟨fresh, rows⟩ := Table.insert?_eq_some_iff.mp inserted
        have inside : row ∈ memory.store.experiences.rows := member
        rw [rows, List.mem_append, List.mem_singleton] at inside
        rcases inside with old | rfl
        · have other : entry.experienceId ≠ row.experienceId := by
            rw [named]
            exact fun same => fresh row old same.symm
          rw [tallied.tally row old, Confirmed.contribution, if_neg other, add_zero]
        · have absent : ¬ state.service.store.Knows (env.uuid state.memory.store.uuids) := by
            rintro ⟨old, oldMem, same⟩
            exact fresh old oldMem same
          obtain ⟨legacyZero, confirmedZero, contributedZero⟩ := tallied.unknown absent
          show _ = legacy.counters (env.uuid state.memory.store.uuids) +
            (state.confirmations (env.uuid state.memory.store.uuids) +
              entry.contribution (env.uuid state.memory.store.uuids)) +
            state.service.store.contributions (env.uuid state.memory.store.uuids)
          rw [legacyZero, confirmedZero, contributedZero, Confirmed.contribution, if_pos named]
          rfl
    | @again existing _ _ _ experiences _ _ _ _ =>
        rw [experiences] at member
        rcases Table.mem_modify.mp member with ⟨old, oldMem, same, rfl⟩ | ⟨old, other⟩
        · have moved : (old.confirmed now (view.succeededAt now)).counters =
              old.counters + ⟨1, 1, 0⟩ := rfl
          have entered : entry.contribution old.experienceId = ⟨1, 1, 0⟩ :=
            if_pos (named.trans same.symm)
          have before := tallied.tally old oldMem
          show _ = legacy.counters old.experienceId + (state.confirmations old.experienceId +
            entry.contribution old.experienceId) + state.service.store.contributions old.experienceId
          rw [moved, before, entered]
          abel
        · have silent : entry.contribution row.experienceId = 0 :=
            if_neg fun equal => other (equal.symm.trans named)
          rw [tallied.tally row old, silent, add_zero]

end Knowledge.Tallied

/-- `set_experience_state` keeps the counters. -/
theorem accounting_setExperienceState {memory after : Memory} {experienceId : Text}
    {stateOf : ExperienceState} {reason : Option String}
    (set : memory.setExperienceState env now experienceId stateOf reason = .ok ((), after)) :
    Accounting memory.store after.store ∧ Quiet memory.store after.store ∧
      (∀ lesson ∈ after.lessons, ∃ old ∈ memory.lessons,
        lesson.experienceId = old.experienceId) ∧
      ∀ lesson ∈ memory.lessons, ∃ kept ∈ after.lessons,
        kept.signature = lesson.signature ∧ kept.incidentId = lesson.incidentId := by
  unfold Memory.setExperienceState at set
  split at set
  · contradiction
  · obtain rfl := (Prod.mk.inj (Except.ok.inj set)).2
    suffices balanced : Balanced memory.store _ by
      refine ⟨⟨fun _ => balanced, ?_⟩,
        .of_same rfl rfl rfl (.of_eq rfl rfl rfl (Nat.le_refl _) (noEvents rfl)), ?_, ?_⟩
      · intro linked repair member id refers
        obtain ⟨executed, knows⟩ := linked repair member id refers
        exact ⟨executed, balanced.knows knows⟩
      · intro lesson member
        obtain ⟨old, oldMem, rfl⟩ := List.mem_map.mp (Table.mem_def.mp member)
        refine ⟨old, oldMem, ?_⟩
        split <;> rfl
      · intro lesson member
        refine ⟨_, List.mem_map_of_mem (Table.mem_def.mp member), ?_⟩
        split <;> exact ⟨rfl, rfl⟩
    refine ⟨?_, fun row member => ⟨row, member, .refl row⟩⟩
    exact Table.Rewrites.modify (f := ExperienceRow.activated _) (fun _ => rfl)
      (fun _ _ _ => ⟨rfl, rfl⟩) fun _ _ _ => ⟨rfl, rfl⟩

/-! ## Every run -/

namespace Knowledge

variable {legacy : LegacyDatabase env} {state : Knowledge}

/-- The repairs of a state go on in another. -/
def RepairsFollow (before after : Knowledge) : Prop :=
  ∀ row ∈ before.service.store.repairs, ∃ next ∈ after.service.store.repairs, row.Follows next

theorem RepairsFollow.refl (state : Knowledge) : state.RepairsFollow state :=
  fun row member => ⟨row, member, .refl row⟩

theorem RepairsFollow.trans {first second third : Knowledge} (left : first.RepairsFollow second)
    (right : second.RepairsFollow third) : first.RepairsFollow third := by
  intro row member
  obtain ⟨middle, middleMem, follows⟩ := left row member
  obtain ⟨next, nextMem, also⟩ := right middle middleMem
  exact ⟨next, nextMem, follows.trans also⟩

/-- A part that accounts and confirms nothing. -/
theorem Tallied.account_follow {service : Service} {next : Knowledge}
    (tallied : state.Tallied legacy) (sound : service.Sound env)
    (accounting : Accounting state.service.store service.store) (moved : next.service = service)
    (lessons : ∀ lesson ∈ next.lessons, ∃ old ∈ state.lessons,
      lesson.experienceId = old.experienceId) (journal : next.journal = state.journal) :
    next.Tallied legacy ∧ state.RepairsFollow next := by
  refine ⟨tallied.account sound accounting moved lessons journal, ?_⟩
  unfold RepairsFollow
  rw [moved]
  exact (accounting.balanced tallied.linked).repairs

/-- A part that touches neither the database nor the journal. -/
theorem Tallied.idle {next : Knowledge} (tallied : state.Tallied legacy)
    (moved : next.service = state.service) (lessons : next.lessons = state.lessons)
    (journal : next.journal = state.journal) :
    next.Tallied legacy ∧ state.RepairsFollow next :=
  tallied.account_follow tallied.sound (.refl _) moved
    (fun lesson member => ⟨lesson, lessons ▸ member, rfl⟩) journal

theorem Tallied.advance (tallied : state.Tallied legacy) (index : Nat)
    (call : Option Confirmation) : (state.advance index call).Tallied legacy :=
  ⟨tallied.sound, tallied.linked, tallied.kept, tallied.entered, tallied.listed, tallied.tally⟩

theorem tallied_confirmExperience (tallied : state.Tallied legacy) (incidentId : Text)
    (request : ConfirmationRequest) :
    (state.confirmExperience env now incidentId request).Tallied legacy ∧
      state.RepairsFollow (state.confirmExperience env now incidentId request) := by
  have read := @steady_get env now incidentId state.service.store
  have sound := tallied.sound.settle (@settling_expireRepairs env now state.service.store)
  rw [← snd_get incidentId] at sound
  unfold Knowledge.confirmExperience
  dsimp only
  split
  · exact tallied.account_follow sound read.accounting rfl
      (fun lesson member => ⟨lesson, member, rfl⟩) rfl
  · exact tallied.account_follow sound read.accounting rfl
      (fun lesson member => ⟨lesson, member, rfl⟩) rfl

theorem tallied_proceed (tallied : state.Tallied legacy) (index : Nat) :
    (state.proceed env digest now index).Tallied legacy ∧
      state.RepairsFollow (state.proceed env digest now index) := by
  unfold Knowledge.proceed
  split
  · exact ⟨tallied, .refl state⟩
  · split
    · exact tallied.idle rfl rfl rfl
    · exact tallied.idle rfl rfl rfl
    · split <;> exact tallied.idle rfl rfl rfl
  · split <;> exact tallied.idle rfl rfl rfl
  · split
    · exact tallied.idle rfl rfl rfl
    · rename_i memory confirmed
      have learns := confirmExperience_eq_ok confirmed
      refine ⟨tallied.learn learns rfl rfl rfl rfl, ?_⟩
      intro row member
      exact ⟨row, (congrArg (row ∈ ·) learns.repairs).mpr member, .refl row⟩

/-- One transition. -/
theorem tallied_act (tallied : state.Tallied legacy) (label : Int × Lecture) :
    (state.act env digest label).Tallied legacy ∧
      state.RepairsFollow (state.act env digest label) := by
  obtain ⟨now, lecture⟩ := label
  cases lecture with
  | serve action =>
      have sound := sound_act tallied.sound ⟨now, action⟩
      have accounting := @accounting_act env now state.service tallied.sound action
      have kept : ∀ lesson ∈ state.lessons, ∃ old ∈ state.lessons,
          lesson.experienceId = old.experienceId := fun lesson member => ⟨lesson, member, rfl⟩
      unfold Knowledge.act
      split
      · rename_i equal
        obtain rfl := Lecture.serve.inj equal
        exact tallied.account_follow sound accounting rfl kept rfl
      · rename_i equal
        obtain rfl := Lecture.serve.inj equal
        exact tallied.account_follow sound accounting rfl kept rfl
      all_goals contradiction
  | confirmExperience incidentId request => exact tallied_confirmExperience tallied incidentId request
  | proceed index => exact tallied_proceed tallied index
  | setExperienceState experienceId stateOf reason =>
      show (state.remember _).Tallied legacy ∧ state.RepairsFollow (state.remember _)
      rcases commit_cases (Memory.setExperienceState env now experienceId stateOf reason)
        state.memory with ⟨⟨⟩, after, set, equal⟩ | ⟨_, _, equal⟩
      · rw [equal]
        obtain ⟨accounting, quiet, lessons, _⟩ := accounting_setExperienceState set
        exact tallied.account_follow (tallied.sound.settle quiet.settling) accounting rfl lessons rfl
      · rw [equal]
        exact tallied.idle rfl rfl rfl

/-- The invariant holds after every list of transitions. -/
theorem tallied_reached (legacy : LegacyDatabase env) (labels : List (Int × Lecture)) :
    (reached (Knowledge.act env digest) (Knowledge.opened legacy) labels).Tallied legacy :=
  trace_induction (I := fun _ (state : Knowledge) => state.Tallied legacy) (Tallied.opened legacy)
    (fun _ label tallied => (tallied_act tallied label).1) labels

/-- The repairs of a run go on to its end. -/
theorem repairsFollow_reached (legacy : LegacyDatabase env) (earlier later : List (Int × Lecture)) :
    (reached (Knowledge.act env digest) (Knowledge.opened legacy) earlier).RepairsFollow
      (reached (Knowledge.act env digest) (Knowledge.opened legacy) (earlier ++ later)) := by
  induction later using List.reverseRecOn with
  | nil =>
      rw [List.append_nil]
      exact .refl _
  | append_singleton later label ih =>
      rw [← List.append_assoc, reached_concat]
      exact ih.trans (tallied_act (tallied_reached legacy (earlier ++ later)) label).2

/-- In every state that is reached the outcomes of an experience are outcomes of
its attempts, and its counters are those of the migrated database, one attempt
and one success for each confirmation, and what the repairs contribute: one
attempt and one outcome at most, to the experience that an executed repair
refers to ever since. -/
theorem experience_counters (env : Environment) (digest : Text → Text)
    (legacy : LegacyDatabase env) (labels : List (Int × Lecture)) :
    let state := reached (Knowledge.act env digest) (Knowledge.opened legacy) labels
    (∀ row ∈ state.service.store.experiences,
      row.successCount + row.failureCount ≤ row.attemptCount ∧
      row.counters = legacy.counters row.experienceId + state.confirmations row.experienceId +
        state.service.store.contributions row.experienceId) ∧
    (∀ repair ∈ state.service.store.repairs,
      (∀ id, (repair.contribution id).attempts ≤ 1 ∧
        (repair.contribution id).successes + (repair.contribution id).failures ≤
          (repair.contribution id).attempts ∧
        (repair.contribution id ≠ 0 → repair.status.isExecuted = true)) ∧
      ∀ first second, repair.contribution first ≠ 0 → repair.contribution second ≠ 0 →
        first = second) ∧
    ∀ later, state.RepairsFollow
      (reached (Knowledge.act env digest) (Knowledge.opened legacy) (labels ++ later)) := by
  intro state
  have tallied : state.Tallied legacy := tallied_reached legacy labels
  refine ⟨?_, ?_, repairsFollow_reached legacy labels⟩
  · intro row member
    have tally := tallied.tally row member
    have confirmed : (state.confirmations row.experienceId).Consistent := by
      apply Counters.Consistent.sum
      intro counters inside
      obtain ⟨entry, _, rfl⟩ := List.mem_map.mp inside
      unfold Confirmed.contribution
      split
      · exact Nat.le_refl 1
      · exact Counters.consistent_zero
    have contributed : (state.service.store.contributions row.experienceId).Consistent := by
      apply Counters.Consistent.sum
      intro counters inside
      obtain ⟨repair, _, rfl⟩ := List.mem_map.mp inside
      exact (repair.contribution_le row.experienceId).2
    refine ⟨?_, tally⟩
    have consistent := ((legacy.counters_consistent row.experienceId).add confirmed).add contributed
    rw [← tally] at consistent
    exact consistent
  · intro repair member
    refine ⟨fun id => ?_, fun first second => RepairRow.contribution_unique⟩
    obtain ⟨attempts, outcomes⟩ := repair.contribution_le id
    refine ⟨attempts, outcomes, fun contributes => ?_⟩
    have refers : repair.experienceId = some id := by
      by_contra other
      exact contributes (RepairRow.contribution_of_ne other)
    exact (tallied.linked repair member id refers).1

end Knowledge

end OhanaAgent.Tsunade
