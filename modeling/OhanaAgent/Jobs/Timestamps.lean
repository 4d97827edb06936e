import OhanaAgent.Jobs.Exclusivity
import OhanaAgent.Time.Clock
import Mathlib.Data.List.Dedup

/-!
# Comparisons of stored timestamps

Pairings expire, finished jobs are purged and waiting jobs are selected by
comparing texts in Paris time.  Such a comparison is that of the instants exactly
when the clock was not put back between them by at least the time that passed.
-/

namespace OhanaAgent.Jobs

open OhanaAgent.Encoding.Json
open OhanaAgent.Store
open OhanaAgent.Time

variable {env : Environment} {config : Config} {now : Int} {db : Database}

/-- An instant with a Paris time that `datetime` can hold. -/
def Environment.Writes (env : Environment) (instant : Int) : Prop :=
  Representable (env.paris.wall instant)

/-! ## What the operations compare -/

/-- The pairing request is expired after `_expire_pairings_locked`. -/
def Database.Expires (env : Environment) (now : Int) (db : Database) (row : PairingRow) : Prop :=
  ∃ next ∈ (db.expirePairings env now).pairings,
    next.pairingId = row.pairingId ∧ next.status = .expired

theorem mem_expirePairings {next : PairingRow} : next ∈ (db.expirePairings env now).pairings ↔
    ∃ row ∈ db.pairings, row.swept env now = next :=
  List.mem_map

theorem expires_iff {row : PairingRow} (member : row ∈ db.pairings)
    (live : row.status.live = true) :
    db.Expires env now row ↔ env.timestamp row.expiresAt ≤ env.timestamp now := by
  have alive : row.status ≠ .expired := by
    intro expired
    simp [expired, PairingStatus.live] at live
  constructor
  · rintro ⟨next, nextMem, sameId, expired⟩
    rcases mem_expirePairings.mp nextMem with ⟨source, sourceMem, rfl⟩
    unfold PairingRow.swept at sameId expired
    split at expired
    · rename_i passed
      rw [if_pos passed] at sameId
      rw [← Table.key_injective sourceMem member sameId]
      exact passed.2
    · rename_i kept
      rw [if_neg kept] at sameId
      rw [Table.key_injective sourceMem member sameId] at expired
      exact absurd expired alive
  · intro passed
    exact ⟨{ row with status := .expired },
      mem_expirePairings.mpr ⟨row, member, if_pos ⟨live, passed⟩⟩, rfl, rfl⟩

/-- `_purge_locked` deletes a finished row by its stored end. -/
theorem purged_iff {row : JobRow} {finished : Int} (member : row ∈ db.jobs)
    (terminal : row.status.terminal = true) (ended : row.finishedAt = some finished) :
    row ∉ (db.purge env config now).jobs ↔
      env.timestamp finished < env.timestamp (now - config.retentionDays * day) := by
  simp [Database.purge, member, expiredRow, terminal, ended]

/-- `wake_ready_job_types` answers the type of a row. -/
def Database.Selects (env : Environment) (config : Config) (now : Int) (batchWindowSeconds : Nat)
    (createdAfter createdBefore : Option Int) (db : Database) (row : JobRow) : Prop :=
  ∃ types after, db.wakeReadyJobTypes env config now batchWindowSeconds none createdAfter
    createdBefore = .ok (types, after) ∧ row.type ∈ types

/-- A waiting row that no other row of its type waits with. -/
structure Database.WaitsAlone (db : Database) (row : JobRow) : Prop where
  member : row ∈ db.jobs
  claimable : row.status.claimable = true
  alone : ∀ other ∈ db.jobs, other.status.claimable = true → other.type = row.type → other = row

theorem selects_iff {batchWindowSeconds : Nat} {createdAfter createdBefore : Option Int}
    {row : JobRow} (bounded : batchWindowSeconds ≤ 3600)
    (waits : (db.recover env config now).WaitsAlone row) :
    db.Selects env config now batchWindowSeconds createdAfter createdBefore row ↔
      env.timestamp row.createdAt ≤ env.timestamp (now - seconds batchWindowSeconds) ∧
      (∀ after ∈ createdAfter, env.timestamp after ≤ env.timestamp row.createdAt) ∧
      ∀ before ∈ createdBefore, env.timestamp row.createdAt ≤ env.timestamp before := by
  constructor
  · rintro ⟨types, next, done, listed⟩
    rw [Database.wakeReadyJobTypes, if_neg (Nat.not_lt.mpr bounded), if_neg (by simp)] at done
    cases done
    simp only [List.mem_reverse, List.mem_dedup, List.mem_map, List.mem_insertionSort,
      List.mem_filter, Bool.and_eq_true, decide_eq_true_eq] at listed
    rcases listed with ⟨other, ⟨otherMem, ⟨⟨⟨claimable, old⟩, _⟩, later⟩, earlier⟩, sameType⟩
    have same := waits.alone other otherMem claimable sameType
    subst same
    exact ⟨old, later, earlier⟩
  · rintro ⟨old, later, earlier⟩
    unfold Database.Selects
    rw [Database.wakeReadyJobTypes, if_neg (Nat.not_lt.mpr bounded), if_neg (by simp)]
    refine ⟨_, _, rfl, ?_⟩
    simp only [List.mem_reverse, List.mem_dedup, List.mem_map, List.mem_insertionSort,
      List.mem_filter, Bool.and_eq_true, decide_eq_true_eq]
    exact ⟨row, ⟨waits.member, ⟨⟨⟨waits.claimable, old⟩, by simp⟩, later⟩, earlier⟩, rfl⟩

/-! ## When the comparisons agree -/

section Agreement

variable (eastern : ∀ instant, Eastern (env.paris.utcOffset instant))

include eastern

theorem expires_agrees_iff {row : PairingRow} (member : row ∈ db.pairings)
    (live : row.status.live = true) (stored : env.Writes row.expiresAt) (clock : env.Writes now) :
    (db.Expires env now row ↔ row.expiresAt ≤ now) ↔ env.paris.Forward row.expiresAt now := by
  rw [expires_iff member live]
  exact Zone.isoformat_le_agrees_iff eastern stored clock

theorem purged_agrees_iff {row : JobRow} {finished : Int} (member : row ∈ db.jobs)
    (terminal : row.status.terminal = true) (ended : row.finishedAt = some finished)
    (stored : env.Writes finished) (cutoff : env.Writes (now - config.retentionDays * day)) :
    (row ∉ (db.purge env config now).jobs ↔ finished < now - config.retentionDays * day) ↔
      env.paris.Forward finished (now - config.retentionDays * day) := by
  rw [purged_iff member terminal ended]
  exact Zone.isoformat_lt_agrees_iff eastern stored cutoff

variable {batchWindowSeconds : Nat} {row : JobRow}

theorem ready_agrees_iff (bounded : batchWindowSeconds ≤ 3600)
    (waits : (db.recover env config now).WaitsAlone row) (stored : env.Writes row.createdAt)
    (ready : env.Writes (now - seconds batchWindowSeconds)) :
    (db.Selects env config now batchWindowSeconds none none row ↔
        row.createdAt ≤ now - seconds batchWindowSeconds) ↔
      env.paris.Forward row.createdAt (now - seconds batchWindowSeconds) := by
  rw [selects_iff bounded waits]
  simp only [Option.mem_def, reduceCtorEq, false_implies, implies_true, and_true]
  exact Zone.isoformat_le_agrees_iff eastern stored ready

theorem createdAfter_agrees_iff {bound : Int} (bounded : batchWindowSeconds ≤ 3600)
    (waits : (db.recover env config now).WaitsAlone row)
    (old : env.timestamp row.createdAt ≤ env.timestamp (now - seconds batchWindowSeconds))
    (stored : env.Writes row.createdAt) (held : env.Writes bound) :
    (db.Selects env config now batchWindowSeconds (some bound) none row ↔
        bound ≤ row.createdAt) ↔ env.paris.Forward bound row.createdAt := by
  rw [selects_iff bounded waits]
  simp only [Option.mem_def, Option.some.injEq, forall_eq', reduceCtorEq, false_implies,
    implies_true, and_true, old, true_and]
  exact Zone.isoformat_le_agrees_iff eastern held stored

theorem createdBefore_agrees_iff {bound : Int} (bounded : batchWindowSeconds ≤ 3600)
    (waits : (db.recover env config now).WaitsAlone row)
    (old : env.timestamp row.createdAt ≤ env.timestamp (now - seconds batchWindowSeconds))
    (stored : env.Writes row.createdAt) (held : env.Writes bound) :
    (db.Selects env config now batchWindowSeconds none (some bound) row ↔
        row.createdAt ≤ bound) ↔ env.paris.Forward row.createdAt bound := by
  rw [selects_iff bounded waits]
  simp only [Option.mem_def, Option.some.injEq, forall_eq', reduceCtorEq, false_implies,
    implies_true, true_and, old]
  exact Zone.isoformat_le_agrees_iff eastern stored held

end Agreement

/-- The comparisons that expire pairings, purge finished jobs and select waiting
ones are those of the instants exactly when the clock was not put back between
the two instants by at least the time that passed. -/
theorem stored_timestamps_iff (env : Environment)
    (eastern : ∀ instant, Eastern (env.paris.utcOffset instant)) :
    (∀ (db : Database) (now : Int) (row : PairingRow), row ∈ db.pairings →
      row.status.live = true → env.Writes row.expiresAt → env.Writes now →
        ((db.Expires env now row ↔ row.expiresAt ≤ now) ↔
          env.paris.Forward row.expiresAt now)) ∧
    (∀ (config : Config) (db : Database) (now finished : Int) (row : JobRow), row ∈ db.jobs →
      row.status.terminal = true → row.finishedAt = some finished → env.Writes finished →
        env.Writes (now - config.retentionDays * day) →
        ((row ∉ (db.purge env config now).jobs ↔ finished < now - config.retentionDays * day) ↔
          env.paris.Forward finished (now - config.retentionDays * day))) ∧
    (∀ (config : Config) (db : Database) (now : Int) (batchWindowSeconds : Nat) (row : JobRow),
      batchWindowSeconds ≤ 3600 → (db.recover env config now).WaitsAlone row →
        env.Writes row.createdAt → env.Writes (now - seconds batchWindowSeconds) →
        ((db.Selects env config now batchWindowSeconds none none row ↔
            row.createdAt ≤ now - seconds batchWindowSeconds) ↔
          env.paris.Forward row.createdAt (now - seconds batchWindowSeconds)) ∧
        (env.timestamp row.createdAt ≤ env.timestamp (now - seconds batchWindowSeconds) →
          ∀ bound, env.Writes bound →
            ((db.Selects env config now batchWindowSeconds (some bound) none row ↔
                bound ≤ row.createdAt) ↔ env.paris.Forward bound row.createdAt) ∧
            ((db.Selects env config now batchWindowSeconds none (some bound) row ↔
                row.createdAt ≤ bound) ↔ env.paris.Forward row.createdAt bound))) := by
  constructor
  · intro db now row member live stored clock
    exact expires_agrees_iff eastern member live stored clock
  constructor
  · intro config db now finished row member terminal ended stored cutoff
    exact purged_agrees_iff eastern member terminal ended stored cutoff
  · intro config db now batchWindowSeconds row bounded waits stored ready
    constructor
    · exact ready_agrees_iff eastern bounded waits stored ready
    · intro old bound held
      constructor
      · exact createdAfter_agrees_iff eastern bounded waits old stored held
      · exact createdBefore_agrees_iff eastern bounded waits old stored held

/-! ## The autumn clock change -/

/-- 2026-10-25T01:00:00Z: in Paris the clock goes back from three to two. -/
def autumnChange : Int := 1792890000 * second

/-- Paris around that night. -/
def autumnEnvironment : Environment :=
  { winterEnvironment with
    paris := ⟨fun instant => if instant < autumnChange then 2 * hour else hour⟩ }

theorem autumn_eastern (instant : Int) : Eastern (autumnEnvironment.paris.utcOffset instant) := by
  have summer : Eastern (2 * hour) := by decide
  have winter : Eastern hour := by decide
  simp only [autumnEnvironment]
  split
  · exact summer
  · exact winter

/-- A pairing request of ten minutes, opened at ten to three. -/
def openPairing : Call :=
  ⟨autumnChange - 10 * minute, .createPairing (announcement oldName) ['p'] ['s'] ['c']⟩

def autumnPairing : PairingRow where
  pairingId := ['p']
  workerId := oldName
  protocolVersion := 1
  capabilities := [.systemHealth]
  platform := ['x']
  workerVersion := ['1']
  pollingSecretSha256 := autumnEnvironment.sha256 ['s']
  verificationCode := ['c']
  status := .pending
  createdAt := autumnChange - 10 * minute
  expiresAt := autumnChange
  approvedAt := none
  consumedAt := none

theorem openPairing_rows :
    (execute autumnEnvironment .default [openPairing] Database.empty).pairings.rows =
      [autumnPairing] := by
  decide +kernel

/-- The request expires at its time when it is looked at an hour later. -/
theorem autumnPairing_expires_iff :
    (execute autumnEnvironment .default [openPairing] Database.empty).Expires autumnEnvironment
        (autumnChange + hour) autumnPairing ↔ autumnPairing.expiresAt ≤ autumnChange + hour :=
  ((stored_timestamps_iff autumnEnvironment autumn_eastern).1 _ (autumnChange + hour) autumnPairing
    (by rw [Table.mem_def, openPairing_rows]; exact List.mem_singleton_self _) rfl
    (by unfold Environment.Writes; decide) (by unfold Environment.Writes; decide)).mpr (by decide)

/-- A second after it was opened the request is expired, nine minutes and more
before its time. -/
theorem fresh_pairing_expired :
    (execute autumnEnvironment .default
        [openPairing, ⟨autumnChange - 10 * minute + second, .listPairings⟩]
        Database.empty).pairings.rows.map (fun row => (row.status, row.expiresAt)) =
      [(.expired, autumnChange)] ∧
    ¬ autumnChange ≤ autumnChange - 10 * minute + second := by
  decide +kernel

end OhanaAgent.Jobs
