import OhanaAgent.Host.NetworkHelper

/-!
# Network transactions over every interleaving

The invariant of the helper's processes, and the steps that break it: a rollback
that stops the unit it runs in, a command that raises after the transaction was
written, a confirmation that meets a rollback, an apply that meets another call.
-/

namespace OhanaAgent.Host.Network

open OhanaAgent.Encoding.Json
open OhanaAgent.Store

variable {machine : Machine} {process other : Process} {transaction : Transaction}
  {outcome : Outcome} {id uuid : Text}

/-! ## Steps that are not safe -/

/-- Between the check of an apply and its end. -/
def Phase.underWay : Phase → Bool
  | .check _ => false
  | .ended _ _ => false
  | _ => true

def Process.applying (process : Process) : Bool :=
  process.caller = .apply && process.phase.underWay

/-- The process has read a transaction and is about to write its snapshot. -/
def Process.restoring (process : Process) : Bool :=
  match process.phase with
  | .restore _ => true
  | _ => false

/-- An apply that set the requested settings and has not failed. -/
def Process.settled (process : Process) : Bool :=
  match process.phase with
  | .up _ => true
  | .report _ => true
  | .ended _ .returned => true
  | _ => false

/-- The next step of a process breaks a guarantee, now or later. -/
def Machine.Hazard (machine : Machine) (process : Process) (outcome : Outcome) : Prop :=
  match process.phase with
  -- an apply passes its check while another one or a restoration is under way
  | .check _ => machine.files.rows.isEmpty = true ∧ ∃ other ∈ machine.processes.rows,
      other.applying = true ∨ other.restoring = true
  -- a rollback stops its own unit, or `systemctl stop` raises
  | .stop id => (outcome.effective = true ∧ process.unit = some id) ∨
      (outcome.raises = true ∧ (process.caller ≠ .confirm ∨ (outcome.effective = true ∧
        ∃ other ∈ machine.processes.rows, other.live = true ∧ other.unit = some id ∧
          other.restored = true)))
  -- a confirmation deletes a transaction that another call has ended or is about to undo
  | .unlink id => process.caller = .confirm ∧ ((machine.files.find? id).isNone = true ∨
      ∃ other ∈ machine.processes.rows, other.about = some id ∧ (other.restoring = true ∨
        other.written = true ∨ (other.caller = .apply ∧ other.settled = false)))
  -- an apply raises after its changes
  | .report _ => process.caller = .apply ∧ outcome.succeeds = false
  | _ => False

instance (machine : Machine) (process : Process) (outcome : Outcome) :
    Decidable (machine.Hazard process outcome) := by
  unfold Machine.Hazard
  split <;> infer_instance

/-- A step without hazard. -/
def Machine.SafeStep (machine : Machine) : Label → Prop
  | .run pid outcome _ => ∀ process ∈ machine.processes.find? pid, ¬ machine.Hazard process outcome
  | _ => True

/-- A run without hazards. -/
def Machine.Safe (machine : Machine) : List Label → Prop
  | [] => True
  | label :: labels => machine.SafeStep label ∧ (machine.step label).Safe labels

/-! ## Guarantees -/

/-- The transaction is not pending. -/
def Machine.Gone (machine : Machine) (id : Text) : Prop :=
  ∀ transaction ∈ machine.files, transaction.id ≠ id

/-- What holds in every state. -/
structure Machine.Sound (machine : Machine) : Prop where
  /-- At most one transaction is pending. -/
  single : machine.files.rows.length ≤ 1
  /-- After a rollback the transaction is not pending, or another call is about to
  delete it. -/
  rolledBack : ∀ process ∈ machine.processes, ∀ id ending, process.caller = .rollback →
    process.restored = true → process.phase = .ended (some id) ending →
      machine.Gone id ∨ ∃ other ∈ machine.processes, other.phase = .unlink id
  /-- A confirmed transaction is not restored. -/
  confirmed : ∀ process ∈ machine.processes, ∀ id, process.caller = .confirm →
    process.phase = .ended (some id) .returned →
      machine.Gone id ∧ ∀ other ∈ machine.processes, ∀ transaction,
        other.phase = .restore transaction → transaction.id ≠ id
  /-- The transaction of an apply that raised is not pending. -/
  failed : ∀ process ∈ machine.processes, ∀ id, process.caller = .apply →
    process.phase = .ended (some id) .raised → machine.Gone id

/-- What holds of every step: a confirmation deletes a transaction whose settings
are in place, and an apply that fails leaves the snapshot that it wrote. -/
def Machine.SoundStep (machine : Machine) : Label → Prop
  | .run pid _ _ => ∀ process ∈ machine.processes.find? pid, ∀ id, process.phase = .unlink id →
      ∀ transaction ∈ process.loaded,
        (process.caller = .confirm →
          machine.profiles transaction.connection = transaction.requested.ipv4) ∧
        (process.caller = .apply → process.written = true →
          machine.profiles transaction.connection = transaction.snapshot)
  | _ => True

/-! ## The invariant -/

/-- The transaction that a phase holds. -/
def Phase.holds : Phase → Option Transaction
  | .schedule transaction => some transaction
  | .modify transaction => some transaction
  | .up transaction => some transaction
  | .restore transaction => some transaction
  | .restoreUp transaction => some transaction
  | _ => none

/-- Before a process reads its transaction. -/
def Phase.early : Phase → Bool
  | .check _ => true
  | .resolve _ => true
  | .snapshot _ _ _ _ => true
  | .schedule _ => true
  | .modify _ => true
  | .up _ => true
  | .load _ => true
  | _ => false

/-- The phases of an apply alone. -/
def Phase.ofApply : Phase → Bool
  | .check _ => true
  | .resolve _ => true
  | .snapshot _ _ _ _ => true
  | .schedule _ => true
  | .modify _ => true
  | .up _ => true
  | _ => false

theorem Phase.about_of_holds {phase : Phase} (holds : phase.holds = some transaction) :
    phase.about = some transaction.id := by
  cases phase <;> simp_all [Phase.holds, Phase.about]

/-- The process knows the transaction. -/
def Process.Mentions (process : Process) (transaction : Transaction) : Prop :=
  process.loaded = some transaction ∨ process.phase.holds = some transaction

def Machine.Mentioned (machine : Machine) (transaction : Transaction) : Prop :=
  transaction ∈ machine.files ∨ ∃ process ∈ machine.processes, process.Mentions transaction

/-- A process is in a phase of its caller. -/
structure Process.Fits (process : Process) : Prop where
  loaded : ∀ transaction, process.loaded = some transaction → process.about = some transaction.id
  early : process.phase.early = true →
    process.loaded = none ∧ process.written = false ∧ process.restored = false
  apply : process.phase.ofApply = true → process.caller = .apply
  unrestored : process.phase.holds.isSome = true → process.restored = false
  finishing : process.caller = .rollback → ∀ id,
    process.phase = .stop id ∨ process.phase = .unlink id → process.restored = true
  unit : ∀ id, process.unit = some id → process.caller = .rollback ∧ process.about = some id

theorem Process.Fits.about (fits : process.Fits) (mentions : process.Mentions transaction) :
    process.about = some transaction.id :=
  mentions.elim (fits.loaded transaction) Phase.about_of_holds

/-- The end of a confirmation that has deleted its transaction. -/
def Process.Deleted (process : Process) (id : Text) : Prop :=
  process.phase = .report id ∨ process.phase = .ended (some id) .returned

structure Machine.Invariant (machine : Machine) : Prop where
  fits : ∀ process ∈ machine.processes, process.Fits
  owned : ∀ transaction ∈ machine.files, ∃ process ∈ machine.processes,
    process.caller = .apply ∧ process.about = some transaction.id
  same : ∀ first second, machine.Mentioned first → machine.Mentioned second →
    first.id = second.id → first = second
  single : ∀ first ∈ machine.files, ∀ second ∈ machine.files, first = second
  alone : ∀ first ∈ machine.processes, ∀ second ∈ machine.processes,
    first.applying = true → second.applying = true → first = second
  unwritten : ∀ process ∈ machine.processes, process.applying = true → process.about = none →
    (∀ transaction, transaction ∉ machine.files) ∧
      ∀ other ∈ machine.processes, other.restoring = false
  owns : ∀ process ∈ machine.processes, process.applying = true → ∀ id, process.about = some id →
    (∀ transaction ∈ machine.files, transaction.id = id) ∧ ∀ other ∈ machine.processes,
      ∀ transaction, other.phase = .restore transaction → transaction.id = id
  restores : ∀ process ∈ machine.processes, ∀ transaction, process.phase = .restore transaction →
    ∀ pending ∈ machine.files, pending.id = transaction.id
  requested : ∀ transaction ∈ machine.files, ∀ process ∈ machine.processes,
    process.caller = .apply → process.about = some transaction.id → process.settled = true →
    (∀ other ∈ machine.processes, other.about = some transaction.id → other.written = false) →
      machine.profiles transaction.connection = transaction.requested.ipv4
  snapshot : ∀ process ∈ machine.processes, process.applying = true → process.written = true →
    ∀ transaction, process.loaded = some transaction →
      machine.profiles transaction.connection = transaction.snapshot
  confirmed : ∀ process ∈ machine.processes, ∀ id, process.caller = .confirm →
    process.Deleted id → machine.Gone id ∧ ∀ other ∈ machine.processes, ∀ transaction,
      other.phase = .restore transaction → transaction.id ≠ id
  rolledBack : ∀ process ∈ machine.processes, ∀ id, process.caller = .rollback →
    process.restored = true →
    (process.phase = .report id ∨ ∃ ending, process.phase = .ended (some id) ending) →
      machine.Gone id ∨ ∃ other ∈ machine.processes, other.phase = .unlink id
  failed : ∀ process ∈ machine.processes, ∀ id, process.caller = .apply →
    process.phase = .ended (some id) .raised → machine.Gone id

theorem effective_of_succeeds (succeeds : outcome.succeeds = true) : outcome.effective = true := by
  cases outcome <;> simp_all [Outcome.succeeds, Outcome.effective]

theorem mem_put {next : Process} : other ∈ (machine.put next).processes ↔
    other = next ∨ other ∈ machine.processes ∧ other.pid ≠ next.pid :=
  Table.mem_upsert

theorem applying_iff :
    process.applying = true ↔ process.caller = .apply ∧ process.phase.underWay = true := by
  simp [Process.applying]

theorem restoring_iff :
    process.restoring = true ↔ ∃ transaction, process.phase = .restore transaction := by
  unfold Process.restoring
  cases process.phase <;> simp

/-! ## A process goes on -/

/-- No transaction is pending, no apply is past its check, and nothing restores. -/
def Machine.Clear (machine : Machine) : Prop :=
  (∀ transaction, transaction ∉ machine.files) ∧ ∀ other ∈ machine.processes,
    other.applying = false ∧ other.restoring = false

/-- What a process and the profiles have to satisfy after its step. -/
structure Continues (machine : Machine) (profiles : Text → Ipv4) (process next : Process) :
    Prop where
  pid : next.pid = process.pid
  caller : next.caller = process.caller
  about : next.about = process.about
  written : process.written = true → next.written = true
  fits : next.Fits
  mentions : ∀ transaction, next.Mentions transaction → machine.Mentioned transaction
  applying : next.applying = true → process.applying = true ∨ machine.Clear
  restores : ∀ transaction, next.phase = .restore transaction → transaction ∈ machine.files
  settled : next.settled = true → process.settled = true ∨ ∀ transaction ∈ machine.files,
    process.about = some transaction.id →
      profiles transaction.connection = transaction.requested.ipv4
  profile : ∀ transaction ∈ machine.files,
    (next.about = some transaction.id → next.written = false) →
      profiles transaction.connection = machine.profiles transaction.connection ∨
        profiles transaction.connection = transaction.requested.ipv4
  snapshot : ∀ other ∈ (machine.put next).processes, other.applying = true →
    other.written = true → ∀ transaction, other.loaded = some transaction →
      profiles transaction.connection = transaction.snapshot
  deleted : ∀ id, next.caller = .confirm → next.Deleted id → process.Deleted id ∨
    (machine.Gone id ∧ ∀ other ∈ machine.processes, ∀ transaction,
      other.phase = .restore transaction → transaction.id ≠ id)
  rolledBack : ∀ id, next.caller = .rollback → next.restored = true →
    (next.phase = .report id ∨ ∃ ending, next.phase = .ended (some id) ending) →
      machine.Gone id ∨ (process.restored = true ∧
        (process.phase = .report id ∨ ∃ ending, process.phase = .ended (some id) ending))
  failed : ∀ id, next.caller = .apply → next.phase = .ended (some id) .raised → machine.Gone id
  unlinks : ∀ id, process.phase = .unlink id → machine.Gone id

theorem Machine.Invariant.put (invariant : machine.Invariant) (member : process ∈ machine.processes)
    {profiles : Text → Ipv4} {next : Process}
    (continues : Continues machine profiles process next) :
    ({ machine with profiles := profiles }.put next).Invariant := by
  have mentioned : ∀ transaction, ({ machine with profiles := profiles }.put next).Mentioned
      transaction → machine.Mentioned transaction := by
    rintro transaction (pending | ⟨other, otherMem, mentions⟩)
    · exact Or.inl pending
    · rcases mem_put.mp otherMem with rfl | ⟨kept, _⟩
      · exact continues.mentions transaction mentions
      · exact Or.inr ⟨other, kept, mentions⟩
  have source : ∀ other ∈ ({ machine with profiles := profiles }.put next).processes,
      ∃ earlier ∈ machine.processes, earlier.caller = other.caller ∧
        earlier.about = other.about ∧
        (other.applying = true → earlier.applying = true ∨ machine.Clear) := by
    intro other otherMem
    rcases mem_put.mp otherMem with rfl | ⟨kept, _⟩
    · exact ⟨process, member, continues.caller.symm, continues.about.symm, continues.applying⟩
    · exact ⟨other, kept, rfl, rfl, Or.inl⟩
  have target : ∀ other ∈ machine.processes,
      ∃ later ∈ ({ machine with profiles := profiles }.put next).processes,
        later.caller = other.caller ∧ later.about = other.about ∧
        (other.written = true → later.written = true) := by
    intro other otherMem
    by_cases same : other.pid = next.pid
    · have equal : other = process :=
        machine.processes.key_injective otherMem member (same.trans continues.pid)
      subst equal
      exact ⟨next, mem_put.mpr (Or.inl rfl), continues.caller, continues.about, continues.written⟩
    · exact ⟨other, mem_put.mpr (Or.inr ⟨otherMem, same⟩), rfl, rfl, id⟩
  have restoring : ∀ other ∈ ({ machine with profiles := profiles }.put next).processes,
      ∀ transaction, other.phase = .restore transaction → transaction ∈ machine.files ∨
        ∃ earlier ∈ machine.processes, earlier.phase = .restore transaction := by
    intro other otherMem transaction phase
    rcases mem_put.mp otherMem with rfl | ⟨kept, _⟩
    · exact Or.inl (continues.restores transaction phase)
    · exact Or.inr ⟨other, kept, phase⟩
  have idle (clear : machine.Clear) :
      ∀ other ∈ ({ machine with profiles := profiles }.put next).processes,
        ∀ transaction, other.phase ≠ .restore transaction := by
    intro other otherMem transaction phase
    rcases restoring other otherMem transaction phase with pending | ⟨earlier, earlierMem, same⟩
    · exact clear.1 transaction pending
    · have busy := restoring_iff.mpr ⟨transaction, same⟩
      simp [(clear.2 earlier earlierMem).2] at busy
  constructor
  case fits =>
    intro other otherMem
    rcases mem_put.mp otherMem with rfl | ⟨kept, _⟩
    · exact continues.fits
    · exact invariant.fits other kept
  case owned =>
    intro transaction pending
    obtain ⟨owner, ownerMem, applies, about⟩ := invariant.owned transaction pending
    obtain ⟨later, laterMem, caller, sameAbout, _⟩ := target owner ownerMem
    exact ⟨later, laterMem, caller.trans applies, sameAbout.trans about⟩
  case same =>
    intro first second firstMem secondMem equal
    exact invariant.same first second (mentioned first firstMem) (mentioned second secondMem) equal
  case single => exact invariant.single
  case alone =>
    have apart {other : Process} (kept : other ∈ machine.processes) (different : other.pid ≠ next.pid)
        (applies : next.applying = true) (otherApplies : other.applying = true) : False := by
      rcases continues.applying applies with applied | clear
      · have equal := invariant.alone other kept process member otherApplies applied
        exact different ((congrArg Process.pid equal).trans continues.pid.symm)
      · simp [(clear.2 other kept).1] at otherApplies
    intro first firstMem second secondMem firstApplies secondApplies
    rcases mem_put.mp firstMem with rfl | ⟨firstKept, firstOther⟩
    · rcases mem_put.mp secondMem with rfl | ⟨secondKept, secondOther⟩
      · rfl
      · exact (apart secondKept secondOther firstApplies secondApplies).elim
    · rcases mem_put.mp secondMem with rfl | ⟨secondKept, secondOther⟩
      · exact (apart firstKept firstOther secondApplies firstApplies).elim
      · exact invariant.alone first firstKept second secondKept firstApplies secondApplies
  case unwritten =>
    intro applier applierMem applies unnamed
    obtain ⟨earlier, earlierMem, _, about, applied⟩ := source applier applierMem
    rcases applied applies with applied | clear
    · obtain ⟨empty, quiet⟩ := invariant.unwritten earlier earlierMem applied (about.trans unnamed)
      refine ⟨empty, fun other otherMem => ?_⟩
      by_contra restores
      rw [Bool.not_eq_false, restoring_iff] at restores
      obtain ⟨transaction, phase⟩ := restores
      rcases restoring other otherMem transaction phase with pending | ⟨before, beforeMem, same⟩
      · exact empty transaction pending
      · have busy := restoring_iff.mpr ⟨transaction, same⟩
        simp [quiet before beforeMem] at busy
    · refine ⟨clear.1, fun other otherMem => ?_⟩
      by_contra restores
      rw [Bool.not_eq_false, restoring_iff] at restores
      obtain ⟨transaction, phase⟩ := restores
      exact idle clear other otherMem transaction phase
  case owns =>
    intro applier applierMem applies id named
    obtain ⟨earlier, earlierMem, _, about, applied⟩ := source applier applierMem
    rcases applied applies with applied | clear
    · obtain ⟨files, restores⟩ := invariant.owns earlier earlierMem applied id (about.trans named)
      refine ⟨files, fun other otherMem transaction phase => ?_⟩
      rcases restoring other otherMem transaction phase with pending | ⟨before, beforeMem, same⟩
      · exact files transaction pending
      · exact restores before beforeMem transaction same
    · exact ⟨fun transaction pending => absurd pending (clear.1 transaction),
        fun other otherMem transaction phase => absurd phase (idle clear other otherMem transaction)⟩
  case restores =>
    intro other otherMem transaction phase pending pendingMem
    rcases restoring other otherMem transaction phase with known | ⟨before, beforeMem, same⟩
    · exact congrArg Transaction.id (invariant.single pending pendingMem transaction known)
    · exact invariant.restores before beforeMem transaction same pending pendingMem
  case requested =>
    intro transaction pending applier applierMem applies named settled unwritten
    have still := continues.profile transaction pending
      (unwritten next (mem_put.mpr (Or.inl rfl)))
    have before (earlier : Process) (earlierMem : earlier ∈ machine.processes)
        (caller : earlier.caller = .apply) (about : earlier.about = some transaction.id)
        (set : earlier.settled = true) :
        machine.profiles transaction.connection = transaction.requested.ipv4 := by
      refine invariant.requested transaction pending earlier earlierMem caller about set ?_
      intro other otherMem same
      obtain ⟨later, laterMem, _, laterAbout, written⟩ := target other otherMem
      by_contra overwritten
      have late := written (by simpa using overwritten)
      simp [unwritten later laterMem (laterAbout.trans same)] at late
    rcases mem_put.mp applierMem with rfl | ⟨kept, _⟩
    · rcases continues.settled settled with set | done
      · have held := before process member (continues.caller.symm.trans applies)
          (continues.about.symm.trans named) set
        exact still.elim (fun same => same.trans held) id
      · exact done transaction pending (continues.about.symm.trans named)
    · exact still.elim (fun same => same.trans (before applier kept applies named settled)) id
  case snapshot => exact continues.snapshot
  case confirmed =>
    intro confirmer confirmerMem id confirms deleted
    have before : machine.Gone id ∧ ∀ other ∈ machine.processes, ∀ transaction,
        other.phase = .restore transaction → transaction.id ≠ id := by
      rcases mem_put.mp confirmerMem with rfl | ⟨kept, _⟩
      · rcases continues.deleted id confirms deleted with earlier | gone
        · exact invariant.confirmed process member id (continues.caller.symm.trans confirms)
            earlier
        · exact gone
      · exact invariant.confirmed confirmer kept id confirms deleted
    refine ⟨before.1, fun other otherMem transaction phase => ?_⟩
    rcases restoring other otherMem transaction phase with pending | ⟨earlier, earlierMem, same⟩
    · exact before.1 transaction pending
    · exact before.2 earlier earlierMem transaction same
  case rolledBack =>
    intro roller rollerMem id rolls restored finished
    have before : machine.Gone id ∨ ∃ other ∈ machine.processes, other.phase = .unlink id := by
      rcases mem_put.mp rollerMem with rfl | ⟨kept, _⟩
      · rcases continues.rolledBack id rolls restored finished with gone | ⟨earlier, ended⟩
        · exact Or.inl gone
        · exact invariant.rolledBack process member id (continues.caller.symm.trans rolls) earlier
            ended
      · exact invariant.rolledBack roller kept id rolls restored finished
    rcases before with gone | ⟨other, otherMem, phase⟩
    · exact Or.inl gone
    · by_cases same : other.pid = next.pid
      · have equal : other = process :=
          machine.processes.key_injective otherMem member (same.trans continues.pid)
        exact Or.inl (continues.unlinks id (equal ▸ phase))
      · exact Or.inr ⟨other, mem_put.mpr (Or.inr ⟨otherMem, same⟩), phase⟩
  case failed =>
    intro applier applierMem id applies raised
    rcases mem_put.mp applierMem with rfl | ⟨kept, _⟩
    · exact continues.failed id applies raised
    · exact invariant.failed applier kept id applies raised

/-- A process goes on without an effect that the others see. -/
theorem Machine.Invariant.quiet (invariant : machine.Invariant)
    (member : process ∈ machine.processes) (next : Process) (pid : next.pid = process.pid)
    (caller : next.caller = process.caller) (about : next.about = process.about)
    (written : next.written = process.written) (fits : next.Fits)
    (mentions : ∀ transaction, next.Mentions transaction → machine.Mentioned transaction)
    (applying : next.applying = true → process.applying = true ∨ machine.Clear)
    (restores : ∀ transaction, next.phase = .restore transaction → transaction ∈ machine.files)
    (settled : next.settled = true → process.settled = true)
    (loaded : next.applying = true → next.written = true →
      process.applying = true ∧ next.loaded = process.loaded)
    (deleted : ∀ id, next.caller = .confirm → next.Deleted id → process.Deleted id)
    (rolledBack : ∀ id, next.caller = .rollback → next.restored = true →
      (next.phase = .report id ∨ ∃ ending, next.phase = .ended (some id) ending) →
        process.restored = true ∧
          (process.phase = .report id ∨ ∃ ending, process.phase = .ended (some id) ending))
    (failed : ∀ id, next.caller = .apply → next.phase = .ended (some id) .raised → machine.Gone id)
    (unlinks : ∀ id, process.phase ≠ .unlink id) : (machine.put next).Invariant := by
  have continues : Continues machine machine.profiles process next :=
    { pid, caller, about, fits, mentions, applying, restores, failed
      written := fun overwritten => written.trans overwritten
      settled := fun set => Or.inl (settled set)
      profile := fun _ _ _ => Or.inl rfl
      snapshot := by
        intro applier applierMem applies overwritten transaction known
        rcases mem_put.mp applierMem with rfl | ⟨kept, _⟩
        · obtain ⟨earlier, same⟩ := loaded applies overwritten
          exact invariant.snapshot process member earlier (written.symm.trans overwritten)
            transaction (same.symm.trans known)
        · exact invariant.snapshot applier kept applies overwritten transaction known
      deleted := fun id confirms done => Or.inl (deleted id confirms done)
      rolledBack := fun id rolls restored ended => Or.inr (rolledBack id rolls restored ended)
      unlinks := fun id phase => absurd phase (unlinks id) }
  exact invariant.put member continues

/-! ## The steps of an apply -/

/-- An apply goes on before it reads its transaction. -/
theorem Machine.Invariant.stayEarly (invariant : machine.Invariant)
    (member : process ∈ machine.processes) (early : process.phase.early = true) {phase : Phase}
    (still : phase.early = true) (about : phase.about = process.about)
    (apply : phase.ofApply = true → process.caller = .apply)
    (holds : ∀ transaction, phase.holds = some transaction → machine.Mentioned transaction)
    (applying : process.applying = true ∨ machine.Clear) (unset : ∀ transaction,
      phase ≠ .up transaction) : (machine.go process phase).Invariant := by
  have fits := invariant.fits process member
  obtain ⟨unread, unwritten, unrestored⟩ := fits.early early
  have late {other : Phase} (wrong : other.early = false) : phase ≠ other := by
    rintro rfl
    simp [wrong] at still
  apply invariant.quiet member { process with phase := phase } rfl rfl about rfl
  · exact {
      loaded := by simp [unread]
      early := fun _ => ⟨unread, unwritten, unrestored⟩
      apply := apply
      unrestored := fun _ => unrestored
      finishing := fun _ _ same => same.elim (fun stop => absurd stop (late rfl)) fun unlink =>
        absurd unlink (late rfl)
      unit := fun id inside =>
        ⟨(fits.unit id inside).1, about.trans (fits.unit id inside).2⟩ }
  · rintro transaction (known | held)
    · simp [unread] at known
    · exact holds transaction held
  · exact fun _ => applying
  · exact fun transaction same => absurd same (late rfl)
  · intro set
    cases phase <;> simp_all [Process.settled, Phase.early]
  · simp [unwritten]
  · rintro id _ (same | same)
    · exact absurd same (late rfl)
    · exact absurd same (late rfl)
  · simp [unrestored]
  · exact fun id _ same => absurd same (late rfl)
  · intro id same
    simp [same, Phase.early] at early

/-- A call ends before it has a transaction. -/
theorem Machine.Invariant.refuse (invariant : machine.Invariant)
    (member : process ∈ machine.processes) (early : process.phase.early = true)
    (unnamed : process.about = none) :
    (machine.go process (.ended none .raised)).Invariant := by
  have fits := invariant.fits process member
  obtain ⟨unread, unwritten, unrestored⟩ := fits.early early
  apply invariant.quiet member { process with phase := .ended none .raised } rfl rfl
    unnamed.symm rfl
  · exact {
      loaded := by simp [unread]
      early := fun impossible => absurd impossible (by simp [Phase.early])
      apply := fun impossible => absurd impossible (by simp [Phase.ofApply])
      unrestored := fun _ => unrestored
      finishing := by simp
      unit := fun id inside => by simpa [unnamed] using (fits.unit id inside).2 }
  · rintro transaction (known | held)
    · simp [unread] at known
    · simp [Phase.holds] at held
  · simp [Process.applying, Phase.underWay]
  · simp
  · simp [Process.settled]
  · simp [Process.applying, Phase.underWay]
  · simp [Process.Deleted]
  · simp
  · simp
  · intro id same
    simp [same, Phase.early] at early

theorem Machine.Invariant.timers (invariant : machine.Invariant) (timers : List Text) :
    Machine.Invariant { machine with timers := timers } :=
  { fits := invariant.fits
    owned := invariant.owned
    same := invariant.same
    single := invariant.single
    alone := invariant.alone
    unwritten := invariant.unwritten
    owns := invariant.owns
    restores := invariant.restores
    requested := invariant.requested
    snapshot := invariant.snapshot
    confirmed := invariant.confirmed
    rolledBack := invariant.rolledBack
    failed := invariant.failed }

theorem applying_of_ofApply (fits : process.Fits) (apply : process.phase.ofApply = true)
    (checked : ∀ settings, process.phase ≠ .check settings) : process.applying = true := by
  rw [applying_iff]
  refine ⟨fits.apply apply, ?_⟩
  cases phase : process.phase <;> simp_all [Phase.ofApply, Phase.underWay]

theorem mentioned_of_holds (member : process ∈ machine.processes)
    (holds : process.phase.holds = some transaction) : machine.Mentioned transaction :=
  Or.inr ⟨process, member, Or.inr holds⟩

theorem invariant_check {settings : AgentNetworkSettings} (invariant : machine.Invariant)
    (member : process ∈ machine.processes) (phase : process.phase = .check settings)
    (safe : ¬ machine.Hazard process outcome) :
    (machine.advance process outcome uuid).Invariant := by
  have unnamed : process.about = none := by simp [Process.about, phase, Phase.about]
  have early : process.phase.early = true := by simp [phase, Phase.early]
  simp only [Machine.advance, phase]
  split
  · rename_i empty
    have clear : machine.Clear := by
      simp only [Machine.Hazard, phase, not_and, not_exists] at safe
      refine ⟨fun transaction pending => ?_, fun other otherMem => ?_⟩
      · rw [Table.mem_def, List.isEmpty_iff.mp empty] at pending
        exact absurd pending List.not_mem_nil
      · simpa [not_or] using safe empty other otherMem
    exact invariant.stayEarly member early rfl unnamed.symm
      (fun _ => (invariant.fits process member).apply (by simp [phase, Phase.ofApply]))
      (by simp [Phase.holds]) (Or.inr clear) (by simp)
  · exact invariant.refuse member early unnamed

theorem invariant_resolve {settings : AgentNetworkSettings} (invariant : machine.Invariant)
    (member : process ∈ machine.processes) (phase : process.phase = .resolve settings) :
    (machine.advance process outcome uuid).Invariant := by
  have unnamed : process.about = none := by simp [Process.about, phase, Phase.about]
  have early : process.phase.early = true := by simp [phase, Phase.early]
  have fits := invariant.fits process member
  have apply : process.phase.ofApply = true := by simp [phase, Phase.ofApply]
  simp only [Machine.advance, phase]
  split
  · exact invariant.stayEarly member early rfl unnamed.symm (fun _ => fits.apply apply)
      (by simp [Phase.holds]) (Or.inl (applying_of_ofApply fits apply (by simp [phase]))) (by simp)
  · exact invariant.refuse member early unnamed

theorem invariant_snapshot {settings : AgentNetworkSettings} {connection : Text}
    {property : Property} {left : List Property} {read : Ipv4} (invariant : machine.Invariant)
    (member : process ∈ machine.processes)
    (phase : process.phase = .snapshot settings connection (property :: left) read) :
    (machine.advance process outcome uuid).Invariant := by
  have unnamed : process.about = none := by simp [Process.about, phase, Phase.about]
  have early : process.phase.early = true := by simp [phase, Phase.early]
  have fits := invariant.fits process member
  have apply : process.phase.ofApply = true := by simp [phase, Phase.ofApply]
  simp only [Machine.advance, phase]
  split
  · exact invariant.stayEarly member early rfl unnamed.symm (fun _ => fits.apply apply)
      (by simp [Phase.holds]) (Or.inl (applying_of_ofApply fits apply (by simp [phase]))) (by simp)
  · exact invariant.refuse member early unnamed

/-- The cleanup of an apply begins. -/
theorem Machine.Invariant.cleanup (invariant : machine.Invariant)
    (member : process ∈ machine.processes) (early : process.phase.early = true)
    (apply : process.phase.ofApply = true) (checked : ∀ settings, process.phase ≠ .check settings)
    (named : process.about = some id) : (machine.go process (.load id)).Invariant := by
  have fits := invariant.fits process member
  exact invariant.stayEarly member early rfl named.symm (fun _ => fits.apply apply)
    (by simp [Phase.holds]) (Or.inl (applying_of_ofApply fits apply checked)) (by simp)

theorem invariant_schedule (invariant : machine.Invariant)
    (member : process ∈ machine.processes) (phase : process.phase = .schedule transaction) :
    (machine.advance process outcome uuid).Invariant := by
  have named : process.about = some transaction.id := by simp [Process.about, phase, Phase.about]
  have early : process.phase.early = true := by simp [phase, Phase.early]
  have fits := invariant.fits process member
  have apply : process.phase.ofApply = true := by simp [phase, Phase.ofApply]
  have checked : ∀ settings, process.phase ≠ .check settings := by simp [phase]
  have goes {armed : Machine} (invariant : armed.Invariant) (member : process ∈ armed.processes) :
      (armed.go process (if outcome.succeeds then .modify transaction
        else .load transaction.id)).Invariant := by
    split
    · refine invariant.stayEarly member early rfl named.symm (fun _ => fits.apply apply) ?_
        (Or.inl (applying_of_ofApply fits apply checked)) (by simp)
      intro held same
      exact mentioned_of_holds member (by rw [phase]; exact same)
    · exact invariant.cleanup member early apply checked named
  simp only [Machine.advance, phase]
  by_cases effective : outcome.effective = true
  · rw [if_pos effective]
    exact goes (invariant.timers _) member
  · rw [if_neg effective]
    exact goes invariant member

/-- An apply is the only one, and the files and the restorations are of its
transaction. -/
theorem Machine.Invariant.only (invariant : machine.Invariant)
    (member : process ∈ machine.processes) (applies : process.applying = true)
    (mentions : process.Mentions transaction) {other : Transaction}
    (known : other ∈ machine.files ∨
      ∃ restorer ∈ machine.processes, restorer.phase = .restore other) :
    other = transaction := by
  have named := (invariant.fits process member).about mentions
  obtain ⟨files, restores⟩ := invariant.owns process member applies transaction.id named
  apply invariant.same other transaction _ (Or.inr ⟨process, member, mentions⟩)
  · rcases known with pending | ⟨restorer, restorerMem, phase⟩
    · exact files other pending
    · exact restores restorer restorerMem other phase
  · rcases known with pending | ⟨restorer, restorerMem, phase⟩
    · exact Or.inl pending
    · exact mentioned_of_holds restorerMem (by simp [phase, Phase.holds])

/-- The settings of an apply, with the profile that it set. -/
theorem Machine.Invariant.apply (invariant : machine.Invariant)
    (member : process ∈ machine.processes) (phase : process.phase = .modify transaction)
    {next : Phase} (still : next.early = true) (about : next.about = some transaction.id)
    (holds : ∀ held, next.holds = some held → held = transaction) :
    (Machine.go process next (machine.setProfile transaction.connection
      transaction.requested.ipv4)).Invariant := by
  have named : process.about = some transaction.id := by simp [Process.about, phase, Phase.about]
  have early : process.phase.early = true := by simp [phase, Phase.early]
  have fits := invariant.fits process member
  have applies := fits.apply (by simp [phase, Phase.ofApply])
  obtain ⟨unread, unwritten, unrestored⟩ := fits.early early
  have applying : process.applying = true :=
    applying_of_ofApply fits (by simp [phase, Phase.ofApply]) (by simp [phase])
  have mentions : process.Mentions transaction := Or.inr (by simp [phase, Phase.holds])
  have late {other : Phase} (wrong : other.early = false) : next ≠ other := by
    rintro rfl
    simp [wrong] at still
  have set : ∀ pending ∈ machine.files, Function.update machine.profiles transaction.connection
      transaction.requested.ipv4 pending.connection = pending.requested.ipv4 := by
    intro pending pendingMem
    rw [invariant.only member applying mentions (Or.inl pendingMem), Function.update_self]
  have continues : Continues machine (Function.update machine.profiles transaction.connection
      transaction.requested.ipv4) process { process with phase := next } := {
    pid := rfl
    caller := rfl
    about := about.trans named.symm
    written := id
    fits := {
      loaded := by simp [unread]
      early := fun _ => ⟨unread, unwritten, unrestored⟩
      apply := fun _ => applies
      unrestored := fun _ => unrestored
      finishing := fun _ _ same => same.elim (fun stop => absurd stop (late rfl)) fun unlink =>
        absurd unlink (late rfl)
      unit := fun id inside => ⟨(fits.unit id inside).1,
        (about.trans named.symm).trans (fits.unit id inside).2⟩ }
    mentions := by
      rintro held (known | same)
      · simp [unread] at known
      · rw [holds held same]
        exact Or.inr ⟨process, member, mentions⟩
    applying := fun _ => Or.inl applying
    restores := fun held same => absurd same (late rfl)
    settled := fun _ => Or.inr fun pending pendingMem _ => set pending pendingMem
    profile := fun pending pendingMem _ => Or.inr (set pending pendingMem)
    snapshot := by
      intro applier applierMem otherApplies overwritten
      rcases mem_put.mp applierMem with rfl | ⟨kept, different⟩
      · simp [unwritten] at overwritten
      · exact absurd (congrArg Process.pid
          (invariant.alone applier kept process member otherApplies applying)) different
    deleted := by
      rintro id _ (same | same)
      · exact absurd same (late rfl)
      · exact absurd same (late rfl)
    rolledBack := by simp [unrestored]
    failed := fun id _ same => absurd same (late rfl)
    unlinks := by simp [phase] }
  exact invariant.put member continues

theorem invariant_modify (invariant : machine.Invariant)
    (member : process ∈ machine.processes) (phase : process.phase = .modify transaction) :
    (machine.advance process outcome uuid).Invariant := by
  have named : process.about = some transaction.id := by simp [Process.about, phase, Phase.about]
  have early : process.phase.early = true := by simp [phase, Phase.early]
  simp only [Machine.advance, phase]
  by_cases effective : outcome.effective = true
  · rw [if_pos effective]
    split
    · exact invariant.apply member phase rfl rfl (by simp [Phase.holds])
    · exact invariant.apply member phase rfl rfl (by simp [Phase.holds])
  · rw [if_neg effective, if_neg fun succeeds => effective (effective_of_succeeds succeeds)]
    exact invariant.cleanup member early (by simp [phase, Phase.ofApply]) (by simp [phase]) named

theorem invariant_up (invariant : machine.Invariant)
    (member : process ∈ machine.processes) (phase : process.phase = .up transaction) :
    (machine.advance process outcome uuid).Invariant := by
  have named : process.about = some transaction.id := by simp [Process.about, phase, Phase.about]
  have early : process.phase.early = true := by simp [phase, Phase.early]
  have fits := invariant.fits process member
  obtain ⟨unread, unwritten, unrestored⟩ := fits.early early
  have applies := fits.apply (by simp [phase, Phase.ofApply])
  simp only [Machine.advance, phase]
  split
  · apply invariant.quiet member { process with phase := .report transaction.id } rfl rfl
      named.symm rfl
    · exact {
        loaded := by simp [unread]
        early := fun impossible => absurd impossible (by simp [Phase.early])
        apply := fun impossible => absurd impossible (by simp [Phase.ofApply])
        unrestored := fun _ => unrestored
        finishing := by simp
        unit := fun id inside =>
          ⟨(fits.unit id inside).1, named.symm.trans (fits.unit id inside).2⟩ }
    · rintro held (known | same)
      · simp [unread] at known
      · simp [Phase.holds] at same
    · exact fun _ => Or.inl (applying_of_ofApply fits (by simp [phase, Phase.ofApply])
        (by simp [phase]))
    · simp
    · simp [Process.settled, phase]
    · simp [unwritten]
    · simp [applies]
    · simp [unrestored]
    · simp
    · simp [phase]
  · exact invariant.cleanup member early (by simp [phase, Phase.ofApply]) (by simp [phase]) named

/-! ## Reading and restoring a transaction -/

theorem invariant_load (invariant : machine.Invariant)
    (member : process ∈ machine.processes) (phase : process.phase = .load id) :
    (machine.advance process outcome uuid).Invariant := by
  have named : process.about = some id := by simp [Process.about, phase, Phase.about]
  have fits := invariant.fits process member
  obtain ⟨unread, unwritten, unrestored⟩ := fits.early (by simp [phase, Phase.early])
  have goes (next : Process) (pid : next.pid = process.pid) (caller : next.caller = process.caller)
      (unit : next.unit = process.unit) (about : next.about = some id)
      (written : next.written = process.written) (restored : next.restored = process.restored)
      (later : next.phase.early = false)
      (loaded : ∀ known, next.loaded = some known → known.id = id ∧ known ∈ machine.files)
      (holds : ∀ held, next.phase.holds = some held → held ∈ machine.files)
      (applying : next.applying = true → process.caller = .apply)
      (unset : next.settled = false) (undeleted : ∀ id, ¬ next.Deleted id)
      (failed : ∀ id, next.caller = .apply → next.phase ≠ .ended (some id) .raised)
      (finishing : ∀ other, next.phase = .stop other ∨ next.phase = .unlink other →
        process.caller ≠ .rollback) : (machine.put next).Invariant := by
    apply invariant.quiet member next pid caller (about.trans named.symm) written
    · exact {
        loaded := fun known same => (loaded known same).1 ▸ about
        early := fun impossible => absurd impossible (by simp [later])
        apply := fun impossible => by
          cases shape : next.phase <;> simp_all [Phase.early, Phase.ofApply]
        unrestored := fun _ => restored.trans unrestored
        finishing := fun rolls other same => absurd (caller.symm.trans rolls) (finishing other same)
        unit := fun other inside => by
          obtain ⟨rolls, same⟩ := fits.unit other (unit ▸ inside)
          exact ⟨caller.trans rolls, (about.trans named.symm).trans same⟩ }
    · rintro held (known | same)
      · exact Or.inl (loaded held known).2
      · exact Or.inl (holds held same)
    · intro applies
      exact Or.inl (by simp [Process.applying, Phase.underWay, phase, applying applies])
    · exact fun held same => holds held (by simp [same, Phase.holds])
    · simp [unset]
    · simp [written, unwritten]
    · exact fun other _ deleted => absurd deleted (undeleted other)
    · simp [restored, unrestored]
    · exact fun other applies same => absurd same (failed other applies)
    · simp [phase]
  simp only [Machine.advance, phase, Machine.loadTransaction]
  split
  · rename_i read found confirms
    obtain ⟨pending, same⟩ := Table.find?_eq_some_iff.mp found
    exact goes { process with phase := .stop id, loaded := some read } rfl rfl rfl rfl rfl rfl rfl
      (fun known equal => Option.some.inj equal ▸ ⟨same, pending⟩) (by simp [Phase.holds])
      (by simp [Process.applying, confirms]) rfl (by simp [Process.Deleted]) (by simp)
      (by simp [confirms])
  · rename_i read found _
    obtain ⟨pending, same⟩ := Table.find?_eq_some_iff.mp found
    exact goes { process with phase := .restore read, loaded := some read } rfl rfl rfl
      (congrArg some same) rfl rfl rfl (fun known equal => Option.some.inj equal ▸ ⟨same, pending⟩)
      (fun held equal => Option.some.inj equal ▸ pending)
      (fun applies => (applying_iff.mp applies).1) rfl
      (by simp [Process.Deleted]) (by simp) (by simp)
  · rename_i applies
    exact goes { process with phase := .stop id } rfl rfl rfl rfl rfl rfl rfl (by simp [unread])
      (by simp [Phase.holds]) (fun _ => applies) rfl (by simp [Process.Deleted]) (by simp)
      (by simp [applies])
  · rename_i other
    exact goes { process with phase := .ended (some id) .raised } rfl rfl rfl rfl rfl rfl rfl
      (by simp [unread]) (by simp [Phase.holds]) (by simp [Process.applying, Phase.underWay]) rfl
      (by simp [Process.Deleted]) (fun _ applies => absurd applies other) (by simp)

/-- The phases that follow a restoration. -/
def Phase.follows (caller : Caller) (id : Text) (phase : Phase) : Prop :=
  phase = .stop id ∨ (phase = .ended (some id) .raised ∧ caller ≠ .apply)

theorem follows_afterRestoration (process : Process) (id : Text) :
    (Machine.afterRestoration process id).follows process.caller id := by
  unfold Machine.afterRestoration Phase.follows
  cases process.caller <;> simp

theorem afterRestoration_rollback (rolls : process.caller = .rollback) (id other : Text) :
    ¬ (Machine.afterRestoration process id = .stop other ∨
      Machine.afterRestoration process id = .unlink other) := by
  simp [Machine.afterRestoration, rolls]

/-- A process goes on after a command of its restoration. -/
theorem Machine.Invariant.afterCommand (invariant : machine.Invariant)
    (member : process ∈ machine.processes) (holds : process.phase.holds = some transaction)
    (late : process.phase.early = false) {next : Process} (pid : next.pid = process.pid)
    (caller : next.caller = process.caller) (unit : next.unit = process.unit)
    (written : next.written = process.written) (loaded : next.loaded = process.loaded)
    (phase : (next.phase = .restoreUp transaction ∧ next.restored = process.restored) ∨
      (next.phase.follows process.caller transaction.id ∧
        (next.restored = true → next.phase = .stop transaction.id)))
    (finishing : process.caller = .rollback → ∀ other,
      next.phase = .stop other ∨ next.phase = .unlink other → next.restored = true) :
    (machine.put next).Invariant := by
  have fits := invariant.fits process member
  have named : process.about = some transaction.id := fits.about (Or.inr holds)
  have unrestored := fits.unrestored (by simp [holds])
  have shape : next.phase = .restoreUp transaction ∨ next.phase = .stop transaction.id ∨
      (next.phase = .ended (some transaction.id) .raised ∧ process.caller ≠ .apply) := by
    rcases phase with ⟨same, _⟩ | ⟨stop | ended, _⟩
    · exact Or.inl same
    · exact Or.inr (Or.inl stop)
    · exact Or.inr (Or.inr ended)
  have about : next.about = some transaction.id := by
    rcases shape with same | same | ⟨same, _⟩ <;> simp [Process.about, same, Phase.about]
  have applying (applies : next.applying = true) : process.applying = true := by
    rw [applying_iff] at applies ⊢
    refine ⟨caller.symm.trans applies.1, ?_⟩
    cases shape : process.phase <;> simp_all [Phase.holds, Phase.early, Phase.underWay]
  apply invariant.quiet member next pid caller (about.trans named.symm) written
  · exact {
      loaded := fun known same =>
        (about.trans named.symm).trans (fits.loaded known (loaded ▸ same))
      early := fun impossible => by
        rcases shape with same | same | ⟨same, _⟩ <;> simp [same, Phase.early] at impossible
      apply := fun impossible => by
        rcases shape with same | same | ⟨same, _⟩ <;> simp [same, Phase.ofApply] at impossible
      unrestored := fun held => by
        rcases phase with ⟨_, same⟩ | ⟨stop | ⟨ended, _⟩, _⟩
        · exact same.trans unrestored
        · simp [stop, Phase.holds] at held
        · simp [ended, Phase.holds] at held
      finishing := fun rolls id same => finishing (caller.symm.trans rolls) id same
      unit := fun other inside => by
        obtain ⟨rolls, same⟩ := fits.unit other (unit ▸ inside)
        exact ⟨caller.trans rolls, (about.trans named.symm).trans same⟩ }
  · rintro held (known | same)
    · exact Or.inr ⟨process, member, Or.inl (loaded ▸ known)⟩
    · refine mentioned_of_holds member ?_
      rcases shape with restoreUp | stop | ⟨ended, _⟩
      · rw [restoreUp] at same
        exact holds.trans same
      · simp [stop, Phase.holds] at same
      · simp [ended, Phase.holds] at same
  · exact fun applies => Or.inl (applying applies)
  · rcases shape with same | same | ⟨same, _⟩ <;> simp [same]
  · rcases shape with same | same | ⟨same, _⟩ <;> simp [Process.settled, same]
  · exact fun applies _ => ⟨applying applies, loaded⟩
  · rcases shape with same | same | ⟨same, _⟩ <;> simp [Process.Deleted, same]
  · intro id _ restored ended
    rcases phase with ⟨_, same⟩ | ⟨_, stops⟩
    · simp [same, unrestored] at restored
    · simp [stops restored] at ended
  · intro id applies same
    rcases shape with other | other | ⟨_, rolls⟩
    · simp [other] at same
    · simp [other] at same
    · exact absurd (caller.symm.trans applies) rolls
  · intro id same
    simp [same, Phase.holds] at holds

theorem invariant_restoreUp (invariant : machine.Invariant)
    (member : process ∈ machine.processes) (phase : process.phase = .restoreUp transaction) :
    (machine.advance process outcome uuid).Invariant := by
  have holds : process.phase.holds = some transaction := by simp [phase, Phase.holds]
  have late : process.phase.early = false := by simp [phase, Phase.early]
  have unrestored := (invariant.fits process member).unrestored (by simp [holds])
  simp only [Machine.advance, phase]
  split
  · exact invariant.afterCommand member holds late rfl rfl rfl rfl rfl
      (Or.inr ⟨Or.inl rfl, fun _ => rfl⟩) fun _ _ _ => rfl
  · exact invariant.afterCommand member holds late rfl rfl rfl rfl rfl
      (Or.inr ⟨follows_afterRestoration process transaction.id, by simp [unrestored]⟩)
      fun rolls other same => absurd same (afterRestoration_rollback rolls transaction.id other)

/-- The snapshot is written to the profile. -/
theorem Machine.Invariant.restored (invariant : machine.Invariant)
    (member : process ∈ machine.processes) (phase : process.phase = .restore transaction)
    {next : Phase} (follows : next = .restoreUp transaction ∨
      next.follows process.caller transaction.id)
    (finishing : process.caller = .rollback → ∀ other, ¬ (next = .stop other ∨ next = .unlink other)) :
    ((machine.setProfile transaction.connection transaction.snapshot).put
      { process with phase := next, written := true }).Invariant := by
  have fits := invariant.fits process member
  have holds : process.phase.holds = some transaction := by simp [phase, Phase.holds]
  have named : process.about = some transaction.id := fits.about (Or.inr holds)
  have unrestored := fits.unrestored (by simp [holds])
  have about : next.about = some transaction.id := by
    rcases follows with rfl | rfl | ⟨rfl, _⟩ <;> rfl
  have applying (applies : Process.applying { process with phase := next, written := true } = true) :
      process.applying = true := by
    rw [applying_iff] at applies ⊢
    exact ⟨applies.1, by simp [phase, Phase.underWay]⟩
  have known {other : Process} (otherMem : other ∈ machine.processes)
      (applies : other.applying = true) {held : Transaction} (loaded : other.loaded = some held) :
      transaction = held :=
    invariant.only otherMem applies (Or.inl loaded) (Or.inr ⟨process, member, phase⟩)
  have continues : Continues machine (Function.update machine.profiles transaction.connection
      transaction.snapshot) process { process with phase := next, written := true } := {
    pid := rfl
    caller := rfl
    about := about.trans named.symm
    written := fun _ => rfl
    fits := {
      loaded := fun held same => (about.trans named.symm).trans (fits.loaded held same)
      early := fun impossible => by
        rcases follows with rfl | rfl | ⟨rfl, _⟩ <;> simp [Phase.early] at impossible
      apply := fun impossible => by
        rcases follows with rfl | rfl | ⟨rfl, _⟩ <;> simp [Phase.ofApply] at impossible
      unrestored := fun _ => unrestored
      finishing := fun rolls other same => absurd same (finishing rolls other)
      unit := fun id inside => ⟨(fits.unit id inside).1,
        (about.trans named.symm).trans (fits.unit id inside).2⟩ }
    mentions := by
      rintro held (known | same)
      · exact Or.inr ⟨process, member, Or.inl known⟩
      · refine mentioned_of_holds member ?_
        rcases follows with rfl | rfl | ⟨rfl, _⟩
        · exact holds.trans same
        · simp [Phase.holds] at same
        · simp [Phase.holds] at same
    applying := fun applies => Or.inl (applying applies)
    restores := by
      rcases follows with rfl | rfl | ⟨rfl, _⟩ <;> simp
    settled := by
      rcases follows with rfl | rfl | ⟨rfl, _⟩ <;> simp [Process.settled]
    profile := by
      intro pending pendingMem overwritten
      have same := invariant.restores process member transaction phase pending pendingMem
      exact absurd (overwritten (about.trans (congrArg some same.symm))) (by simp)
    snapshot := by
      intro applier applierMem applies overwritten held loaded
      have same : transaction = held := by
        rcases mem_put.mp applierMem with rfl | ⟨kept, _⟩
        · exact known member (applying applies) loaded
        · exact known kept applies loaded
      subst same
      exact Function.update_self ..
    deleted := by
      rcases follows with rfl | rfl | ⟨rfl, _⟩ <;> simp [Process.Deleted]
    rolledBack := by simp [unrestored]
    failed := by
      intro id applies same
      rcases follows with rfl | rfl | ⟨rfl, rolls⟩
      · simp at same
      · simp at same
      · exact absurd applies rolls
    unlinks := by simp [phase] }
  exact invariant.put member continues

theorem invariant_restore (invariant : machine.Invariant)
    (member : process ∈ machine.processes) (phase : process.phase = .restore transaction) :
    (machine.advance process outcome uuid).Invariant := by
  have holds : process.phase.holds = some transaction := by simp [phase, Phase.holds]
  have late : process.phase.early = false := by simp [phase, Phase.early]
  have unrestored := (invariant.fits process member).unrestored (by simp [holds])
  simp only [Machine.advance, phase]
  by_cases effective : outcome.effective = true
  · simp only [effective, Bool.or_true]
    split
    · exact invariant.restored member phase (Or.inl rfl) (by simp)
    · exact invariant.restored member phase
        (Or.inr (follows_afterRestoration process transaction.id))
        fun rolls => afterRestoration_rollback rolls transaction.id
  · have failed : ¬ outcome.succeeds = true := fun succeeds =>
      effective (effective_of_succeeds succeeds)
    rw [if_neg effective, if_neg failed]
    rw [Bool.not_eq_true] at effective
    exact invariant.afterCommand member holds late rfl rfl rfl (by simp [effective]) rfl
      (Or.inr ⟨follows_afterRestoration process transaction.id, by simp [unrestored]⟩)
      fun rolls other same => absurd same (afterRestoration_rollback rolls transaction.id other)

/-! ## The end of a call -/

theorem invariant_report (invariant : machine.Invariant)
    (member : process ∈ machine.processes) (phase : process.phase = .report id)
    (safe : ¬ machine.Hazard process outcome) :
    (machine.advance process outcome uuid).Invariant := by
  have fits := invariant.fits process member
  have named : process.about = some id := by simp [Process.about, phase, Phase.about]
  simp only [Machine.Hazard, phase, not_and, Bool.not_eq_false] at safe
  simp only [Machine.advance, phase]
  apply invariant.quiet member { process with
    phase := .ended (some id) (if outcome.succeeds then .returned else .raised) } rfl rfl
      named.symm rfl
  · exact {
      loaded := fun known same => named.symm.trans (fits.loaded known same)
      early := fun impossible => absurd impossible (by simp [Phase.early])
      apply := fun impossible => absurd impossible (by simp [Phase.ofApply])
      unrestored := fun impossible => absurd impossible (by simp [Phase.holds])
      finishing := by simp
      unit := fun other inside =>
        ⟨(fits.unit other inside).1, named.symm.trans (fits.unit other inside).2⟩ }
  · rintro held (known | same)
    · exact Or.inr ⟨process, member, Or.inl known⟩
    · simp [Phase.holds] at same
  · simp [Process.applying, Phase.underWay]
  · simp
  · simp [Process.settled, phase]
  · simp [Process.applying, Phase.underWay]
  · rintro other _ (same | same)
    · simp at same
    · simp only [Phase.ended.injEq, Option.some.injEq] at same
      exact Or.inl (same.1 ▸ phase)
  · rintro other _ restored (same | ⟨ending, same⟩)
    · simp at same
    · simp only [Phase.ended.injEq, Option.some.injEq] at same
      exact ⟨restored, Or.inl (same.1 ▸ phase)⟩
  · intro other applies same
    rw [if_pos (safe applies)] at same
    simp at same
  · simp [phase]

theorem Machine.Invariant.unlinkFile (invariant : machine.Invariant) (id : Text) :
    (machine.unlinkFile id).Invariant := by
  have fewer {pending : Transaction} (member : pending ∈ (machine.unlinkFile id).files) :
      pending ∈ machine.files := (Table.mem_filter.mp member).1
  have mentioned {known : Transaction} (mentions : (machine.unlinkFile id).Mentioned known) :
      machine.Mentioned known := mentions.imp_left fewer
  exact {
    fits := invariant.fits
    owned := fun pending member => invariant.owned pending (fewer member)
    same := fun first second firstMem secondMem =>
      invariant.same first second (mentioned firstMem) (mentioned secondMem)
    single := fun first firstMem second secondMem =>
      invariant.single first (fewer firstMem) second (fewer secondMem)
    alone := invariant.alone
    unwritten := fun applier member applies unnamed =>
      ⟨fun pending pendingMem => (invariant.unwritten applier member applies unnamed).1 pending
        (fewer pendingMem), (invariant.unwritten applier member applies unnamed).2⟩
    owns := fun applier member applies other named =>
      ⟨fun pending pendingMem => (invariant.owns applier member applies other named).1 pending
        (fewer pendingMem), (invariant.owns applier member applies other named).2⟩
    restores := fun restorer member held phase pending pendingMem =>
      invariant.restores restorer member held phase pending (fewer pendingMem)
    requested := fun pending pendingMem =>
      invariant.requested pending (fewer pendingMem)
    snapshot := invariant.snapshot
    confirmed := fun confirmer member other confirms deleted =>
      ⟨fun pending pendingMem => (invariant.confirmed confirmer member other confirms deleted).1
        pending (fewer pendingMem),
        (invariant.confirmed confirmer member other confirms deleted).2⟩
    rolledBack := fun roller member other rolls restored finished =>
      (invariant.rolledBack roller member other rolls restored finished).imp_left
        fun gone pending pendingMem => gone pending (fewer pendingMem)
    failed := fun applier member other applies raised pending pendingMem =>
      invariant.failed applier member other applies raised pending (fewer pendingMem) }

theorem gone_unlinkFile (machine : Machine) (id : Text) : (machine.unlinkFile id).Gone id := by
  intro pending member
  simpa using (Table.mem_filter.mp member).2

theorem invariant_unlink (invariant : machine.Invariant)
    (member : process ∈ machine.processes) (phase : process.phase = .unlink id)
    (safe : ¬ machine.Hazard process outcome) :
    (machine.advance process outcome uuid).Invariant := by
  have fits := invariant.fits process member
  have named : process.about = some id := by simp [Process.about, phase, Phase.about]
  have gone := gone_unlinkFile machine id
  simp only [Machine.Hazard, phase, not_and, not_or, not_exists] at safe
  simp only [Machine.advance, phase]
  have goes (next : Phase) (shape : (next = .ended (some id) .raised ∧ process.caller = .apply) ∨
      (next = .report id ∧ process.caller ≠ .apply)) :
      ((machine.unlinkFile id).go process next).Invariant := by
    have about : next.about = some id := by rcases shape with ⟨rfl, _⟩ | ⟨rfl, _⟩ <;> rfl
    have idle : ¬ Process.applying { process with phase := next } = true := by
      rcases shape with ⟨rfl, _⟩ | ⟨rfl, other⟩
      · simp [Process.applying, Phase.underWay]
      · simp [Process.applying, other]
    have continues : Continues (machine.unlinkFile id) machine.profiles process
        { process with phase := next } := {
      pid := rfl
      caller := rfl
      about := about.trans named.symm
      written := fun overwritten => overwritten
      fits := {
        loaded := fun held same => (about.trans named.symm).trans (fits.loaded held same)
        early := fun impossible => by
          rcases shape with ⟨rfl, _⟩ | ⟨rfl, _⟩ <;> simp [Phase.early] at impossible
        apply := fun impossible => by
          rcases shape with ⟨rfl, _⟩ | ⟨rfl, _⟩ <;> simp [Phase.ofApply] at impossible
        unrestored := fun impossible => by
          rcases shape with ⟨rfl, _⟩ | ⟨rfl, _⟩ <;> simp [Phase.holds] at impossible
        finishing := by
          rcases shape with ⟨rfl, _⟩ | ⟨rfl, _⟩ <;> simp
        unit := fun other inside => ⟨(fits.unit other inside).1,
          (about.trans named.symm).trans (fits.unit other inside).2⟩ }
      mentions := by
        rintro held (known | same)
        · exact Or.inr ⟨process, member, Or.inl known⟩
        · rcases shape with ⟨rfl, _⟩ | ⟨rfl, _⟩ <;> simp [Phase.holds] at same
      applying := fun applies => absurd applies idle
      restores := by rcases shape with ⟨rfl, _⟩ | ⟨rfl, _⟩ <;> simp
      settled := fun _ => Or.inr fun pending pendingMem same =>
        absurd (Option.some.inj (named.symm.trans same)).symm (gone pending pendingMem)
      profile := fun _ _ _ => Or.inl rfl
      snapshot := by
        intro applier applierMem applies overwritten held loaded
        rcases mem_put.mp applierMem with rfl | ⟨kept, _⟩
        · exact absurd applies idle
        · exact invariant.snapshot applier kept applies overwritten held loaded
      deleted := by
        rintro other confirms deleted
        obtain rfl : other = id := by
          rcases shape with ⟨rfl, _⟩ | ⟨rfl, _⟩
          · simp [Process.Deleted] at deleted
          · simpa [Process.Deleted, eq_comm] using deleted
        refine Or.inr ⟨gone, fun restorer restorerMem held same equal => ?_⟩
        have about : restorer.about = some other := by
          simp [Process.about, same, Phase.about, equal]
        exact ((safe confirms).2 restorer restorerMem about).1 (restoring_iff.mpr ⟨held, same⟩)
      rolledBack := by
        rintro other _ _ finished
        obtain rfl : other = id := by
          rcases shape with ⟨rfl, _⟩ | ⟨rfl, _⟩ <;> simpa [eq_comm] using finished
        exact Or.inl gone
      failed := by
        intro other _ same
        obtain rfl : other = id := by
          rcases shape with ⟨rfl, _⟩ | ⟨rfl, _⟩
          · simpa [eq_comm] using same
          · simp at same
        exact gone
      unlinks := fun other same => by
        rw [phase, Phase.unlink.injEq] at same
        exact same ▸ gone }
    exact (invariant.unlinkFile id).put member continues
  apply goes
  split
  · rename_i applies
    exact Or.inl ⟨rfl, applies⟩
  · rename_i other
    exact Or.inr ⟨rfl, other⟩

/-! ## Writing a transaction -/

/-- An identifier that no process carries is new to the files and the processes. -/
theorem Machine.Invariant.fresh (invariant : machine.Invariant)
    (unused : ∀ other ∈ machine.processes, other.about ≠ some id) {known : Transaction}
    (mentioned : machine.Mentioned known) : known.id ≠ id := by
  rintro rfl
  rcases mentioned with pending | ⟨other, otherMem, mentions⟩
  · obtain ⟨owner, ownerMem, _, about⟩ := invariant.owned known pending
    exact unused owner ownerMem about
  · exact unused other otherMem ((invariant.fits other otherMem).about mentions)

theorem Machine.Invariant.write (invariant : machine.Invariant)
    (member : process ∈ machine.processes) {settings : AgentNetworkSettings} {connection : Text}
    {read : Ipv4} (phase : process.phase = .snapshot settings connection [] read)
    (unused : ∀ other ∈ machine.processes, other.about ≠ some transaction.id)
    {files : Table Transaction Transaction.id}
    (rows : files.rows = machine.files.rows ++ [transaction]) :
    (Machine.go process (.schedule transaction) { machine with files := files }).Invariant := by
  have fits := invariant.fits process member
  have unnamed : process.about = none := by simp [Process.about, phase, Phase.about]
  obtain ⟨unread, unwritten, unrestored⟩ := fits.early (by simp [phase, Phase.early])
  have applies := fits.apply (by simp [phase, Phase.ofApply])
  have applying : process.applying = true :=
    applying_of_ofApply fits (by simp [phase, Phase.ofApply]) (by simp [phase])
  obtain ⟨empty, quiet⟩ := invariant.unwritten process member applying unnamed
  have only {pending : Transaction} : pending ∈ files ↔ pending = transaction := by
    rw [Table.mem_def, rows, List.mem_append, List.mem_singleton]
    exact or_iff_right (empty pending)
  have gone {id : Text} {other : Process} (otherMem : other ∈ machine.processes)
      (about : other.about = some id) :
      Machine.Gone (Machine.go process (.schedule transaction) { machine with files := files }) id := by
    intro pending pendingMem same
    rw [only.mp pendingMem] at same
    exact unused other otherMem (about.trans (congrArg some same.symm))
  have alone {other : Process} (kept : other ∈ machine.processes) (different : other.pid ≠ process.pid)
      (otherApplies : other.applying = true) : False :=
    different (congrArg Process.pid (invariant.alone other kept process member otherApplies applying))
  have idle : ∀ other ∈ (Machine.go process (.schedule transaction)
      { machine with files := files }).processes, ∀ held, other.phase ≠ .restore held := by
    intro other otherMem held same
    rcases mem_put.mp otherMem with rfl | ⟨kept, _⟩
    · simp at same
    · have busy := restoring_iff.mpr ⟨held, same⟩
      simp [quiet other kept] at busy
  have known : ∀ held, (Machine.go process (.schedule transaction)
      { machine with files := files }).Mentioned held → held = transaction ∨
        machine.Mentioned held := by
    rintro held (pending | ⟨other, otherMem, mentions⟩)
    · exact Or.inl (only.mp pending)
    · rcases mem_put.mp otherMem with rfl | ⟨kept, _⟩
      · rcases mentions with loaded | holds
        · simp [unread] at loaded
        · exact Or.inl (Option.some.inj holds).symm
      · exact Or.inr (Or.inr ⟨other, kept, mentions⟩)
  constructor
  case fits =>
    intro other otherMem
    rcases mem_put.mp otherMem with rfl | ⟨kept, _⟩
    · exact {
        loaded := by simp [unread]
        early := fun _ => ⟨unread, unwritten, unrestored⟩
        apply := fun _ => applies
        unrestored := fun _ => unrestored
        finishing := by simp
        unit := fun id inside => absurd (fits.unit id inside).1 (by simp [applies]) }
    · exact invariant.fits other kept
  case owned =>
    intro pending pendingMem
    rw [only.mp pendingMem]
    exact ⟨_, mem_put.mpr (Or.inl rfl), applies, rfl⟩
  case same =>
    intro first second firstMem secondMem equal
    rcases known first firstMem with rfl | firstOld
    · rcases known second secondMem with rfl | secondOld
      · rfl
      · exact absurd equal.symm (invariant.fresh unused secondOld)
    · rcases known second secondMem with rfl | secondOld
      · exact absurd equal (invariant.fresh unused firstOld)
      · exact invariant.same first second firstOld secondOld equal
  case single =>
    intro first firstMem second secondMem
    exact (only.mp firstMem).trans (only.mp secondMem).symm
  case alone =>
    intro first firstMem second secondMem firstApplies secondApplies
    rcases mem_put.mp firstMem with rfl | ⟨firstKept, firstOther⟩
    · rcases mem_put.mp secondMem with rfl | ⟨secondKept, secondOther⟩
      · rfl
      · exact (alone secondKept secondOther secondApplies).elim
    · exact (alone firstKept firstOther firstApplies).elim
  case unwritten =>
    intro applier applierMem otherApplies nameless
    rcases mem_put.mp applierMem with rfl | ⟨kept, different⟩
    · simp [Process.about, Phase.about] at nameless
    · exact (alone kept different otherApplies).elim
  case owns =>
    intro applier applierMem otherApplies id named
    rcases mem_put.mp applierMem with rfl | ⟨kept, different⟩
    · refine ⟨fun pending pendingMem => ?_, fun other otherMem held same =>
        absurd same (idle other otherMem held)⟩
      rw [only.mp pendingMem]
      exact Option.some.inj named
    · exact (alone kept different otherApplies).elim
  case restores => exact fun other otherMem held same => absurd same (idle other otherMem held)
  case requested =>
    intro pending pendingMem applier applierMem _ named settled
    rcases mem_put.mp applierMem with rfl | ⟨kept, _⟩
    · simp [Process.settled] at settled
    · rw [only.mp pendingMem] at named
      exact absurd named (unused applier kept)
  case snapshot =>
    intro applier applierMem otherApplies overwritten
    rcases mem_put.mp applierMem with rfl | ⟨kept, different⟩
    · simp [unwritten] at overwritten
    · exact (alone kept different otherApplies).elim
  case confirmed =>
    intro confirmer confirmerMem id confirms deleted
    rcases mem_put.mp confirmerMem with rfl | ⟨kept, _⟩
    · simp [applies] at confirms
    · refine ⟨gone kept ?_, fun other otherMem held same => absurd same (idle other otherMem held)⟩
      rcases deleted with same | same <;> simp [Process.about, same, Phase.about]
  case rolledBack =>
    intro roller rollerMem id rolls _ finished
    rcases mem_put.mp rollerMem with rfl | ⟨kept, _⟩
    · simp [applies] at rolls
    · refine Or.inl (gone kept ?_)
      rcases finished with same | ⟨_, same⟩ <;> simp [Process.about, same, Phase.about]
  case failed =>
    intro applier applierMem id _ raised
    rcases mem_put.mp applierMem with rfl | ⟨kept, _⟩
    · simp at raised
    · exact gone kept (by simp [Process.about, raised, Phase.about])

theorem invariant_write (invariant : machine.Invariant)
    (member : process ∈ machine.processes) {settings : AgentNetworkSettings} {connection : Text}
    {read : Ipv4} (phase : process.phase = .snapshot settings connection [] read) :
    (machine.advance process outcome uuid).Invariant := by
  simp only [Machine.advance, phase, Machine.writeTransaction]
  split
  · exact invariant
  · rename_i unused
    push Not at unused
    split
    · exact invariant
    · rename_i files inserted
      exact invariant.write member phase unused (Table.insert?_eq_some_iff.mp inserted).2

end OhanaAgent.Host.Network
