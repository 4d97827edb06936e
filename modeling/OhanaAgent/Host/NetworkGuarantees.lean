import OhanaAgent.Host.NetworkTransactions

/-!
# What the network helper guarantees

A stop that ends the processes of a unit, and calls that start, keep the invariant
as the other steps do; so every run without a hazard keeps it, and with it the
guarantees of the helper.  A scheduled rollback that stops its own unit breaks them.
-/

namespace OhanaAgent.Host.Network

open OhanaAgent.Encoding.Json
open OhanaAgent.Store

variable {machine : Machine} {process other : Process} {transaction : Transaction}
  {outcome : Outcome} {id uuid : Text}

/-! ## Stopping a unit -/

/-- A process of the unit ends; the others are as they were. -/
theorem mem_stopUnit : other ∈ (machine.stopUnit id).processes ↔
    (other ∈ machine.processes ∧ ¬ (other.unit = some id ∧ other.live = true)) ∨
      ∃ source ∈ machine.processes, source.unit = some id ∧ source.live = true ∧
        other = { source with phase := .ended source.about .terminated } := by
  simp only [Machine.stopUnit, Table.mem_mapRows]
  constructor
  · rintro ⟨source, member, rfl⟩
    by_cases inside : source.unit = some id ∧ source.live = true
    · rw [if_pos inside]
      exact Or.inr ⟨source, member, inside.1, inside.2, rfl⟩
    · rw [if_neg inside]
      exact Or.inl ⟨member, inside⟩
  · rintro (⟨member, outside⟩ | ⟨source, member, unit, live, rfl⟩)
    · exact ⟨other, member, if_neg outside⟩
    · exact ⟨source, member, if_pos ⟨unit, live⟩⟩

theorem Machine.Invariant.stopUnit (invariant : machine.Invariant)
    (kept : (∃ other ∈ machine.processes, other.phase = .unlink id ∧ other.unit ≠ some id) ∨
      ∀ other ∈ machine.processes, other.live = true → other.unit = some id →
        other.restored = false) : (machine.stopUnit id).Invariant := by
  have foreign {other : Process} (member : other ∈ machine.processes)
      (caller : other.caller ≠ .rollback) : other ∈ (machine.stopUnit id).processes := by
    refine mem_stopUnit.mpr (Or.inl ⟨member, fun inside => caller ?_⟩)
    exact ((invariant.fits other member).unit id inside.1).1
  have source {other : Process} (member : other ∈ (machine.stopUnit id).processes)
      (going : ∀ about, other.phase ≠ .ended about .terminated) : other ∈ machine.processes := by
    rcases mem_stopUnit.mp member with ⟨same, _⟩ | ⟨earlier, _, _, _, rfl⟩
    · exact same
    · exact absurd rfl (going earlier.about)
  have applied {other : Process} (member : other ∈ (machine.stopUnit id).processes)
      (caller : other.caller ≠ .rollback) : other ∈ machine.processes := by
    rcases mem_stopUnit.mp member with ⟨same, _⟩ | ⟨earlier, earlierMem, unit, _, rfl⟩
    · exact same
    · exact absurd ((invariant.fits earlier earlierMem).unit id unit).1 caller
  have applying {other : Process} (member : other ∈ (machine.stopUnit id).processes)
      (applies : other.applying = true) : other ∈ machine.processes :=
    applied member (by simp [(applying_iff.mp applies).1])
  have restoring {other : Process} (member : other ∈ (machine.stopUnit id).processes)
      {held : Transaction} (phase : other.phase = .restore held) : other ∈ machine.processes :=
    source member (by simp [phase])
  have mentioned {held : Transaction} (mentions : (machine.stopUnit id).Mentioned held) :
      machine.Mentioned held := by
    rcases mentions with pending | ⟨other, member, loaded | holds⟩
    · exact Or.inl pending
    · rcases mem_stopUnit.mp member with ⟨same, _⟩ | ⟨earlier, earlierMem, _, _, rfl⟩
      · exact Or.inr ⟨other, same, Or.inl loaded⟩
      · exact Or.inr ⟨earlier, earlierMem, Or.inl loaded⟩
    · rcases mem_stopUnit.mp member with ⟨same, _⟩ | ⟨earlier, _, _, _, rfl⟩
      · exact Or.inr ⟨other, same, Or.inr holds⟩
      · simp [Phase.holds] at holds
  constructor
  case fits =>
    intro other member
    rcases mem_stopUnit.mp member with ⟨same, _⟩ | ⟨earlier, earlierMem, _, _, rfl⟩
    · exact invariant.fits other same
    · have fits := invariant.fits earlier earlierMem
      exact {
        loaded := fits.loaded
        early := fun impossible => absurd impossible (by simp [Phase.early])
        apply := fun impossible => absurd impossible (by simp [Phase.ofApply])
        unrestored := fun impossible => absurd impossible (by simp [Phase.holds])
        finishing := by simp
        unit := fits.unit }
  case owned =>
    intro pending pendingMem
    obtain ⟨owner, ownerMem, applies, about⟩ := invariant.owned pending pendingMem
    exact ⟨owner, foreign ownerMem (by simp [applies]), applies, about⟩
  case same =>
    intro first second firstMem secondMem
    exact invariant.same first second (mentioned firstMem) (mentioned secondMem)
  case single => exact invariant.single
  case alone =>
    intro first firstMem second secondMem firstApplies secondApplies
    exact invariant.alone first (applying firstMem firstApplies) second
      (applying secondMem secondApplies) firstApplies secondApplies
  case unwritten =>
    intro applier member applies unnamed
    obtain ⟨empty, quiet⟩ := invariant.unwritten applier (applying member applies) applies unnamed
    refine ⟨empty, fun other otherMem => ?_⟩
    by_contra restores
    rw [Bool.not_eq_false] at restores
    obtain ⟨held, phase⟩ := restoring_iff.mp restores
    simp [quiet other (restoring otherMem phase)] at restores
  case owns =>
    intro applier member applies other named
    obtain ⟨files, restores⟩ := invariant.owns applier (applying member applies) applies other named
    exact ⟨files, fun restorer restorerMem held phase =>
      restores restorer (restoring restorerMem phase) held phase⟩
  case restores =>
    intro restorer member held phase
    exact invariant.restores restorer (restoring member phase) held phase
  case requested =>
    intro pending pendingMem applier member applies named settled unwritten
    refine invariant.requested pending pendingMem applier (applied member (by simp [applies]))
      applies named settled fun other otherMem about => ?_
    by_cases inside : other.unit = some id ∧ other.live = true
    · exact unwritten { other with phase := .ended other.about .terminated }
        (mem_stopUnit.mpr (Or.inr ⟨other, otherMem, inside.1, inside.2, rfl⟩)) about
    · exact unwritten other (mem_stopUnit.mpr (Or.inl ⟨otherMem, inside⟩)) about
  case snapshot =>
    intro applier member applies
    exact invariant.snapshot applier (applying member applies) applies
  case confirmed =>
    intro confirmer member other confirms deleted
    obtain ⟨gone, quiet⟩ := invariant.confirmed confirmer (applied member (by simp [confirms]))
      other confirms deleted
    exact ⟨gone, fun restorer restorerMem held phase =>
      quiet restorer (restoring restorerMem phase) held phase⟩
  case rolledBack =>
    -- the unlinking call that a rollback leaves its transaction to may be in the unit
    have still (wanted : Text) (before : machine.Gone wanted ∨
        ∃ other ∈ machine.processes, other.phase = .unlink wanted) : machine.Gone wanted ∨
          ∃ other ∈ (machine.stopUnit id).processes, other.phase = .unlink wanted := by
      rcases before with gone | ⟨other, otherMem, phase⟩
      · exact Or.inl gone
      · by_cases inside : other.unit = some id ∧ other.live = true
        · obtain ⟨rolls, about⟩ := (invariant.fits other otherMem).unit id inside.1
          obtain rfl : wanted = id := by
            simpa [Process.about, phase, Phase.about] using about
          rcases kept with ⟨deleter, deleterMem, deletes, outside⟩ | unrestored
          · exact Or.inr ⟨deleter, mem_stopUnit.mpr (Or.inl ⟨deleterMem, fun both =>
              outside both.1⟩), deletes⟩
          · have restored := (invariant.fits other otherMem).finishing rolls wanted (Or.inr phase)
            simp [unrestored other otherMem inside.2 inside.1] at restored
        · exact Or.inr ⟨other, mem_stopUnit.mpr (Or.inl ⟨otherMem, inside⟩), phase⟩
    intro roller member wanted rolls restored finished
    rcases mem_stopUnit.mp member with ⟨same, _⟩ | ⟨earlier, earlierMem, unit, live, rfl⟩
    · exact still wanted (invariant.rolledBack roller same wanted rolls restored finished)
    · obtain rfl : id = wanted := by
        have about := ((invariant.fits earlier earlierMem).unit id unit).2
        simpa [about] using finished
      rcases kept with ⟨deleter, deleterMem, deletes, outside⟩ | unrestored
      · exact Or.inr ⟨deleter, mem_stopUnit.mpr (Or.inl ⟨deleterMem, fun both =>
          outside both.1⟩), deletes⟩
      · simp [unrestored earlier earlierMem live unit] at restored
  case failed =>
    intro applier member other applies raised
    exact invariant.failed applier (applied member (by simp [applies])) other applies raised

theorem stopUnit_go (outside : process.unit ≠ some id) (phase : Phase) :
    (machine.stopUnit id).go process phase = (machine.go process phase).stopUnit id := by
  simp only [Machine.go, Machine.put, Machine.stopUnit]
  congr 1
  exact Table.upsert_mapRows (if_neg fun inside => outside inside.1)

/-- A call goes on after its stop. -/
theorem Machine.Invariant.afterStop (invariant : machine.Invariant)
    (member : process ∈ machine.processes) (phase : process.phase = .stop id) {next : Phase}
    (follows : next = .unlink id ∨ (next = .ended (some id) .raised ∧ process.caller = .confirm)) :
    (machine.go process next).Invariant := by
  have fits := invariant.fits process member
  have named : process.about = some id := by simp [Process.about, phase, Phase.about]
  have about : next.about = some id := by rcases follows with rfl | ⟨rfl, _⟩ <;> rfl
  apply invariant.quiet member { process with phase := next } rfl rfl (about.trans named.symm) rfl
  · exact {
      loaded := fun held same => (about.trans named.symm).trans (fits.loaded held same)
      early := fun impossible => by
        rcases follows with rfl | ⟨rfl, _⟩ <;> simp [Phase.early] at impossible
      apply := fun impossible => by
        rcases follows with rfl | ⟨rfl, _⟩ <;> simp [Phase.ofApply] at impossible
      unrestored := fun impossible => by
        rcases follows with rfl | ⟨rfl, _⟩ <;> simp [Phase.holds] at impossible
      finishing := fun rolls _ _ => fits.finishing rolls id (Or.inl phase)
      unit := fun other inside => ⟨(fits.unit other inside).1,
        (about.trans named.symm).trans (fits.unit other inside).2⟩ }
  · rintro held (known | same)
    · exact Or.inr ⟨process, member, Or.inl known⟩
    · rcases follows with rfl | ⟨rfl, _⟩ <;> simp [Phase.holds] at same
  · intro applies
    rw [applying_iff] at applies
    exact Or.inl (applying_iff.mpr ⟨applies.1, by simp [phase, Phase.underWay]⟩)
  · rcases follows with rfl | ⟨rfl, _⟩ <;> simp
  · rcases follows with rfl | ⟨rfl, _⟩ <;> simp [Process.settled]
  · intro applies _
    rw [applying_iff] at applies
    exact ⟨applying_iff.mpr ⟨applies.1, by simp [phase, Phase.underWay]⟩, rfl⟩
  · rcases follows with rfl | ⟨rfl, _⟩ <;> simp [Process.Deleted]
  · rcases follows with rfl | ⟨rfl, confirms⟩
    · simp
    · simp [confirms]
  · rcases follows with rfl | ⟨rfl, confirms⟩
    · simp
    · simp [confirms]
  · simp [phase]

theorem invariant_stop (invariant : machine.Invariant)
    (member : process ∈ machine.processes) (phase : process.phase = .stop id)
    (safe : ¬ machine.Hazard process outcome) :
    (machine.advance process outcome uuid).Invariant := by
  simp only [Machine.Hazard, phase, not_or, not_and, not_exists, ne_eq, not_not] at safe
  obtain ⟨outside, raising⟩ := safe
  simp only [Machine.advance, phase]
  by_cases effective : outcome.effective = true
  · have foreign := outside effective
    rw [if_pos effective, if_neg fun own => foreign own.2, stopUnit_go foreign]
    split
    · rename_i raises
      have confirms := (raising raises).1
      refine (invariant.afterStop member phase (Or.inr ⟨rfl, confirms⟩)).stopUnit (Or.inr ?_)
      intro other otherMem live unit
      rcases mem_put.mp otherMem with rfl | ⟨kept, _⟩
      · exact absurd unit foreign
      · simpa using (raising raises).2 effective other kept live unit
    · exact (invariant.afterStop member phase (Or.inl rfl)).stopUnit
        (Or.inl ⟨_, mem_put.mpr (Or.inl rfl), rfl, foreign⟩)
  · rw [if_neg effective, if_neg fun own => effective own.1]
    split
    · rename_i raises
      exact invariant.afterStop member phase (Or.inr ⟨rfl, (raising raises).1⟩)
    · exact invariant.afterStop member phase (Or.inl rfl)

/-! ## Calls that start -/

/-- What a call has not done when it starts. -/
structure Process.New (process : Process) : Prop where
  fits : process.Fits
  unread : process.loaded = none
  holds : process.phase.holds = none
  unrestored : process.restored = false
  applying : process.applying = false
  settled : process.settled = false
  ended : ∀ id ending, process.phase ≠ .ended (some id) ending
  report : ∀ id, process.phase ≠ .report id

theorem Machine.Invariant.started (invariant : machine.Invariant) (new : process.New)
    (free : machine.processes.find? process.pid = none) : (machine.put process).Invariant := by
  have keeps {other : Process} (member : other ∈ machine.processes) :
      other ∈ (machine.put process).processes :=
    mem_put.mpr (Or.inr ⟨member, Table.find?_eq_none_iff.mp free other member⟩)
  have applies {other : Process} (member : other ∈ (machine.put process).processes)
      (applying : other.applying = true) : other ∈ machine.processes := by
    rcases mem_put.mp member with rfl | ⟨kept, _⟩
    · simp [new.applying] at applying
    · exact kept
  have restores {other : Process} (member : other ∈ (machine.put process).processes)
      {held : Transaction} (phase : other.phase = .restore held) : other ∈ machine.processes := by
    rcases mem_put.mp member with rfl | ⟨kept, _⟩
    · have none := new.holds
      simp [phase, Phase.holds] at none
    · exact kept
  have mentioned {held : Transaction} (mentions : (machine.put process).Mentioned held) :
      machine.Mentioned held := by
    rcases mentions with pending | ⟨other, member, mentions⟩
    · exact Or.inl pending
    · rcases mem_put.mp member with rfl | ⟨kept, _⟩
      · rcases mentions with loaded | holds
        · simp [new.unread] at loaded
        · simp [new.holds] at holds
      · exact Or.inr ⟨other, kept, mentions⟩
  constructor
  case fits =>
    intro other member
    rcases mem_put.mp member with rfl | ⟨kept, _⟩
    · exact new.fits
    · exact invariant.fits other kept
  case owned =>
    intro pending pendingMem
    obtain ⟨owner, ownerMem, owns⟩ := invariant.owned pending pendingMem
    exact ⟨owner, keeps ownerMem, owns⟩
  case same =>
    intro first second firstMem secondMem
    exact invariant.same first second (mentioned firstMem) (mentioned secondMem)
  case single => exact invariant.single
  case alone =>
    intro first firstMem second secondMem firstApplies secondApplies
    exact invariant.alone first (applies firstMem firstApplies) second
      (applies secondMem secondApplies) firstApplies secondApplies
  case unwritten =>
    intro applier member applying unnamed
    obtain ⟨empty, quiet⟩ := invariant.unwritten applier (applies member applying) applying unnamed
    refine ⟨empty, fun other otherMem => ?_⟩
    by_contra restoring
    rw [Bool.not_eq_false] at restoring
    obtain ⟨held, phase⟩ := restoring_iff.mp restoring
    simp [quiet other (restores otherMem phase)] at restoring
  case owns =>
    intro applier member applying id named
    obtain ⟨files, quiet⟩ := invariant.owns applier (applies member applying) applying id named
    exact ⟨files, fun other otherMem held phase =>
      quiet other (restores otherMem phase) held phase⟩
  case restores =>
    intro other member held phase
    exact invariant.restores other (restores member phase) held phase
  case requested =>
    intro pending pendingMem applier member caller named settled unwritten
    rcases mem_put.mp member with rfl | ⟨kept, _⟩
    · simp [new.settled] at settled
    · exact invariant.requested pending pendingMem applier kept caller named settled
        fun other otherMem => unwritten other (keeps otherMem)
  case snapshot =>
    intro applier member applying
    exact invariant.snapshot applier (applies member applying) applying
  case confirmed =>
    intro confirmer member id confirms deleted
    rcases mem_put.mp member with rfl | ⟨kept, _⟩
    · rcases deleted with same | same
      · exact absurd same (new.report id)
      · exact absurd same (new.ended id .returned)
    · obtain ⟨gone, quiet⟩ := invariant.confirmed confirmer kept id confirms deleted
      exact ⟨gone, fun other otherMem held phase =>
        quiet other (restores otherMem phase) held phase⟩
  case rolledBack =>
    intro roller member id rolls restored finished
    rcases mem_put.mp member with rfl | ⟨kept, _⟩
    · simp [new.unrestored] at restored
    · rcases invariant.rolledBack roller kept id rolls restored finished with
        gone | ⟨other, otherMem, phase⟩
      · exact Or.inl gone
      · exact Or.inr ⟨other, keeps otherMem, phase⟩
  case failed =>
    intro applier member id caller raised
    rcases mem_put.mp member with rfl | ⟨kept, _⟩
    · exact absurd raised (new.ended id .raised)
    · exact invariant.failed applier kept id caller raised

theorem Machine.Invariant.start (invariant : machine.Invariant) (new : process.New) :
    (machine.start process).Invariant := by
  unfold Machine.start
  split
  · exact invariant
  · rename_i free
    exact invariant.started new (by simpa using free)

/-- A call of apply, before its check or refused for its delay. -/
theorem new_apply (pid : Nat) {phase : Phase}
    (begins : (∃ settings, phase = .check settings) ∨ phase = .ended none .raised) :
    Process.New { pid := pid, caller := .apply, unit := none, phase := phase } := by
  constructor
  case fits =>
    exact {
      loaded := by simp
      early := by simp
      apply := fun _ => rfl
      unrestored := fun _ => rfl
      finishing := by simp
      unit := by simp }
  all_goals rcases begins with ⟨settings, rfl⟩ | rfl <;>
    simp [Phase.holds, Process.applying, Phase.underWay, Process.settled]

/-- A confirmation or a rollback, about to read its transaction. -/
theorem new_load (pid : Nat) {caller : Caller} {unit : Option Text} (id : Text)
    (other : caller ≠ .apply) (own : ∀ name, unit = some name → caller = .rollback ∧ id = name) :
    Process.New { pid := pid, caller := caller, unit := unit, phase := .load id } := by
  constructor
  case fits =>
    exact {
      loaded := by simp
      early := by simp
      apply := fun impossible => absurd impossible (by simp [Phase.ofApply])
      unrestored := fun _ => rfl
      finishing := by simp
      unit := fun name same => ⟨(own name same).1, congrArg some (own name same).2⟩ }
  all_goals simp [Phase.holds, Process.applying, Phase.underWay, Process.settled, other]

/-! ## Runs -/

theorem invariant_advance (invariant : machine.Invariant)
    (member : process ∈ machine.processes) (safe : ¬ machine.Hazard process outcome) :
    (machine.advance process outcome uuid).Invariant := by
  cases phase : process.phase with
  | check settings => exact invariant_check invariant member phase safe
  | resolve settings => exact invariant_resolve invariant member phase
  | snapshot settings connection left read =>
      cases left with
      | nil => exact invariant_write invariant member phase
      | cons property left => exact invariant_snapshot invariant member phase
  | schedule transaction => exact invariant_schedule invariant member phase
  | modify transaction => exact invariant_modify invariant member phase
  | up transaction => exact invariant_up invariant member phase
  | load id => exact invariant_load invariant member phase
  | restore transaction => exact invariant_restore invariant member phase
  | restoreUp transaction => exact invariant_restoreUp invariant member phase
  | stop id => exact invariant_stop invariant member phase safe
  | unlink id => exact invariant_unlink invariant member phase safe
  | report id => exact invariant_report invariant member phase safe
  | ended id ending =>
      simp only [Machine.advance, phase]
      exact invariant

/-- A step without hazard keeps the invariant. -/
theorem Machine.Invariant.step (invariant : machine.Invariant) {label : Label}
    (safe : machine.SafeStep label) : (machine.step label).Invariant := by
  cases label with
  | apply pid settings rollbackSeconds =>
      refine invariant.start (new_apply pid ?_)
      split
      · exact Or.inl ⟨settings, rfl⟩
      · exact Or.inr rfl
  | confirm pid id => exact invariant.start (new_load pid id (by simp) (by simp))
  | rollback pid id => exact invariant.start (new_load pid id (by simp) (by simp))
  | elapse pid id =>
      simp only [Machine.step]
      split
      · exact (invariant.timers _).start (new_load pid id (by simp) (by simp))
      · exact invariant
  | run pid outcome uuid =>
      simp only [Machine.step]
      cases found : machine.processes.find? pid with
      | none => exact invariant
      | some process =>
          exact invariant_advance invariant (Table.find?_eq_some_iff.mp found).1
            (safe process found)

theorem invariant_initial (profiles : Text → Ipv4) : (Machine.initial profiles).Invariant := by
  constructor
  all_goals simp [Machine.initial, Machine.Mentioned]

/-- A guarantee about transactions, at one state. -/
theorem Machine.Invariant.sound (invariant : machine.Invariant) : machine.Sound where
  single := by
    have distinct := machine.files.distinct
    have single := invariant.single
    simp only [Table.mem_def] at single
    match rows : machine.files.rows with
    | [] => simp
    | [_] => simp
    | first :: second :: left =>
        have same : first = second := single first (by simp [rows]) second (by simp [rows])
        simp [rows, same] at distinct
  rolledBack := fun roller member id ending rolls restored ended =>
    invariant.rolledBack roller member id rolls restored (Or.inr ⟨ending, ended⟩)
  confirmed := fun confirmer member id confirms ended =>
    invariant.confirmed confirmer member id confirms (Or.inr ended)
  failed := invariant.failed

/-- The settings or the snapshot are in place when a call deletes its transaction. -/
theorem Machine.Invariant.soundStep (invariant : machine.Invariant) {label : Label}
    (safe : machine.SafeStep label) : machine.SoundStep label := by
  cases label with
  | run pid outcome uuid =>
      intro process found id phase transaction loaded
      have member := (Table.find?_eq_some_iff.mp found).1
      have fits := invariant.fits process member
      have harmless := safe process found
      simp only [Machine.Hazard, phase, not_and, not_or, not_exists] at harmless
      obtain rfl : id = transaction.id := by
        simpa [Process.about, phase, Phase.about] using fits.loaded transaction loaded
      constructor
      · intro confirms
        obtain ⟨pending, quiet⟩ := harmless confirms
        obtain ⟨file, found⟩ := Option.ne_none_iff_exists'.mp (by simpa using pending)
        obtain ⟨fileMem, same⟩ := Table.find?_eq_some_iff.mp found
        obtain rfl := invariant.same file transaction (Or.inl fileMem)
          (Or.inr ⟨process, member, Or.inl loaded⟩) same
        obtain ⟨owner, ownerMem, applies, about⟩ := invariant.owned file fileMem
        refine invariant.requested file fileMem owner ownerMem applies about ?_ ?_
        · simpa using (quiet owner ownerMem about).2.2 applies
        · intro other otherMem about
          simpa using (quiet other otherMem about).2.1
      · intro applies written
        have applying : process.applying = true :=
          applying_iff.mpr ⟨applies, by simp [phase, Phase.underWay]⟩
        exact invariant.snapshot process member applying written transaction loaded
  | _ => trivial

/-- The guarantees hold in every state of a run and of every step. -/
def Machine.SoundAlong (machine : Machine) : List Label → Prop
  | [] => machine.Sound
  | label :: labels =>
      machine.Sound ∧ machine.SoundStep label ∧ (machine.step label).SoundAlong labels

theorem Machine.Invariant.soundAlong (invariant : machine.Invariant) {labels : List Label}
    (safe : machine.Safe labels) : machine.SoundAlong labels := by
  induction labels generalizing machine with
  | nil => exact invariant.sound
  | cons label labels inductionHypothesis =>
      exact ⟨invariant.sound, invariant.soundStep safe.1,
        inductionHypothesis (invariant.step safe.1) safe.2⟩

/-- In a run whose steps are all safe, every state and every step is sound. -/
theorem network_sound (profiles : Text → Ipv4) (labels : List Label)
    (safe : (Machine.initial profiles).Safe labels) :
    (Machine.initial profiles).SoundAlong labels :=
  (invariant_initial profiles).soundAlong safe

theorem Machine.SoundAlong.last {labels : List Label} (sound : machine.SoundAlong labels) :
    (machine.runs labels).Sound := by
  induction labels generalizing machine with
  | nil => exact sound
  | cons label labels inductionHypothesis => exact inductionHypothesis sound.2.2

theorem ended_of_not_live (stopped : process.live = false) (about : process.about = some id) :
    ∃ ending, process.phase = .ended (some id) ending := by
  unfold Process.live at stopped
  cases phase : process.phase <;> simp_all [Process.about, Phase.about]

/-! ## A confirmed change and a rollback that stops itself -/

instance (machine : Machine) (label : Label) : Decidable (machine.SafeStep label) := by
  unfold Machine.SafeStep
  split <;> infer_instance

instance decidableSafe : ∀ (machine : Machine) (labels : List Label),
    Decidable (machine.Safe labels)
  | _, [] => isTrue trivial
  | machine, label :: labels =>
      have := decidableSafe (machine.step label) labels
      inferInstanceAs (Decidable (machine.SafeStep label ∧ (machine.step label).Safe labels))

namespace Unattended

def settings : AgentNetworkSettings :=
  ⟨"eth0".toList, .auto⟩

def profiles : Text → Ipv4 :=
  fun _ _ => []

/-- An apply whose commands all succeed. -/
def applied : List Label :=
  .apply 1 settings 60 ::
    List.replicate 12 (.run 1 (.success "wired".toList) "t".toList)

/-- A confirmation whose commands all succeed. -/
def confirmation : List Label :=
  .confirm 2 "t".toList :: List.replicate 4 (.run 2 (.success []) [])

/-- The timer elapses and the commands of its service all succeed. -/
def elapsed : List Label :=
  .elapse 2 "t".toList :: List.replicate 4 (.run 2 (.success []) [])

theorem confirmed_sound :
    (Machine.initial profiles).SoundAlong (applied ++ confirmation) :=
  network_sound profiles (applied ++ confirmation) (by decide)

/-- The scheduled rollback ends with its own unit, before it deletes the transaction. -/
theorem elapsed_not_sound : ¬ ∀ (profiles : Text → Ipv4) (labels : List Label),
    (Machine.initial profiles).SoundAlong labels := by
  intro always
  have sound := (always profiles (applied ++ elapsed)).last
  have stopped : ∀ process ∈ ((Machine.initial profiles).runs (applied ++ elapsed)).processes.rows,
      process.live = false := by decide
  have rolledBack : ∃ process ∈
      ((Machine.initial profiles).runs (applied ++ elapsed)).processes.rows,
      process.caller = .rollback ∧ process.restored = true ∧
        process.about = some "t".toList := by decide
  have pending : ∃ transaction ∈
      ((Machine.initial profiles).runs (applied ++ elapsed)).files.rows,
      transaction.id = "t".toList := by decide
  obtain ⟨process, member, rolls, restored, about⟩ := rolledBack
  obtain ⟨ending, ended⟩ := ended_of_not_live (stopped process member) about
  rcases sound.rolledBack process member "t".toList ending rolls restored ended with
    gone | ⟨other, otherMem, unlinks⟩
  · obtain ⟨transaction, transactionMem, same⟩ := pending
    exact gone transaction transactionMem same
  · have live := stopped other otherMem
    simp [Process.live, unlinks] at live

end Unattended

end OhanaAgent.Host.Network
