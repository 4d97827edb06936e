import Mathlib.Data.List.Chain
import Mathlib.Data.List.DropRight
import Mathlib.Data.List.Induction
import OhanaAgent.Encoding.Json
import OhanaAgent.Time.Zone

/-!
# The pause of AdGuard's protection across restarts

The tracker keeps in memory since when the protection is paused and when the
pause was last seen, and writes both to its only row on a change or every
fifteen minutes.  After a restart the row stands for the memory: the last sighting
is then older than the last reading, by less than fifteen minutes.
-/

namespace OhanaAgent.Tsunade.AdguardPause

open OhanaAgent.Encoding.Json (Text)
open OhanaAgent.Time

/-! ## Instants and their texts -/

/-- The zone of Paris and `datetime.fromisoformat`; a text without an offset is
read in UTC. -/
structure Calendar where
  paris : Zone
  fromisoformat : Text → Option Int

namespace Calendar

/-- An instant that a datetime shows in UTC and in Paris. -/
def Shown (calendar : Calendar) (instant : Int) : Prop :=
  Representable instant ∧ Representable (calendar.paris.wall instant)

instance (calendar : Calendar) (instant : Int) : Decidable (calendar.Shown instant) :=
  inferInstanceAs (Decidable (_ ∧ _))

/-- `to_paris`, which raises an error where the conversion overflows. -/
def toParis (calendar : Calendar) (instant : Int) : Option Int :=
  if calendar.Shown instant then some instant else none

/-- `paris_iso`. -/
def parisIso (calendar : Calendar) (instant : Int) : Text :=
  calendar.paris.isoformat instant

/-- `strftime("%d/%m à %H:%M")`. -/
def shortText (calendar : Calendar) (instant : Int) : Text :=
  let wall := calendar.paris.wall instant
  let (_, month, dayOfMonth) := civil (wall / day)
  padded 2 dayOfMonth ++ '/' :: padded 2 month ++ " à ".toList ++
    padded 2 (wall % day / hour) ++ ':' :: padded 2 (wall % day / minute % 60)

/-- `_short`, which raises an error on a text that is no date. -/
def short (calendar : Calendar) (value : Option Text) : Option Text :=
  match value with
  | none => some []
  | some [] => some []
  | some text => (calendar.fromisoformat text).bind fun instant =>
      (calendar.toParis instant).map calendar.shortText

/-- An absent end, an empty one, or the text of a date that Paris shows. -/
def Legible (calendar : Calendar) (value : Option Text) : Prop :=
  ∀ text, value = some text → text ≠ [] →
    ∃ instant, calendar.fromisoformat text = some instant ∧ calendar.Shown instant

variable {calendar : Calendar}

theorem toParis_of_shown {instant : Int} (shown : calendar.Shown instant) :
    calendar.toParis instant = some instant :=
  if_pos shown

theorem toParis_isSome_iff {instant : Int} :
    (calendar.toParis instant).isSome ↔ calendar.Shown instant := by
  unfold toParis
  split <;> simp_all

/-- The end of a pause is described exactly when it is legible. -/
theorem short_isSome_iff {value : Option Text} :
    (calendar.short value).isSome ↔ calendar.Legible value := by
  rcases value with _ | _ | ⟨c, rest⟩
  · simp [short, Legible]
  · simp [short, Legible]
  · cases read : calendar.fromisoformat (c :: rest) with
    | none => simp [short, Legible, read]
    | some instant => simp [short, Legible, read, toParis_isSome_iff]

end Calendar

/-! ## The tracker -/

/-- `PAUSE_WATCH_AFTER`, `STALE_AFTER` and `PERSIST_EVERY`. -/
def pauseWatchAfter : Int := 2 * hour

def staleAfter : Int := 30 * minute

def persistEvery : Int := 15 * minute

/-- The row of `tsunade_adguard_pause`. -/
structure Row where
  since : Text
  pausedUntil : Option Text
  lastSeen : Text
  deriving DecidableEq

/-- The memory of the tracker and its table, which has one row at most. -/
structure AdguardPauseTracker where
  table : Option Row
  since : Option Int
  pausedUntil : Option Text
  lastSeen : Option Int
  persistedAt : Option Int
  readAt : Option Int
  deriving DecidableEq

/-- `AdGuardPauseTracker.__init__` over the stored row. -/
def init (calendar : Calendar) : Option Row → Option AdguardPauseTracker
  | none => some ⟨none, none, none, none, none, none⟩
  | some row =>
      match calendar.fromisoformat row.since, calendar.fromisoformat row.lastSeen with
      | some since, some lastSeen =>
          some ⟨some row, since, row.pausedUntil, lastSeen, lastSeen, none⟩
      | _, _ => none

namespace AdguardPauseTracker

/-- The protection is on: the pause is over. -/
def resume (tracker : AdguardPauseTracker) : AdguardPauseTracker :=
  match tracker.since with
  | none => tracker
  | some _ => { tracker with table := none, since := none, pausedUntil := none, lastSeen := none }

/-- A pause seen again after a long gap is a new pause. -/
def started (tracker : AdguardPauseTracker) (now : Int) : AdguardPauseTracker :=
  match tracker.since, tracker.lastSeen with
  | some _, some lastSeen =>
      if now - lastSeen > staleAfter then { tracker with since := some now, persistedAt := none }
      else tracker
  | _, _ => { tracker with since := some now, persistedAt := none }

/-- The row is written when there is none of this pause, when its end changed or
when it is old. -/
def due (tracker : AdguardPauseTracker) (pausedUntil : Option Text) (now : Int) : Bool :=
  tracker.persistedAt.all fun persistedAt =>
    pausedUntil ≠ tracker.pausedUntil ∨ persistEvery ≤ now - persistedAt

/-- The protection is paused. -/
def pause (tracker : AdguardPauseTracker) (calendar : Calendar) (pausedUntil : Option Text)
    (now : Int) : AdguardPauseTracker :=
  let tracker := tracker.started now
  let seen := { tracker with pausedUntil, lastSeen := some now }
  if tracker.due pausedUntil now then
    { seen with
      table := some ⟨calendar.parisIso (tracker.since.getD now), pausedUntil, calendar.parisIso now⟩,
      persistedAt := some now }
  else seen

/-- `observe`, which raises an error on an instant that Paris does not show. -/
def observe (tracker : AdguardPauseTracker) (calendar : Calendar) (enabled : Option Bool)
    (pausedUntil : Option Text) (timestamp : Int) : Option AdguardPauseTracker :=
  (calendar.toParis timestamp).map fun now =>
    match enabled with
    | none => tracker
    | some true => { tracker with readAt := some now }.resume
    | some false => { tracker with readAt := some now }.pause calendar pausedUntil now

end AdguardPauseTracker

/-! ## The check -/

/-- The states of a rule. -/
inductive RuleState where
  | ok
  | insufficientData
  | watch
  deriving DecidableEq

/-- What a rule says of a node. -/
structure NodeState where
  nodeId : Text
  state : RuleState
  summary : Text
  deriving DecidableEq

/-- A pause to watch. -/
structure Item where
  rule : Text
  nodeId : Text
  equipmentId : Text
  subject : Text
  title : Text
  detail : Text
  since : Text
  urgent : Bool
  pausedSince : Text
  pausedUntil : Option Text
  deriving DecidableEq

/-- The answer of a rule, without its title and its description. -/
structure Report where
  id : Text
  state : RuleState
  nodes : List NodeState
  items : List Item
  deriving DecidableEq

/-- `RULE["id"]`. -/
def ruleId : Text := "adguard_protection".toList

/-- `_hours`. -/
def hours (duration : Int) : Text :=
  let minutes := duration / minute
  if minutes < 120 then (toString minutes).toList ++ " min".toList
  else (toString (minutes / 60)).toList ++ " h ".toList ++ padded 2 (minutes % 60)

namespace AdguardPauseTracker

/-- The start and the last sighting of the pause, when it was seen lately. -/
def current (tracker : AdguardPauseTracker) (now : Int) : Option Int :=
  match tracker.since, tracker.lastSeen with
  | some since, some lastSeen => if now - lastSeen ≤ staleAfter then some since else none
  | _, _ => none

/-- The report without a pause. -/
def activeReport (tracker : AdguardPauseTracker) : Report where
  id := ruleId
  state := if tracker.readAt.isSome then .ok else .insufficientData
  nodes := [⟨"adguard".toList, .ok, "AdGuard : protection active".toList⟩]
  items := []

/-- The end of the pause, as the report says it. -/
def ends (tracker : AdguardPauseTracker) (calendar : Calendar) : Option Text :=
  match tracker.pausedUntil with
  | none => some "sans fin prévue".toList
  | some [] => some "sans fin prévue".toList
  | some text => (calendar.short (some text)).map fun short => "jusqu'au ".toList ++ short

/-- The item of a pause, once it is long. -/
def pauseItems (tracker : AdguardPauseTracker) (calendar : Calendar) (since now : Int)
    (ends : Text) : Option (List Item) :=
  if pauseWatchAfter ≤ now - since then
    (calendar.short (some (calendar.parisIso since))).map fun started =>
      [{ rule := ruleId
         nodeId := "infra-01".toList
         equipmentId := "infra-01".toList
         subject := "adguard-protection".toList
         title := "AdGuard : protection suspendue depuis ".toList ++ hours (now - since)
         detail := "Le filtrage DNS est suspendu depuis le ".toList ++ started ++
           ", ".toList ++ ends ++
           ". Tant qu'elle dure, aucun appareil du réseau n'est filtré.".toList
         since := calendar.parisIso since
         urgent := false
         pausedSince := calendar.parisIso since
         pausedUntil := tracker.pausedUntil }]
  else some []

/-- The report of a pause. -/
def pauseReport (since now : Int) (ends : Text) (items : List Item) : Report :=
  let state := if items.isEmpty then .ok else .watch
  { id := ruleId
    state
    nodes := [⟨"adguard".toList, state, "AdGuard : protection suspendue depuis ".toList ++
      hours (now - since) ++ ", ".toList ++ ends⟩]
    items }

/-- `check`, which raises an error on an end that is no date. -/
def check (tracker : AdguardPauseTracker) (calendar : Calendar) (current : Int) :
    Option Report :=
  (calendar.toParis current).bind fun now =>
    match tracker.current now with
    | none => some tracker.activeReport
    | some since =>
        (tracker.ends calendar).bind fun ends =>
          (tracker.pauseItems calendar since now ends).map (pauseReport since now ends)

end AdguardPauseTracker

/-! ## Runs -/

/-- One reading of the origin's settings. -/
structure Reading where
  enabled : Bool
  pausedUntil : Option Text
  timestamp : Int
  deriving DecidableEq

/-- An observation of the origin, without the state of the protection when that
could not be read, or a restart of the Agent. -/
inductive Event where
  | observed (enabled : Option Bool) (pausedUntil : Option Text) (timestamp : Int)
  | restarted
  deriving DecidableEq

/-- The reading of an event. -/
def Event.reading : Event → Option Reading
  | .observed (some enabled) pausedUntil timestamp => some ⟨enabled, pausedUntil, timestamp⟩
  | _ => none

/-- The readings of a run, in order. -/
def readings (events : List Event) : List Reading :=
  events.filterMap Event.reading

/-- One event; the monitor drops an observation that raises an error. -/
def step (calendar : Calendar) (tracker : AdguardPauseTracker) :
    Event → Option AdguardPauseTracker
  | .observed enabled pausedUntil timestamp =>
      some ((tracker.observe calendar enabled pausedUntil timestamp).getD tracker)
  | .restarted => init calendar tracker.table

/-- A run from an empty database. -/
def run (calendar : Calendar) (events : List Event) : Option AdguardPauseTracker :=
  (init calendar none).bind fun tracker => events.foldlM (step calendar) tracker

/-- Increasing timestamps, fifteen minutes apart at most. -/
def Close (earlier later : Reading) : Prop :=
  earlier.timestamp < later.timestamp ∧ later.timestamp - earlier.timestamp ≤ 15 * minute

instance (earlier later : Reading) : Decidable (Close earlier later) :=
  inferInstanceAs (Decidable (_ ∧ _))

/-- The timestamp of the first disabled reading since the last enabled one. -/
def pauseStart (readings : List Reading) : Option Int :=
  ((readings.rtakeWhile fun reading => !reading.enabled).head?).map Reading.timestamp

theorem pauseStart_concat (earlier : List Reading) (latest : Reading) :
    pauseStart (earlier ++ [latest]) =
      if latest.enabled then none else some ((pauseStart earlier).getD latest.timestamp) := by
  unfold pauseStart
  cases state : latest.enabled with
  | true => simp [state]
  | false =>
      rw [List.rtakeWhile_concat_pos _ _ _ (by simp [state]), List.head?_append]
      cases (earlier.rtakeWhile fun reading => !reading.enabled).head? <;> simp

/-! ## What the tracker keeps -/

/-- An instant that Paris shows and whose text is read back. -/
structure Kept (calendar : Calendar) (instant : Int) : Prop where
  shown : calendar.Shown instant
  read : calendar.fromisoformat (calendar.parisIso instant) = some instant

/-- The text of such an instant is legible. -/
theorem Kept.legible {calendar : Calendar} {instant : Int} (kept : Kept calendar instant) :
    calendar.Legible (some (calendar.parisIso instant)) := by
  intro text same _
  have equal : calendar.parisIso instant = text := Option.some.inj same
  use instant
  rw [← equal]
  exact ⟨kept.read, kept.shown⟩

/-- No pause, in memory or in the table. -/
structure Idle (tracker : AdguardPauseTracker) : Prop where
  since : tracker.since = none
  table : tracker.table = none

/-- A pause since `start` whose latest reading is `latest`, written at
`persistedAt` and last seen, as far as the memory knows, at `lastSeen`. -/
structure Paused (calendar : Calendar) (start : Int) (latest : Reading)
    (persistedAt lastSeen : Int) (tracker : AdguardPauseTracker) : Prop where
  since : tracker.since = some start
  ends : tracker.pausedUntil = latest.pausedUntil
  seen : tracker.lastSeen = some lastSeen
  persisted : tracker.persistedAt = some persistedAt
  table : tracker.table =
    some ⟨calendar.parisIso start, latest.pausedUntil, calendar.parisIso persistedAt⟩
  ordered : persistedAt ≤ lastSeen ∧ lastSeen ≤ latest.timestamp
  recent : latest.timestamp - persistedAt < persistEvery
  keptStart : Kept calendar start
  keptPersisted : Kept calendar persistedAt

/-- The tracker after some readings. -/
inductive Follows (calendar : Calendar) (readings : List Reading)
    (tracker : AdguardPauseTracker) : Prop where
  | idle (enabled : ∀ latest, readings.getLast? = some latest → latest.enabled = true)
      (idle : Idle tracker)
  | paused (start : Int) (latest : Reading) (persistedAt lastSeen : Int)
      (last : readings.getLast? = some latest) (disabled : latest.enabled = false)
      (begins : pauseStart readings = some start)
      (paused : Paused calendar start latest persistedAt lastSeen tracker)

variable {calendar : Calendar} {tracker : AdguardPauseTracker} {start persistedAt lastSeen : Int}
  {earlier latest : Reading} {events : List Event}

namespace Follows

/-- A start is kept exactly during a pause. -/
theorem since_eq (follows : Follows calendar (readings events) tracker)
    (last : (readings events).getLast? = some latest) :
    tracker.since = pauseStart (readings events) := by
  rcases List.getLast?_eq_some_iff.mp last with ⟨before, split⟩
  cases follows with
  | idle enabled idle =>
      rw [idle.since, split, pauseStart_concat, if_pos (enabled latest last)]
  | paused start latest persistedAt lastSeen last disabled begins paused =>
      rw [paused.since, begins]

end Follows

theorem pauseStart_of_enabled {before : List Reading} (last : before.getLast? = some latest)
    (enabled : latest.enabled = true) : pauseStart before = none := by
  rcases List.getLast?_eq_some_iff.mp last with ⟨rest, rfl⟩
  rw [pauseStart_concat, if_pos enabled]

/-! ## One event -/

/-- An enabled reading forgets the pause. -/
theorem Idle.resume (idle : Idle tracker) : Idle tracker.resume := by
  unfold AdguardPauseTracker.resume
  rw [idle.since]
  exact idle

theorem idle_resume_of_since (paused : tracker.since = some start) : Idle tracker.resume := by
  unfold AdguardPauseTracker.resume
  rw [paused]
  constructor <;> rfl

/-- A disabled reading without a pause starts one and writes it. -/
theorem Idle.pause (idle : Idle tracker) (kept : Kept calendar latest.timestamp) :
    Paused calendar latest.timestamp latest latest.timestamp latest.timestamp
      (tracker.pause calendar latest.pausedUntil latest.timestamp) := by
  have begins : tracker.started latest.timestamp =
      { tracker with since := some latest.timestamp, persistedAt := none } := by
    unfold AdguardPauseTracker.started
    rw [idle.since]
  unfold AdguardPauseTracker.pause
  rw [begins]
  constructor
  · rfl
  · rfl
  · rfl
  · rfl
  · rfl
  · exact ⟨Int.le_refl _, Int.le_refl _⟩
  · rw [Int.sub_self]
    decide
  · exact kept
  · exact kept

/-- A pause seen within fifteen minutes of its last reading is not stale, even when
the memory has only the sighting that the row kept. -/
theorem Paused.started (paused : Paused calendar start earlier persistedAt lastSeen tracker)
    (close : Close earlier latest) : tracker.started latest.timestamp = tracker := by
  have fresh : ¬ latest.timestamp - lastSeen > staleAfter := by
    have recent := paused.recent
    have ordered := paused.ordered
    have near := close.2
    unfold persistEvery at recent
    unfold staleAfter
    unfold minute second at *
    omega
  unfold AdguardPauseTracker.started
  rw [paused.since, paused.seen]
  simp only [if_neg fresh]

/-- A disabled reading during a pause keeps its start. -/
theorem Paused.pause (paused : Paused calendar start earlier persistedAt lastSeen tracker)
    (close : Close earlier latest) (kept : Kept calendar latest.timestamp) :
    ∃ writtenAt, Paused calendar start latest writtenAt latest.timestamp
      (tracker.pause calendar latest.pausedUntil latest.timestamp) := by
  unfold AdguardPauseTracker.pause
  rw [paused.started close]
  by_cases due : tracker.due latest.pausedUntil latest.timestamp
  · simp only [if_pos due]
    use latest.timestamp
    constructor
    · exact paused.since
    · rfl
    · rfl
    · rfl
    · rw [paused.since, Option.getD_some]
    · exact ⟨Int.le_refl _, Int.le_refl _⟩
    · rw [Int.sub_self]
      decide
    · exact paused.keptStart
    · exact kept
  · simp only [if_neg due]
    have still : latest.pausedUntil = earlier.pausedUntil ∧
        latest.timestamp - persistedAt < persistEvery := by
      simpa [AdguardPauseTracker.due, paused.persisted, paused.ends] using due
    use persistedAt
    constructor
    · exact paused.since
    · rfl
    · rfl
    · exact paused.persisted
    · rw [still.1]
      exact paused.table
    · exact ⟨Int.le_trans (Int.le_trans paused.ordered.1 paused.ordered.2) (Int.le_of_lt close.1),
        Int.le_refl _⟩
    · exact still.2
    · exact paused.keptStart
    · exact paused.keptPersisted

/-- A restart reads the pause back from the row. -/
theorem Paused.init (paused : Paused calendar start latest persistedAt lastSeen tracker) :
    ∃ reopened, init calendar tracker.table = some reopened ∧
      Paused calendar start latest persistedAt persistedAt reopened := by
  rw [paused.table]
  unfold AdguardPause.init
  simp only [paused.keptStart.read, paused.keptPersisted.read]
  refine ⟨_, rfl, ?_⟩
  constructor
  · rfl
  · rfl
  · rfl
  · rfl
  · rfl
  · exact ⟨Int.le_refl _, Int.le_trans paused.ordered.1 paused.ordered.2⟩
  · exact paused.recent
  · exact paused.keptStart
  · exact paused.keptPersisted

theorem init_of_idle (calendar : Calendar) (idle : Idle tracker) :
    ∃ reopened, init calendar tracker.table = some reopened ∧ Idle reopened := by
  rw [idle.table]
  exact ⟨_, rfl, rfl, rfl⟩

/-- A reading that follows the others closely. -/
theorem Follows.observe {before : List Reading} (follows : Follows calendar before tracker)
    (kept : Kept calendar latest.timestamp)
    (close : ∀ earlier, before.getLast? = some earlier → Close earlier latest) :
    ∃ next, tracker.observe calendar latest.enabled latest.pausedUntil latest.timestamp =
        some next ∧ Follows calendar (before ++ [latest]) next := by
  have last : (before ++ [latest]).getLast? = some latest := List.getLast?_concat
  unfold AdguardPauseTracker.observe
  rw [Calendar.toParis_of_shown kept.shown, Option.map_some]
  refine ⟨_, rfl, ?_⟩
  cases state : latest.enabled with
  | true =>
      apply Follows.idle
      · intro reading same
        rw [last] at same
        rw [← Option.some.inj same, state]
      · cases follows with
        | idle enabled idle => exact Idle.resume ⟨idle.since, idle.table⟩
        | paused start earlier persistedAt lastSeen _ disabled begins paused =>
            exact idle_resume_of_since paused.since
  | false =>
      have begins : pauseStart (before ++ [latest]) =
          some ((pauseStart before).getD latest.timestamp) := by
        rw [pauseStart_concat, if_neg (by simp [state])]
      cases follows with
      | idle enabled idle =>
          apply Follows.paused latest.timestamp latest latest.timestamp latest.timestamp last state
          · cases lastBefore : before.getLast? with
            | none =>
                rw [begins, List.getLast?_eq_none_iff.mp lastBefore]
                rfl
            | some earlier =>
                rw [begins, pauseStart_of_enabled lastBefore (enabled earlier lastBefore),
                  Option.getD_none]
          · have reread : Idle { tracker with readAt := some latest.timestamp } :=
              ⟨idle.since, idle.table⟩
            exact reread.pause kept
      | paused start earlier persistedAt lastSeen lastBefore disabled started paused =>
          have reread : Paused calendar start earlier persistedAt lastSeen
              { tracker with readAt := some latest.timestamp } := by
            constructor
            · exact paused.since
            · exact paused.ends
            · exact paused.seen
            · exact paused.persisted
            · exact paused.table
            · exact paused.ordered
            · exact paused.recent
            · exact paused.keptStart
            · exact paused.keptPersisted
          rcases reread.pause (close earlier lastBefore) kept with ⟨writtenAt, longer⟩
          apply Follows.paused start latest writtenAt latest.timestamp last state _ longer
          rw [begins, started, Option.getD_some]

theorem Follows.restart {before : List Reading} (follows : Follows calendar before tracker) :
    ∃ reopened, init calendar tracker.table = some reopened ∧ Follows calendar before reopened := by
  cases follows with
  | idle enabled idle =>
      rcases init_of_idle calendar idle with ⟨reopened, opens, still⟩
      exact ⟨reopened, opens, .idle enabled still⟩
  | paused start latest persistedAt lastSeen last disabled begins paused =>
      rcases paused.init with ⟨reopened, opens, still⟩
      exact ⟨reopened, opens, .paused start latest persistedAt persistedAt last disabled begins still⟩

/-- An observation without the state of the protection changes nothing. -/
theorem observe_unread (pausedUntil : Option Text) (timestamp : Int) :
    (tracker.observe calendar none pausedUntil timestamp).getD tracker = tracker := by
  unfold AdguardPauseTracker.observe
  cases calendar.toParis timestamp <;> rfl

theorem readings_concat (events : List Event) (event : Event) :
    readings (events ++ [event]) = readings events ++ event.reading.toList := by
  unfold readings
  rw [List.filterMap_append]
  cases read : event.reading with
  | none => simp [read]
  | some reading => simp [read]

/-- Each event keeps what the tracker knows. -/
theorem Follows.step {event : Event} (follows : Follows calendar (readings events) tracker)
    (close : (readings (events ++ [event])).IsChain Close)
    (kept : ∀ reading ∈ readings (events ++ [event]), Kept calendar reading.timestamp) :
    ∃ next, step calendar tracker event = some next ∧
      Follows calendar (readings (events ++ [event])) next := by
  rw [readings_concat] at *
  match event with
  | .restarted =>
      rw [show Event.restarted.reading.toList = [] from rfl, List.append_nil]
      exact follows.restart
  | .observed none pausedUntil timestamp =>
      rw [show (Event.observed none pausedUntil timestamp).reading.toList = [] from rfl,
        List.append_nil]
      refine ⟨tracker, ?_, follows⟩
      rw [AdguardPause.step, observe_unread]
  | .observed (some enabled) pausedUntil timestamp =>
      have near := (List.isChain_append.mp close).2.2
      have keptLatest : Kept calendar (Reading.timestamp ⟨enabled, pausedUntil, timestamp⟩) :=
        kept _ (List.mem_append_right _ List.mem_cons_self)
      rcases follows.observe keptLatest (fun earlier last => near earlier last _ rfl) with
        ⟨next, observed, still⟩
      refine ⟨next, ?_, still⟩
      rw [AdguardPause.step, observed, Option.getD_some]

theorem run_concat (events : List Event) (event : Event) :
    run calendar (events ++ [event]) = (run calendar events).bind (step calendar · event) := by
  unfold run
  rw [Option.bind_assoc]
  congr 1
  funext tracker
  rw [List.foldlM_append]
  simp [Option.bind_eq_bind]

/-- Over a whole run, restarts included. -/
theorem follows_run (close : (readings events).IsChain Close)
    (kept : ∀ reading ∈ readings events, Kept calendar reading.timestamp) :
    ∃ tracker, run calendar events = some tracker ∧
      Follows calendar (readings events) tracker := by
  induction events using List.reverseRecOn with
  | nil =>
      refine ⟨_, rfl, .idle ?_ ⟨rfl, rfl⟩⟩
      intro latest last
      cases last
  | append_singleton events event inductionHypothesis =>
      have closeBefore := close
      rw [readings_concat] at closeBefore
      rcases inductionHypothesis (List.isChain_append.mp closeBefore).1 (by
        intro reading inside
        apply kept
        rw [readings_concat]
        exact List.mem_append_left _ inside) with ⟨tracker, reaches, follows⟩
      rcases follows.step close kept with ⟨next, stepped, still⟩
      refine ⟨next, ?_, still⟩
      rw [run_concat, reaches, Option.bind_some, stepped]

/-! ## The report of a pause -/

/-- The check answers, and with an item exactly when this holds. -/
def Reports (calendar : Calendar) (tracker : AdguardPauseTracker) (current : Int)
    (expected : Prop) : Prop :=
  ∃ report, tracker.check calendar current = some report ∧ (report.items ≠ [] ↔ expected)

theorem ends_isSome_iff :
    (tracker.ends calendar).isSome ↔ calendar.Legible tracker.pausedUntil := by
  rw [← Calendar.short_isSome_iff]
  unfold AdguardPauseTracker.ends
  rcases tracker.pausedUntil with _ | _ | ⟨c, rest⟩
  · simp [Calendar.short]
  · simp [Calendar.short]
  · simp

theorem check_of_idle {current : Int} (idle : Idle tracker) (shown : calendar.Shown current) :
    tracker.check calendar current = some tracker.activeReport := by
  unfold AdguardPauseTracker.check AdguardPauseTracker.current
  rw [Calendar.toParis_of_shown shown, Option.bind_some, idle.since]

/-- Within fifteen minutes of its last reading, a pause is reported once it is
long, provided that its end is legible. -/
theorem Paused.reports_iff {current : Int}
    (paused : Paused calendar start latest persistedAt lastSeen tracker)
    (shown : calendar.Shown current) (soon : current - latest.timestamp ≤ 15 * minute) :
    Reports calendar tracker current (pauseWatchAfter ≤ current - start) ↔
      calendar.Legible latest.pausedUntil := by
  have fresh : current - lastSeen ≤ staleAfter := by
    have recent := paused.recent
    have ordered := paused.ordered
    unfold persistEvery at recent
    unfold staleAfter
    unfold minute second at *
    omega
  have checked : tracker.check calendar current =
      (tracker.ends calendar).bind fun ends =>
        (tracker.pauseItems calendar start current ends).map
          (AdguardPauseTracker.pauseReport start current ends) := by
    unfold AdguardPauseTracker.check AdguardPauseTracker.current
    rw [Calendar.toParis_of_shown shown, Option.bind_some, paused.since, paused.seen]
    simp only [if_pos fresh]
  unfold Reports
  rw [checked, ← paused.ends, ← ends_isSome_iff]
  cases ended : tracker.ends calendar with
  | none => simp
  | some ends =>
      simp only [Option.bind_some, Option.isSome_some, iff_true]
      rcases Option.isSome_iff_exists.mp (Calendar.short_isSome_iff.mpr paused.keptStart.legible)
        with ⟨started, startText⟩
      unfold AdguardPauseTracker.pauseItems
      by_cases long : pauseWatchAfter ≤ current - start
      · rw [if_pos long, startText]
        refine ⟨_, rfl, ?_⟩
        simp [AdguardPauseTracker.pauseReport, long]
      · rw [if_neg long]
        refine ⟨_, rfl, ?_⟩
        simp [AdguardPauseTracker.pauseReport, long]

/-! ## The pause across restarts -/

/-- In every run of readings fifteen minutes apart at most, restarts included, the
start is the first disabled reading since the last enabled one, an enabled reading
leaves none, and the check reports a pause of two hours, unless its end is a text
that is no date of Paris. -/
theorem pause_survives_restarts (events : List Event)
    (close : (readings events).IsChain Close)
    (kept : ∀ reading ∈ readings events, Kept calendar reading.timestamp) :
    ∃ tracker, run calendar events = some tracker ∧
      ∀ latest, (readings events).getLast? = some latest →
        tracker.since = pauseStart (readings events) ∧
        (latest.enabled = false → ∃ start, tracker.since = some start) ∧
        (latest.enabled = true → tracker.since = none ∧ tracker.table = none) ∧
        ∀ current, calendar.Shown current → latest.timestamp ≤ current →
          current - latest.timestamp ≤ 15 * minute →
          (Reports calendar tracker current (latest.enabled = false ∧
              ∃ start, pauseStart (readings events) = some start ∧ 2 * hour ≤ current - start) ↔
            (latest.enabled = false → calendar.Legible latest.pausedUntil)) := by
  rcases follows_run close kept with ⟨tracker, reaches, follows⟩
  refine ⟨tracker, reaches, ?_⟩
  intro latest last
  have since := follows.since_eq last
  cases follows with
  | idle enabled idle =>
      have on := enabled latest last
      refine ⟨since, ?_, fun _ => ⟨idle.since, idle.table⟩, ?_⟩
      · intro disabled
        rw [on] at disabled
        cases disabled
      · intro current shown _ _
        constructor
        · intro _ disabled
          rw [on] at disabled
          cases disabled
        · intro _
          refine ⟨_, check_of_idle idle shown, ?_⟩
          simp [AdguardPauseTracker.activeReport, on]
  | paused start earlier persistedAt lastSeen lastReading disabled begins paused =>
      rw [last] at lastReading
      cases lastReading
      refine ⟨since, fun _ => ⟨start, paused.since⟩, ?_, ?_⟩
      · intro on
        rw [on] at disabled
        cases disabled
      · intro current shown _ soon
        have reports := paused.reports_iff shown soon
        have expected : (latest.enabled = false ∧ ∃ start,
            pauseStart (readings events) = some start ∧ 2 * hour ≤ current - start) ↔
            pauseWatchAfter ≤ current - start := by
          simp [disabled, begins, pauseWatchAfter]
        rw [expected, reports]
        simp [disabled]

/-! ## An end that Paris does not show -/

/-- Winter time, and a reader of these texts. -/
def winterCalendar (texts : List (Text × Int)) : Calendar where
  paris := ⟨fun _ => hour⟩
  fromisoformat := fun text => texts.lookup text

/-- 2026-11-02T08:00:00Z. -/
def morning : Int := 1793606400 * second

/-- Ten disabled readings, a quarter of an hour apart. -/
def quarters (pausedUntil : Option Text) : List Event :=
  (List.range 10).map fun n => .observed (some false) pausedUntil (morning + n * (15 * minute))

/-- The readings, with a restart after the sixth. -/
def restartedQuarters (pausedUntil : Option Text) : List Event :=
  (quarters pausedUntil).take 6 ++ .restarted :: (quarters pausedUntil).drop 6

/-- The texts of these timestamps. -/
def quarterTexts : List (Text × Int) :=
  (List.range 10).map fun n =>
    (isoText hour (morning + n * (15 * minute)), morning + n * (15 * minute))

/-- `9999-12-31T23:59:59Z`, the last second of the calendar, in UTC. -/
def lastSecond : Text := "9999-12-31T23:59:59Z".toList

def lastSecondCalendar : Calendar :=
  winterCalendar ((lastSecond, datetimeEnd - second) :: quarterTexts)

/-- A pause of two hours and a quarter with a restart is reported. -/
theorem pause_survives_restart :
    ∃ tracker, run lastSecondCalendar (restartedQuarters none) = some tracker ∧
      Reports lastSecondCalendar tracker (morning + 135 * minute) True := by
  rcases @pause_survives_restarts lastSecondCalendar (restartedQuarters none)
    (by decide +kernel) (by
      have kept : ∀ reading ∈ readings (restartedQuarters none),
          lastSecondCalendar.Shown reading.timestamp ∧
          lastSecondCalendar.fromisoformat (lastSecondCalendar.parisIso reading.timestamp) =
            some reading.timestamp := by decide +kernel
      exact fun reading inside => ⟨(kept reading inside).1, (kept reading inside).2⟩) with
    ⟨tracker, reaches, follows⟩
  refine ⟨tracker, reaches, ?_⟩
  have latest := follows ⟨false, none, morning + 135 * minute⟩ (by decide +kernel)
  rcases (latest.2.2.2 (morning + 135 * minute) (by decide +kernel) (by decide) (by decide)).mpr
    (fun _ text same => by cases same) with ⟨report, checked, items⟩
  have start : pauseStart (readings (restartedQuarters none)) = some morning := by
    decide +kernel
  refine ⟨report, checked, items.trans ?_⟩
  simp only [start, Option.some.injEq, exists_eq_left', true_and, iff_true]
  decide

/-- A pause of more than two hours is not reported, and the check raises an error:
its end is a date that Paris shows in the year 10000. -/
theorem pause_not_reported :
    (readings (quarters (some lastSecond))).IsChain Close ∧
    pauseStart (readings (quarters (some lastSecond))) = some morning ∧
    (readings (quarters (some lastSecond))).getLast? =
      some ⟨false, some lastSecond, morning + 135 * minute⟩ ∧
    (run lastSecondCalendar (quarters (some lastSecond))).map
      (fun tracker => (tracker.since, tracker.check lastSecondCalendar (morning + 135 * minute))) =
      some (some morning, none) := by
  decide +kernel

end OhanaAgent.Tsunade.AdguardPause
