import OhanaAgent.Encoding.Json
import OhanaAgent.Store.Accounts
import Mathlib.Data.List.Nodup

/-!
# The durable outbox

The SQLite table of the observations that wait for Vision.  A row is inserted
once for an observation identity, keeps the sequence number it was given, and
leaves the table when its identity is marked delivered or when newer rows fill
the table up to its limit.
-/

namespace OhanaAgent.Exporters

open OhanaAgent.Encoding.Json OhanaAgent.Store

universe u

/-- What the outbox uses of a payload: its identity, stripped, and its JSON
text with the value that the text is read back to. -/
structure Wire (α : Type u) where
  observationId : α → Text
  dumps : α → Text
  loads : Text → α

/-- The two columns that a payload determines. -/
structure Parcel where
  observationId : Text
  payloadJson : Text
  deriving DecidableEq, Repr

namespace Wire

variable {α : Type u}

/-- The columns written for a payload. -/
def parcel (wire : Wire α) (payload : α) : Parcel :=
  ⟨wire.observationId payload, wire.dumps payload⟩

@[simp]
theorem observationId_parcel (wire : Wire α) (payload : α) :
    (wire.parcel payload).observationId = wire.observationId payload := rfl

end Wire

/-- A row of `observation_outbox`. -/
structure OutboxRow where
  sequence : Nat
  observationId : Text
  payloadJson : Text
  attempts : Nat
  lastError : Option Text
  deriving DecidableEq, Repr

/-- The columns of a row that its payload determined. -/
def OutboxRow.parcel (row : OutboxRow) : Parcel :=
  ⟨row.observationId, row.payloadJson⟩

@[simp]
theorem OutboxRow.observationId_parcel (row : OutboxRow) :
    row.parcel.observationId = row.observationId := rfl

/-- One more failed attempt in the row of an observation. -/
def OutboxRow.markFailed (observationId error : Text) (row : OutboxRow) : OutboxRow :=
  if row.observationId = observationId then
    { row with attempts := row.attempts + 1, lastError := some error }
  else row

@[simp]
theorem OutboxRow.sequence_markFailed (observationId error : Text) (row : OutboxRow) :
    (row.markFailed observationId error).sequence = row.sequence := by
  unfold markFailed
  split <;> rfl

@[simp]
theorem OutboxRow.parcel_markFailed (observationId error : Text) (row : OutboxRow) :
    (row.markFailed observationId error).parcel = row.parcel := by
  unfold markFailed
  split <;> rfl

@[simp]
theorem OutboxRow.observationId_markFailed (observationId error : Text) (row : OutboxRow) :
    (row.markFailed observationId error).observationId = row.observationId :=
  congrArg Parcel.observationId (row.parcel_markFailed observationId error)

/-- One observation waiting to be delivered. -/
structure VisionObservationOutboxEntry (α : Type u) where
  observationId : Text
  payload : α
  attempts : Nat

/-- The configuration of the outbox; the constructor refuses a limit of zero. -/
structure Settings where
  maxEntries : Nat
  positive : 0 < maxEntries

/-- The table in sequence order, with the next automatic sequence number. -/
structure VisionObservationOutbox where
  rows : List OutboxRow
  nextSequence : Nat
  ascending : rows.Pairwise fun older newer => older.sequence < newer.sequence
  allocated : ∀ row ∈ rows, row.sequence < nextSequence
  unique : (rows.map OutboxRow.observationId).Nodup

namespace VisionObservationOutbox

variable {α : Type u}

/-- The table that `_initialize_database` creates. -/
def empty : VisionObservationOutbox where
  rows := []
  nextSequence := 1
  ascending := List.Pairwise.nil
  allocated := by simp
  unique := List.nodup_nil

/-- An observation identity is in the table. -/
def holds (outbox : VisionObservationOutbox) (observationId : Text) : Bool :=
  (outbox.rows.map OutboxRow.observationId).contains observationId

theorem holds_eq_true_iff {outbox : VisionObservationOutbox} {observationId : Text} :
    outbox.holds observationId = true ↔
      ∃ row ∈ outbox.rows, row.observationId = observationId := by
  simp [holds]

/-- The row that is inserted for a parcel. -/
def fresh (outbox : VisionObservationOutbox) (parcel : Parcel) : OutboxRow where
  sequence := outbox.nextSequence
  observationId := parcel.observationId
  payloadJson := parcel.payloadJson
  attempts := 0
  lastError := none

@[simp]
theorem parcel_fresh (outbox : VisionObservationOutbox) (parcel : Parcel) :
    (outbox.fresh parcel).parcel = parcel := rfl

/-- `INSERT OR IGNORE` of one parcel. -/
def insertOrIgnore (outbox : VisionObservationOutbox) (parcel : Parcel) :
    VisionObservationOutbox :=
  if held : outbox.holds parcel.observationId = true then outbox
  else
    { rows := outbox.rows ++ [outbox.fresh parcel]
      nextSequence := outbox.nextSequence + 1
      ascending := by
        rw [List.pairwise_append]
        refine ⟨outbox.ascending, List.pairwise_singleton _ _, ?_⟩
        intro older olderMem newer newerMem
        rw [List.mem_singleton.mp newerMem]
        exact outbox.allocated older olderMem
      allocated := by
        intro row member
        rcases List.mem_append.mp member with member | member
        · exact Nat.lt_succ_of_lt (outbox.allocated row member)
        · rw [List.mem_singleton.mp member]
          exact Nat.lt_succ_self _
      unique := by
        rw [List.map_append, List.nodup_append]
        refine ⟨outbox.unique, List.nodup_singleton _, ?_⟩
        rintro identity identityMem other otherMem rfl
        apply held
        rw [List.map_singleton, List.mem_singleton] at otherMem
        rw [holds, List.contains_iff_mem, ← show identity = parcel.observationId from otherMem]
        exact identityMem }

theorem insertOrIgnore_of_holds {outbox : VisionObservationOutbox} {parcel : Parcel}
    (held : outbox.holds parcel.observationId = true) : outbox.insertOrIgnore parcel = outbox :=
  dif_pos held

theorem rows_insertOrIgnore {outbox : VisionObservationOutbox} {parcel : Parcel}
    (absent : ¬ outbox.holds parcel.observationId = true) :
    (outbox.insertOrIgnore parcel).rows = outbox.rows ++ [outbox.fresh parcel] := by
  rw [insertOrIgnore, dif_neg absent]

theorem nextSequence_insertOrIgnore {outbox : VisionObservationOutbox} {parcel : Parcel}
    (absent : ¬ outbox.holds parcel.observationId = true) :
    (outbox.insertOrIgnore parcel).nextSequence = outbox.nextSequence + 1 := by
  rw [insertOrIgnore, dif_neg absent]

/-- `executemany` of the insertions, in order. -/
def insertMany (outbox : VisionObservationOutbox) (parcels : List Parcel) :
    VisionObservationOutbox :=
  parcels.foldl insertOrIgnore outbox

/-- The rows that the condition keeps. -/
def keep (outbox : VisionObservationOutbox) (condition : OutboxRow → Bool) :
    VisionObservationOutbox where
  rows := outbox.rows.filter condition
  nextSequence := outbox.nextSequence
  ascending := outbox.ascending.filter _
  allocated := fun row member => outbox.allocated row (List.mem_of_mem_filter member)
  unique := outbox.unique.sublist (List.filter_sublist.map _)

/-- The sequence of the row with `maxEntries - 1` newer ones, zero without one. -/
def cutoff (outbox : VisionObservationOutbox) (settings : Settings) : Nat :=
  ((outbox.rows.map OutboxRow.sequence).reverse[settings.maxEntries - 1]?).getD 0

/-- Delete the rows older than the cutoff. -/
def trim (outbox : VisionObservationOutbox) (settings : Settings) : VisionObservationOutbox :=
  outbox.keep fun row => decide (outbox.cutoff settings ≤ row.sequence)

/-- The rows that `trim` deletes. -/
def overflow (outbox : VisionObservationOutbox) (settings : Settings) : List OutboxRow :=
  outbox.rows.filter fun row => !decide (outbox.cutoff settings ≤ row.sequence)

/-- Persist payloads in one transaction, each once by observation identity; a
payload without identity is refused before anything is written. -/
def enqueueMany (outbox : VisionObservationOutbox) (settings : Settings) (wire : Wire α)
    (payloads : List α) : Except String VisionObservationOutbox :=
  if payloads.any fun payload => (wire.observationId payload).isEmpty then
    .error "Vision observation payload must contain observation_id."
  else if payloads.isEmpty then .ok outbox
  else .ok ((outbox.insertMany (payloads.map wire.parcel)).trim settings)

/-- Return the oldest pending payload. -/
def oldest (outbox : VisionObservationOutbox) (wire : Wire α) :
    Option (VisionObservationOutboxEntry α) :=
  outbox.rows.head?.map fun row => ⟨row.observationId, wire.loads row.payloadJson, row.attempts⟩

/-- Remove one successfully delivered observation. -/
def markDelivered (outbox : VisionObservationOutbox) (observationId : Text) :
    VisionObservationOutbox :=
  outbox.keep fun row => !decide (row.observationId = observationId)

/-- Record one failed delivery attempt without dropping its payload. -/
def markFailed (outbox : VisionObservationOutbox) (observationId error : Text) :
    VisionObservationOutbox where
  rows := outbox.rows.map (OutboxRow.markFailed observationId error)
  nextSequence := outbox.nextSequence
  ascending := by
    rw [List.pairwise_map]
    simpa only [OutboxRow.sequence_markFailed] using outbox.ascending
  allocated := by
    intro row member
    obtain ⟨source, sourceMem, rfl⟩ := List.mem_map.mp member
    rw [OutboxRow.sequence_markFailed]
    exact outbox.allocated source sourceMem
  unique := by
    have same : (outbox.rows.map (OutboxRow.markFailed observationId error)).map
        OutboxRow.observationId = outbox.rows.map OutboxRow.observationId := by
      rw [List.map_map]
      apply List.map_congr_left
      intro row _
      exact row.observationId_markFailed observationId error
    rw [same]
    exact outbox.unique

/-! ## What the operations do to the rows -/

@[simp]
theorem rows_empty : empty.rows = [] := rfl

@[simp]
theorem rows_keep (outbox : VisionObservationOutbox) (condition : OutboxRow → Bool) :
    (outbox.keep condition).rows = outbox.rows.filter condition := rfl

/-- The parcels that the insertions ignore. -/
def ignored (outbox : VisionObservationOutbox) : List Parcel → List Parcel
  | [] => []
  | parcel :: parcels =>
      if outbox.holds parcel.observationId then parcel :: outbox.ignored parcels
      else (outbox.insertOrIgnore parcel).ignored parcels

/-- The rows that the insertions add. -/
def added (outbox : VisionObservationOutbox) : List Parcel → List OutboxRow
  | [] => []
  | parcel :: parcels =>
      if outbox.holds parcel.observationId then outbox.added parcels
      else outbox.fresh parcel :: (outbox.insertOrIgnore parcel).added parcels

/-- Insertions append the rows they add. -/
theorem rows_insertMany (outbox : VisionObservationOutbox) (parcels : List Parcel) :
    (outbox.insertMany parcels).rows = outbox.rows ++ outbox.added parcels := by
  induction parcels generalizing outbox with
  | nil => simp [insertMany, added]
  | cons parcel parcels ih =>
      have rest : (outbox.insertMany (parcel :: parcels)).rows =
          (outbox.insertOrIgnore parcel).rows ++ (outbox.insertOrIgnore parcel).added parcels :=
        ih (outbox.insertOrIgnore parcel)
      by_cases held : outbox.holds parcel.observationId = true
      · rw [insertOrIgnore_of_holds held] at rest
        rw [rest, added, if_pos held]
      · rw [rest, added, if_neg held, rows_insertOrIgnore held, List.append_assoc,
          List.singleton_append]

/-- The added rows are in the order of the batch. -/
theorem added_sublist (outbox : VisionObservationOutbox) (parcels : List Parcel) :
    ((outbox.added parcels).map OutboxRow.parcel).Sublist parcels := by
  induction parcels generalizing outbox with
  | nil => exact List.nil_sublist _
  | cons parcel parcels ih =>
      by_cases held : outbox.holds parcel.observationId = true
      · rw [added, if_pos held]
        exact (ih outbox).cons _
      · rw [added, if_neg held, List.map_cons, parcel_fresh]
        exact (ih _).cons_cons _

/-- A batch is added or ignored. -/
theorem added_ignored_perm (outbox : VisionObservationOutbox) (parcels : List Parcel) :
    ((outbox.added parcels).map OutboxRow.parcel ++ outbox.ignored parcels).Perm parcels := by
  induction parcels generalizing outbox with
  | nil => exact List.Perm.refl _
  | cons parcel parcels ih =>
      by_cases held : outbox.holds parcel.observationId = true
      · rw [added, ignored, if_pos held, if_pos held]
        exact List.perm_middle.trans ((ih outbox).cons parcel)
      · rw [added, ignored, if_neg held, if_neg held, List.map_cons, parcel_fresh,
          List.cons_append]
        exact (ih _).cons parcel

/-- An ignored parcel has the identity of a row. -/
theorem holds_of_mem_ignored {outbox : VisionObservationOutbox} {parcels : List Parcel}
    {parcel : Parcel} (member : parcel ∈ outbox.ignored parcels) :
    ∃ row ∈ outbox.rows ++ outbox.added parcels, row.observationId = parcel.observationId := by
  induction parcels generalizing outbox with
  | nil => simp [ignored] at member
  | cons first parcels ih =>
      by_cases held : outbox.holds first.observationId = true
      · rw [ignored, if_pos held, List.mem_cons] at member
        rw [added, if_pos held]
        rcases member with rfl | member
        · obtain ⟨row, rowMem, same⟩ := holds_eq_true_iff.mp held
          exact ⟨row, List.mem_append_left _ rowMem, same⟩
        · exact ih member
      · rw [ignored, if_neg held] at member
        obtain ⟨row, rowMem, same⟩ := ih member
        rw [rows_insertOrIgnore held, List.append_assoc, List.singleton_append] at rowMem
        rw [added, if_neg held]
        exact ⟨row, rowMem, same⟩

/-- Added rows take sequences that were never given. -/
theorem le_sequence_of_mem_added {outbox : VisionObservationOutbox} {parcels : List Parcel}
    {row : OutboxRow} (member : row ∈ outbox.added parcels) :
    outbox.nextSequence ≤ row.sequence := by
  induction parcels generalizing outbox with
  | nil => simp [added] at member
  | cons first parcels ih =>
      by_cases held : outbox.holds first.observationId = true
      · rw [added, if_pos held] at member
        exact ih member
      · rw [added, if_neg held, List.mem_cons] at member
        rcases member with rfl | member
        · exact Nat.le_refl _
        · have later := ih member
          rw [nextSequence_insertOrIgnore held] at later
          omega

theorem le_nextSequence_insertMany (outbox : VisionObservationOutbox) (parcels : List Parcel) :
    outbox.nextSequence ≤ (outbox.insertMany parcels).nextSequence := by
  induction parcels generalizing outbox with
  | nil => exact Nat.le_refl _
  | cons parcel parcels ih =>
      refine Nat.le_trans ?_ (ih (outbox.insertOrIgnore parcel))
      by_cases held : outbox.holds parcel.observationId = true
      · exact Nat.le_of_eq (by rw [insertOrIgnore_of_holds held])
      · rw [nextSequence_insertOrIgnore held]
        exact Nat.le_succ _

/-- The table keeps its newest rows, up to its limit. -/
theorem rows_trim (outbox : VisionObservationOutbox) (settings : Settings) :
    (outbox.trim settings).rows =
      outbox.rows.drop (outbox.rows.length - settings.maxEntries) := by
  have positive := settings.positive
  rw [trim, rows_keep, cutoff, ← List.map_reverse, List.getElem?_map]
  by_cases full : settings.maxEntries ≤ outbox.rows.length
  · have inside : settings.maxEntries - 1 < outbox.rows.length := by omega
    have turned : outbox.rows.length - 1 - (settings.maxEntries - 1) =
        outbox.rows.length - settings.maxEntries := by omega
    have position : outbox.rows.length - settings.maxEntries < outbox.rows.length := by omega
    rw [List.getElem?_reverse inside, turned, List.getElem?_eq_getElem position]
    exact filter_le_eq_drop OutboxRow.sequence outbox.ascending (List.getElem?_eq_getElem position)
  · have outside : outbox.rows.reverse.length ≤ settings.maxEntries - 1 := by
      rw [List.length_reverse]
      omega
    rw [List.getElem?_eq_none outside, Nat.sub_eq_zero_of_le (by omega), List.drop_zero,
      List.filter_eq_self]
    intro row _
    simp

theorem length_rows_trim (outbox : VisionObservationOutbox) (settings : Settings) :
    (outbox.trim settings).rows.length ≤ settings.maxEntries := by
  rw [rows_trim, List.length_drop]
  omega

/-- A deleted row is older than every row that stays, and the rows that stay
fill the table. -/
theorem overflow_older {outbox : VisionObservationOutbox} {settings : Settings} {row : OutboxRow}
    (member : row ∈ outbox.rows) (gone : row ∉ (outbox.trim settings).rows) :
    (outbox.trim settings).rows.length = settings.maxEntries ∧
      ∀ kept ∈ (outbox.trim settings).rows, row.sequence < kept.sequence := by
  constructor
  · have exceeds : settings.maxEntries < outbox.rows.length := by
      by_contra fits
      apply gone
      rw [rows_trim, Nat.sub_eq_zero_of_le (by omega), List.drop_zero]
      exact member
    rw [rows_trim, List.length_drop]
    omega
  · intro kept keptMem
    have dropped : ¬ outbox.cutoff settings ≤ row.sequence := by
      intro recent
      exact gone (List.mem_filter.mpr ⟨member, decide_eq_true recent⟩)
    have recent : outbox.cutoff settings ≤ kept.sequence :=
      of_decide_eq_true (List.mem_filter.mp keptMem).2
    omega

theorem mem_overflow_iff {outbox : VisionObservationOutbox} {settings : Settings}
    {row : OutboxRow} : row ∈ outbox.overflow settings ↔
      row ∈ outbox.rows ∧ row ∉ (outbox.trim settings).rows := by
  simp only [overflow, trim, rows_keep, List.mem_filter, Bool.not_eq_true']
  constructor
  · rintro ⟨member, older⟩
    exact ⟨member, fun kept => by simp [kept.2] at older⟩
  · rintro ⟨member, gone⟩
    refine ⟨member, ?_⟩
    by_contra recent
    exact gone ⟨member, by simpa using recent⟩

/-- Trimming splits the rows. -/
theorem trim_overflow_perm (outbox : VisionObservationOutbox) (settings : Settings) :
    ((outbox.trim settings).rows ++ outbox.overflow settings).Perm outbox.rows :=
  List.filter_append_perm _ _

end VisionObservationOutbox

end OhanaAgent.Exporters
