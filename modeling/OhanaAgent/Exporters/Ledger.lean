import OhanaAgent.Exporters.DurableClient

/-!
# What becomes of an observation

A ledger is kept beside the client: the rows Vision acknowledged, the rows that
overflowed, and the parcels that were not kept because their observation
identity was stored already.  With the rows of the outbox and the payloads that
wait in memory they account for every payload that was sent, each once.
-/

namespace OhanaAgent.Exporters

open OhanaAgent.Transition OhanaAgent.Encoding.Json OhanaAgent.Store

universe u

variable {α : Type u}

/-- What happened to the parcels that left the client, and the row that the
holder of the flush lock read last. -/
structure Ledger where
  acknowledged : List OutboxRow
  overflowed : List OutboxRow
  duplicates : List Parcel
  inFlight : Option OutboxRow

namespace Ledger

/-- The delivery of a row was not acknowledged. -/
def unacknowledged (ledger : Ledger) (row : OutboxRow) : Bool :=
  !(ledger.acknowledged.map OutboxRow.sequence).contains row.sequence

end Ledger

/-- The client with its ledger. -/
structure World (α : Type u) where
  client : DurableVisionClient α
  ledger : Ledger

namespace World

/-- A new client with nothing in its ledger. -/
def start : World α :=
  ⟨.start, ⟨[], [], [], none⟩⟩

/-- The rows of the outbox that Vision did not acknowledge. -/
def pending (world : World α) : List OutboxRow :=
  world.client.outbox.rows.filter world.ledger.unacknowledged

/-- The payloads in memory that are not in the outbox yet. -/
def waiting (world : World α) : List α :=
  match world.client.pass with
  | some ⟨_, .popping remaining⟩ => world.client.incoming.drop remaining
  | _ => world.client.incoming

/-- The batch that an enqueue stores: that of the pass, unless it is empty or
the call raises. -/
def stored (world : World α) (wire : Wire α) : Option (List α) :=
  match world.client.pass with
  | some ⟨_, .copied batch⟩ =>
      if batch.isEmpty || world.client.closed ||
          batch.any (fun payload => (wire.observationId payload).isEmpty) then none
      else some batch
  | _ => none

/-- The ledger after an enqueue: unacknowledged rows can overflow, and parcels
of a stored identity are ignored. -/
def recordEnqueue (world : World α) (settings : Settings) (parcels : List Parcel) : Ledger :=
  let outbox := world.client.outbox
  { world.ledger with
    overflowed := world.ledger.overflowed ++
      ((outbox.insertMany parcels).overflow settings).filter world.ledger.unacknowledged
    duplicates := world.ledger.duplicates ++ outbox.ignored parcels }

/-- The ledger after an acknowledgement; the row may have overflowed while its
delivery was under way. -/
def recordAcknowledged (world : World α) (row : OutboxRow) : Ledger :=
  { world.ledger with
    acknowledged := world.ledger.acknowledged ++ [row]
    overflowed :=
      if row ∈ world.client.outbox.rows then world.ledger.overflowed
      else world.ledger.overflowed.erase row }

/-- The ledger after the mark of a delivered identity: a row of that identity
that was not itself delivered goes with it. -/
def recordMarked (world : World α) (observationId : Text) : Ledger :=
  { world.ledger with
    duplicates := world.ledger.duplicates ++
      (world.pending.filter fun row => row.observationId = observationId).map OutboxRow.parcel }

/-- The ledger after an action. -/
def record (settings : Settings) (wire : Wire α) (world : World α) : Action α → Ledger
  | .enqueue =>
      match world.stored wire with
      | some batch => world.recordEnqueue settings (batch.map wire.parcel)
      | none => world.ledger
  | .oldest =>
      match world.client.flushing with
      | .reading => { world.ledger with inFlight := world.client.outbox.rows.head? }
      | _ => world.ledger
  | .deliver .acknowledged =>
      match world.client.flushing, world.ledger.inFlight with
      | .sending _, some row => world.recordAcknowledged row
      | _, _ => world.ledger
  | .mark =>
      match world.client.flushing with
      | .delivered entry =>
          if world.client.closed then world.ledger else world.recordMarked entry.observationId
      | _ => world.ledger
  | _ => world.ledger

/-- One action of the client, recorded. -/
def next (settings : Settings) (wire : Wire α) (world : World α) (action : Action α) : World α :=
  ⟨world.client.step settings wire action, world.record settings wire action⟩

end World

/-- The payloads that `send_observation` accepts in a run. -/
def sends (wire : Wire α) (actions : List (Action α)) : List α :=
  actions.filterMap fun
    | .send payload => if (wire.observationId payload).isEmpty then none else some payload
    | _ => none

/-! ## The invariant -/

/-- The pending rows in the order in which they will be delivered: a row whose
delivery is under way is first, also when it overflowed meanwhile. -/
def deliveryOrder (flushing : Flush α) (inFlight : Option OutboxRow) (pending : List OutboxRow) :
    List OutboxRow :=
  match flushing, inFlight with
  | .sending _, some row => row :: pending.filter fun other => other.sequence ≠ row.sequence
  | _, _ => pending

/-- What Vision will receive next. -/
def World.queue (world : World α) : List OutboxRow :=
  deliveryOrder world.client.flushing world.ledger.inFlight world.pending

theorem deliveryOrder_of_not_sending {flushing : Flush α} (inFlight : Option OutboxRow)
    (pending : List OutboxRow) (notSending : ∀ entry, flushing ≠ .sending entry) :
    deliveryOrder flushing inFlight pending = pending := by
  unfold deliveryOrder
  split
  · next entry row => exact absurd rfl (notSending entry)
  · rfl

/-- Rows that are appended come last in the order. -/
theorem deliveryOrder_sublist {flushing : Flush α} {inFlight : Option OutboxRow}
    {before after added : List OutboxRow} (appended : after.Sublist (before ++ added)) :
    (deliveryOrder flushing inFlight after).Sublist
      (deliveryOrder flushing inFlight before ++ added) := by
  unfold deliveryOrder
  split
  · next row =>
      rw [List.cons_append]
      apply List.Sublist.cons_cons
      refine (appended.filter _).trans ?_
      rw [List.filter_append]
      exact List.filter_sublist.append_left _
  · exact appended

/-- A row whose delivery is under way: it is the oldest, and it is in the outbox
unless it overflowed. -/
structure UnderWay (wire : Wire α) (world : World α) (entry : VisionObservationOutboxEntry α)
    (row : OutboxRow) : Prop where
  inFlight : world.ledger.inFlight = some row
  identity : entry.observationId = row.observationId
  payload : entry.payload = wire.loads row.payloadJson
  allocated : row.sequence < world.client.outbox.nextSequence
  unacknowledged : world.ledger.unacknowledged row = true
  first : ∀ other ∈ world.client.outbox.rows, row.sequence ≤ other.sequence
  same : ∀ other ∈ world.client.outbox.rows, other.sequence = row.sequence → other = row
  somewhere : row ∈ world.client.outbox.rows ∨ row ∈ world.ledger.overflowed

/-- Everything that was sent is accounted for, in order. -/
structure Accounted (settings : Settings) (wire : Wire α) (sent : List α) (world : World α) :
    Prop where
  received : world.client.received =
    world.ledger.acknowledged.map fun row => wire.loads row.payloadJson
  ordered : (world.ledger.acknowledged.map OutboxRow.parcel ++
    (world.queue.map OutboxRow.parcel ++ world.waiting.map wire.parcel)).Sublist
      (sent.map wire.parcel)
  conserved : (sent.map wire.parcel).Perm (world.ledger.acknowledged.map OutboxRow.parcel ++
    (world.pending.map OutboxRow.parcel ++ (world.waiting.map wire.parcel ++
      (world.ledger.overflowed.map OutboxRow.parcel ++ world.ledger.duplicates))))
  copied : ∀ caller batch, world.client.pass = some ⟨caller, .copied batch⟩ →
    batch <+: world.client.incoming
  popping : ∀ caller remaining, world.client.pass = some ⟨caller, .popping remaining⟩ →
    remaining ≤ world.client.incoming.length
  sending : ∀ entry, world.client.flushing = .sending entry →
    ∃ row, UnderWay wire world entry row
  marking : ∀ entry, world.client.flushing = .delivered entry →
    ∃ row ∈ world.ledger.acknowledged, row.observationId = entry.observationId
  settled : ∀ row ∈ world.client.outbox.rows, world.ledger.unacknowledged row = false →
    world.client.closed = true ∨ ∃ entry, world.client.flushing = .delivered entry ∧
      row.observationId = entry.observationId
  allocated : ∀ row ∈ world.ledger.acknowledged,
    row.sequence < world.client.outbox.nextSequence
  justified : ∀ parcel ∈ world.ledger.duplicates,
    ∃ row ∈ world.ledger.acknowledged ++ (world.pending ++ world.ledger.overflowed),
      row.observationId = parcel.observationId
  bounded : world.client.outbox.rows.length ≤ settings.maxEntries
  holder : ∀ phase, world.client.pass = some ⟨.flush, phase⟩ →
    world.client.flushing = .persisting
  stopHolder : ∀ phase, world.client.pass = some ⟨.stop, phase⟩ →
    world.client.stopping = .persisting

section Steps

variable {settings : Settings} {wire : Wire α} {sent : List α} {world : World α}

theorem accounted_start : Accounted settings wire [] World.start where
  received := rfl
  ordered := List.Sublist.refl _
  conserved := List.Perm.refl _
  copied := by simp [World.start, DurableVisionClient.start]
  popping := by simp [World.start, DurableVisionClient.start]
  sending := by simp [World.start, DurableVisionClient.start]
  marking := by simp [World.start, DurableVisionClient.start]
  settled := by simp [World.start, DurableVisionClient.start]
  allocated := by simp [World.start]
  justified := by simp [World.start]
  bounded := Nat.zero_le _
  holder := by simp [World.start, DurableVisionClient.start]
  stopHolder := by simp [World.start, DurableVisionClient.start]

/-- In a list that ascends from an element on, only that element can be in front
of the others. -/
theorem sublist_cons_filter_ne {row : OutboxRow} {list : List OutboxRow}
    (ascending : list.Pairwise fun older newer => older.sequence < newer.sequence)
    (first : ∀ other ∈ list, row.sequence ≤ other.sequence)
    (same : ∀ other ∈ list, other.sequence = row.sequence → other = row) :
    list.Sublist (row :: list.filter fun other => other.sequence ≠ row.sequence) := by
  cases list with
  | nil => exact List.nil_sublist _
  | cons head tail =>
      obtain ⟨before, _⟩ := List.pairwise_cons.mp ascending
      have least := first head List.mem_cons_self
      have rest : (tail.filter fun other => other.sequence ≠ row.sequence) = tail := by
        rw [List.filter_eq_self]
        intro other member
        have later := before other member
        exact decide_eq_true (by omega)
      by_cases equal : head.sequence = row.sequence
      · rw [List.filter_cons_of_neg (by simp [equal]), rest,
          same head List.mem_cons_self equal]
      · rw [List.filter_cons_of_pos (by simp [equal]), rest]
        exact List.sublist_cons_self _ _

/-- Whatever the delivery under way, the rows are in the order of the queue. -/
theorem Accounted.pending_sublist_queue (accounted : Accounted settings wire sent world) :
    world.pending.Sublist world.queue := by
  by_cases sending : ∃ entry, world.client.flushing = .sending entry
  · obtain ⟨entry, sending⟩ := sending
    obtain ⟨row, underWay⟩ := accounted.sending entry sending
    rw [World.queue, sending, underWay.inFlight]
    apply sublist_cons_filter_ne
    · exact world.client.outbox.ascending.filter _
    · exact fun other member => underWay.first other (List.mem_of_mem_filter member)
    · exact fun other member => underWay.same other (List.mem_of_mem_filter member)
  · have order : world.queue = world.pending :=
      deliveryOrder_of_not_sending _ _ fun entry same => sending ⟨entry, same⟩
    rw [order]

/-- The holder of the flush lock moves on without touching the outbox. -/
theorem Accounted.moveOn (accounted : Accounted settings wire sent world) {flushing : Flush α}
    (notSending : ∀ entry, flushing ≠ .sending entry)
    (notDelivered : ∀ entry, flushing ≠ .delivered entry)
    (marked : ∀ entry, world.client.flushing = .delivered entry → world.client.closed = true)
    (holder : ∀ phase, world.client.pass = some ⟨.flush, phase⟩ → flushing = .persisting) :
    Accounted settings wire sent ⟨{ world.client with flushing := flushing }, world.ledger⟩ where
  received := accounted.received
  ordered := by
    have queue : World.queue ⟨{ world.client with flushing := flushing }, world.ledger⟩ =
        world.pending := deliveryOrder_of_not_sending _ _ notSending
    rw [queue]
    refine List.Sublist.trans ?_ accounted.ordered
    apply List.Sublist.append_left
    exact List.Sublist.append_right (accounted.pending_sublist_queue.map _) _
  conserved := accounted.conserved
  copied := accounted.copied
  popping := accounted.popping
  sending := fun entry same => absurd same (notSending entry)
  marking := fun entry same => absurd same (notDelivered entry)
  settled := by
    intro row member acknowledged
    rcases accounted.settled row member acknowledged with closed | ⟨entry, same, _⟩
    · exact Or.inl closed
    · exact Or.inl (marked entry same)
  allocated := accounted.allocated
  justified := accounted.justified
  bounded := accounted.bounded
  holder := holder
  stopHolder := accounted.stopHolder

/-- The pass changes without touching the deque or the outbox. -/
theorem Accounted.turn (accounted : Accounted settings wire sent world) {pass : Option (Pass α)}
    (waiting : World.waiting ⟨{ world.client with pass := pass }, world.ledger⟩ = world.waiting)
    (copied : ∀ caller batch, pass = some ⟨caller, .copied batch⟩ →
      batch <+: world.client.incoming)
    (popping : ∀ caller remaining, pass = some ⟨caller, .popping remaining⟩ →
      remaining ≤ world.client.incoming.length)
    (holder : ∀ phase, pass = some ⟨.flush, phase⟩ → world.client.flushing = .persisting)
    (stopHolder : ∀ phase, pass = some ⟨.stop, phase⟩ → world.client.stopping = .persisting) :
    Accounted settings wire sent ⟨{ world.client with pass := pass }, world.ledger⟩ where
  received := accounted.received
  ordered := by
    rw [waiting]
    exact accounted.ordered
  conserved := by
    rw [waiting]
    exact accounted.conserved
  copied := copied
  popping := popping
  sending := by
    intro entry same
    obtain ⟨row, underWay⟩ := accounted.sending entry same
    exact ⟨row, { underWay with }⟩
  marking := accounted.marking
  settled := accounted.settled
  allocated := accounted.allocated
  justified := accounted.justified
  bounded := accounted.bounded
  holder := holder
  stopHolder := stopHolder

/-- The stop goes on; a closed outbox stays closed. -/
theorem Accounted.halt (accounted : Accounted settings wire sent world) {stopping : Stop}
    (closed : world.client.stopping = .closed → stopping = .closed)
    (stopHolder : ∀ phase, world.client.pass = some ⟨.stop, phase⟩ → stopping = .persisting) :
    Accounted settings wire sent ⟨{ world.client with stopping := stopping }, world.ledger⟩ where
  received := accounted.received
  ordered := accounted.ordered
  conserved := accounted.conserved
  copied := accounted.copied
  popping := accounted.popping
  sending := by
    intro entry same
    obtain ⟨row, underWay⟩ := accounted.sending entry same
    exact ⟨row, { underWay with }⟩
  marking := accounted.marking
  settled := by
    intro row member acknowledged
    rcases accounted.settled row member acknowledged with isClosed | marking
    · exact Or.inl (decide_eq_true (closed (of_decide_eq_true isClosed)))
    · exact Or.inr marking
  allocated := accounted.allocated
  justified := accounted.justified
  bounded := accounted.bounded
  holder := accounted.holder
  stopHolder := stopHolder
end Steps

end OhanaAgent.Exporters
