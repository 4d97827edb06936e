import OhanaAgent.Exporters.Ledger

/-!
# The actions that move payloads

A payload is sent, stored, popped, read, acknowledged and marked; each of these
keeps the account of the ledger.
-/

namespace OhanaAgent.Exporters

open OhanaAgent.Transition OhanaAgent.Encoding.Json OhanaAgent.Store

universe u

variable {α : Type u}

section Steps

variable {settings : Settings} {wire : Wire α} {sent : List α} {world : World α}

theorem Accounted.send (accounted : Accounted settings wire sent world) (payload : α) :
    Accounted settings wire (sent ++ [payload])
      ⟨{ world.client with incoming := world.client.incoming ++ [payload] }, world.ledger⟩ := by
  have waiting : World.waiting
      ⟨{ world.client with incoming := world.client.incoming ++ [payload] }, world.ledger⟩ =
        world.waiting ++ [payload] := by
    simp only [World.waiting]
    split
    · next caller remaining pass =>
        exact List.drop_append_of_le_length (accounted.popping caller remaining pass)
    · rfl
  exact {
    received := accounted.received
    ordered := by
      rw [waiting, List.map_append, List.map_append]
      exact order_send accounted.ordered
    conserved := by
      rw [waiting, List.map_append, List.map_append]
      exact conserve_send accounted.conserved
    copied := fun caller batch pass =>
      (accounted.copied caller batch pass).trans (List.prefix_append _ _)
    popping := by
      intro caller remaining pass
      rw [List.length_append]
      exact Nat.le_add_right_of_le (accounted.popping caller remaining pass)
    sending := by
      intro entry same
      obtain ⟨row, underWay⟩ := accounted.sending entry same
      exact ⟨row, { underWay with }⟩
    marking := accounted.marking
    settled := accounted.settled
    allocated := accounted.allocated
    justified := accounted.justified
    bounded := accounted.bounded
    holder := accounted.holder
    stopHolder := accounted.stopHolder }

theorem Accounted.pop (accounted : Accounted settings wire sent world) {caller : Caller}
    {remaining : Nat} (pass : world.client.pass = some ⟨caller, .popping (remaining + 1)⟩) :
    Accounted settings wire sent
      ⟨{ world.client with
          incoming := world.client.incoming.tail
          pass := some ⟨caller, .popping remaining⟩ }, world.ledger⟩ := by
  have waiting : World.waiting
      ⟨{ world.client with
          incoming := world.client.incoming.tail
          pass := some ⟨caller, .popping remaining⟩ }, world.ledger⟩ = world.waiting := by
    simp only [World.waiting, pass, List.drop_tail]
  exact {
    received := accounted.received
    ordered := by
      rw [waiting]
      exact accounted.ordered
    conserved := by
      rw [waiting]
      exact accounted.conserved
    copied := by
      intro caller' batch same
      simp at same
    popping := by
      intro caller' remaining' same
      have enough := accounted.popping caller (remaining + 1) pass
      simp only [Option.some.injEq, Pass.mk.injEq, Phase.popping.injEq] at same
      rw [List.length_tail, ← same.2]
      exact Nat.le_sub_one_of_lt enough
    sending := by
      intro entry same
      obtain ⟨row, underWay⟩ := accounted.sending entry same
      exact ⟨row, { underWay with }⟩
    marking := accounted.marking
    settled := accounted.settled
    allocated := accounted.allocated
    justified := accounted.justified
    bounded := accounted.bounded
    holder := by
      intro phase same
      simp only [Option.some.injEq, Pass.mk.injEq] at same
      exact accounted.holder _ (same.1 ▸ pass)
    stopHolder := by
      intro phase same
      simp only [Option.some.injEq, Pass.mk.injEq] at same
      exact accounted.stopHolder _ (same.1 ▸ pass) }

/-- The oldest row is read. -/
theorem Accounted.read (accounted : Accounted settings wire sent world)
    (reading : world.client.flushing = .reading) (isOpen : world.client.closed = false)
    {row : OutboxRow} {rest : List OutboxRow} (rows : world.client.outbox.rows = row :: rest) :
    Accounted settings wire sent
      ⟨{ world.client with
          flushing := .sending ⟨row.observationId, wire.loads row.payloadJson, row.attempts⟩ },
        { world.ledger with inFlight := some row }⟩ := by
  have ascending := world.client.outbox.ascending
  rw [rows] at ascending
  obtain ⟨before, _⟩ := List.pairwise_cons.mp ascending
  have fresh : world.ledger.unacknowledged row = true := by
    by_contra acknowledged
    rcases accounted.settled row (by simp [rows]) (by simpa using acknowledged) with
      closed | ⟨entry, same, _⟩
    · simp [isOpen] at closed
    · simp [reading] at same
  have queue : World.queue ⟨{ world.client with
      flushing := .sending ⟨row.observationId, wire.loads row.payloadJson, row.attempts⟩ },
        { world.ledger with inFlight := some row }⟩ = world.queue := by
    have others : ((rest.filter world.ledger.unacknowledged).filter fun other =>
        other.sequence ≠ row.sequence) = rest.filter world.ledger.unacknowledged := by
      rw [List.filter_eq_self]
      intro other member
      have later := before other (List.mem_of_mem_filter member)
      exact decide_eq_true (by omega)
    have pending : world.pending = row :: rest.filter world.ledger.unacknowledged := by
      rw [World.pending, rows, List.filter_cons_of_pos fresh]
    have unread : world.queue = world.pending :=
      deliveryOrder_of_not_sending _ _ (by simp [reading])
    have read : (row :: world.pending.filter fun other => other.sequence ≠ row.sequence) =
        world.pending := by
      rw [pending, List.filter_cons_of_neg (by simp), others]
    exact read.trans unread.symm
  exact {
    received := accounted.received
    ordered := by
      rw [queue]
      exact accounted.ordered
    conserved := accounted.conserved
    copied := accounted.copied
    popping := accounted.popping
    sending := by
      intro entry same
      obtain rfl := Flush.sending.inj same
      refine ⟨row, rfl, rfl, rfl, ?_, fresh, ?_, ?_, Or.inl (by simp [rows])⟩
      · exact world.client.outbox.allocated row (by simp [rows])
      · intro other member
        rcases List.mem_cons.mp (rows ▸ member) with rfl | member
        · exact Nat.le_refl _
        · exact Nat.le_of_lt (before other member)
      · intro other member same
        rcases List.mem_cons.mp (rows ▸ member) with rfl | member
        · rfl
        · exact absurd same (Nat.ne_of_gt (before other member))
    marking := by
      intro entry same
      cases same
    settled := by
      intro other member acknowledged
      rcases accounted.settled other member acknowledged with closed | ⟨entry, same, _⟩
      · simp [isOpen] at closed
      · simp [reading] at same
    allocated := accounted.allocated
    justified := accounted.justified
    bounded := accounted.bounded
    holder := by
      intro phase pass
      have persisting := accounted.holder phase pass
      rw [reading] at persisting
      cases persisting
    stopHolder := accounted.stopHolder }

theorem unacknowledged_eq_false_iff {ledger : Ledger} {row : OutboxRow} :
    ledger.unacknowledged row = false ↔
      ∃ acknowledged ∈ ledger.acknowledged, acknowledged.sequence = row.sequence := by
  simp [Ledger.unacknowledged]

/-- Acknowledging a row takes it, and only it, out of what is pending. -/
theorem unacknowledged_append {ledger : Ledger} {row other : OutboxRow} {overflowed : List OutboxRow} :
    Ledger.unacknowledged { ledger with
      acknowledged := ledger.acknowledged ++ [row], overflowed := overflowed } other =
        (decide (other.sequence ≠ row.sequence) && ledger.unacknowledged other) := by
  simp only [Ledger.unacknowledged, List.map_append, List.map_cons, List.map_nil,
    List.contains_append, Bool.not_or, List.contains_cons, List.contains_nil, Bool.or_false]
  rw [Bool.and_comm]
  congr 1
  by_cases same : other.sequence = row.sequence <;> simp [same]

/-- The row under way leaves the pending rows, or what overflowed. -/
theorem UnderWay.leaves {entry : VisionObservationOutboxEntry α} {row : OutboxRow}
    (underWay : UnderWay wire world entry row) :
    (row :: ((world.pending.filter fun other => other.sequence ≠ row.sequence) ++
      (world.recordAcknowledged row).overflowed)).Perm
        (world.pending ++ world.ledger.overflowed) := by
  by_cases held : row ∈ world.client.outbox.rows
  · have pending : (row :: world.pending.filter fun other => other.sequence ≠ row.sequence).Perm
        world.pending := by
      have member : row ∈ world.pending :=
        List.mem_filter.mpr ⟨held, underWay.unacknowledged⟩
      have alone : (world.pending.filter fun other => other.sequence ≠ row.sequence) =
          world.pending.erase row := by
        have distinct : world.pending.Nodup := by
          refine (world.client.outbox.ascending.filter _).imp ?_
          rintro older newer before rfl
          exact Nat.lt_irrefl _ before
        rw [distinct.erase_eq_filter]
        apply List.filter_congr
        intro other otherMem
        have same := underWay.same other (List.mem_of_mem_filter otherMem)
        by_cases equal : other = row
        · simp [equal]
        · have different : other.sequence ≠ row.sequence := fun sequences => equal (same sequences)
          simp [equal, different]
      rw [alone]
      exact (List.perm_cons_erase member).symm
    have overflowed : (world.recordAcknowledged row).overflowed = world.ledger.overflowed :=
      if_pos held
    rw [overflowed]
    exact pending.append_right _
  · have gone : row ∈ world.ledger.overflowed := underWay.somewhere.resolve_left held
    have overflowed : (world.recordAcknowledged row).overflowed =
        world.ledger.overflowed.erase row := if_neg held
    have all : (world.pending.filter fun other => other.sequence ≠ row.sequence) =
        world.pending := by
      rw [List.filter_eq_self]
      intro other otherMem
      have otherHeld := List.mem_of_mem_filter otherMem
      refine decide_eq_true ?_
      intro same
      exact held (underWay.same other otherHeld same ▸ otherHeld)
    rw [overflowed, all]
    exact List.perm_middle.symm.trans ((List.perm_cons_erase gone).symm.append_left _)

/-- The delivery under way is acknowledged. -/
theorem Accounted.acknowledge (accounted : Accounted settings wire sent world)
    {entry : VisionObservationOutboxEntry α} (sending : world.client.flushing = .sending entry)
    {row : OutboxRow} (underWay : UnderWay wire world entry row) :
    Accounted settings wire sent
      ⟨{ world.client with
          flushing := .delivered entry
          received := world.client.received ++ [entry.payload] },
        world.recordAcknowledged row⟩ := by
  have pending : World.pending ⟨{ world.client with
      flushing := .delivered entry
      received := world.client.received ++ [entry.payload] }, world.recordAcknowledged row⟩ =
        world.pending.filter fun other => other.sequence ≠ row.sequence := by
    rw [World.pending, World.pending, List.filter_filter]
    apply List.filter_congr
    intro other _
    exact unacknowledged_append
  have queue : world.queue =
      row :: world.pending.filter fun other => other.sequence ≠ row.sequence := by
    rw [World.queue, sending, underWay.inFlight, deliveryOrder]
  have acknowledged : (world.recordAcknowledged row).acknowledged.map OutboxRow.parcel =
      world.ledger.acknowledged.map OutboxRow.parcel ++ [row.parcel] :=
    List.map_append
  exact {
    received := by
      have appended := congrArg (· ++ [entry.payload]) accounted.received
      simpa only [World.recordAcknowledged, List.map_append, List.map_cons, List.map_nil,
        underWay.payload] using appended
    ordered := by
      have ordered := accounted.ordered
      rw [queue] at ordered
      have after : World.queue ⟨{ world.client with
          flushing := .delivered entry
          received := world.client.received ++ [entry.payload] }, world.recordAcknowledged row⟩ =
            world.pending.filter fun other => other.sequence ≠ row.sequence := pending
      rw [after, acknowledged]
      exact order_leave ordered
    conserved := by
      have moved := underWay.leaves.map OutboxRow.parcel
      rw [List.map_cons, List.map_append, List.map_append] at moved
      rw [pending, acknowledged]
      exact conserve_leave accounted.conserved moved
    copied := accounted.copied
    popping := accounted.popping
    sending := by
      intro other same
      cases same
    marking := by
      intro other same
      obtain rfl := Flush.delivered.inj same
      exact ⟨row, by simp [World.recordAcknowledged], underWay.identity.symm⟩
    settled := by
      intro other member delivered
      obtain ⟨known, knownMem, same⟩ := unacknowledged_eq_false_iff.mp delivered
      rcases List.mem_append.mp knownMem with knownMem | knownMem
      · have earlier := unacknowledged_eq_false_iff.mpr ⟨known, knownMem, same⟩
        rcases accounted.settled other member earlier with closed | ⟨other', same', _⟩
        · exact Or.inl closed
        · rw [sending] at same'
          cases same'
      · obtain rfl := List.mem_singleton.mp knownMem
        obtain rfl := underWay.same other member same.symm
        exact Or.inr ⟨entry, rfl, underWay.identity.symm⟩
    allocated := by
      intro other member
      rcases List.mem_append.mp member with member | member
      · exact accounted.allocated other member
      · rw [List.mem_singleton.mp member]
        exact underWay.allocated
    justified := by
      intro parcel member
      obtain ⟨known, knownMem, same⟩ := accounted.justified parcel member
      by_cases equal : known = row
      · exact ⟨row, by simp [World.recordAcknowledged], equal ▸ same⟩
      · refine ⟨known, ?_, same⟩
        rw [pending]
        simp only [List.mem_append] at knownMem
        simp only [World.recordAcknowledged, List.mem_append]
        rcases knownMem with acknowledged | held | overflowed
        · exact Or.inl (Or.inl acknowledged)
        · have different : known.sequence ≠ row.sequence := fun sequences =>
            equal (underWay.same known (List.mem_of_mem_filter held) sequences)
          exact Or.inr (Or.inl (List.mem_filter.mpr ⟨held, decide_eq_true different⟩))
        · refine Or.inr (Or.inr ?_)
          split
          · exact overflowed
          · exact (List.mem_erase_of_ne equal).mpr overflowed
    bounded := accounted.bounded
    holder := by
      intro phase pass
      have persisting := accounted.holder phase pass
      rw [sending] at persisting
      cases persisting
    stopHolder := accounted.stopHolder }

/-- A delivered identity leaves the outbox. -/
theorem Accounted.markDelivered (accounted : Accounted settings wire sent world)
    {entry : VisionObservationOutboxEntry α} (marking : world.client.flushing = .delivered entry)
    (isOpen : world.client.closed = false) :
    Accounted settings wire sent
      ⟨{ world.client with
          outbox := world.client.outbox.markDelivered entry.observationId
          flushing := .looping }, world.recordMarked entry.observationId⟩ := by
  obtain ⟨delivered, deliveredMem, identity⟩ := accounted.marking entry marking
  have pending : World.pending ⟨{ world.client with
      outbox := world.client.outbox.markDelivered entry.observationId
      flushing := .looping }, world.recordMarked entry.observationId⟩ =
        world.pending.filter fun row => !decide (row.observationId = entry.observationId) := by
    rw [World.pending, World.pending, List.filter_filter]
    refine List.filter_filter.trans (List.filter_congr ?_)
    intro row _
    exact Bool.and_comm _ _
  have queue : world.queue = world.pending :=
    deliveryOrder_of_not_sending _ _ (by simp [marking])
  exact {
    received := accounted.received
    ordered := by
      have after : World.queue ⟨{ world.client with
          outbox := world.client.outbox.markDelivered entry.observationId
          flushing := .looping }, world.recordMarked entry.observationId⟩ =
            world.pending.filter fun row => !decide (row.observationId = entry.observationId) :=
        pending
      have ordered := accounted.ordered
      rw [queue] at ordered
      rw [after]
      refine List.Sublist.trans ?_ ordered
      apply List.Sublist.append_left
      exact List.Sublist.append_right (List.filter_sublist.map _) _
    conserved := by
      have split := (List.perm_append_comm.trans (List.filter_append_perm
        (fun row : OutboxRow => decide (row.observationId = entry.observationId))
        world.pending)).map OutboxRow.parcel
      rw [List.map_append] at split
      rw [pending]
      exact conserve_ignore accounted.conserved split
    copied := accounted.copied
    popping := accounted.popping
    sending := by
      intro other same
      cases same
    marking := by
      intro other same
      cases same
    settled := by
      intro row member acknowledged
      obtain ⟨rowMem, different⟩ := List.mem_filter.mp member
      rcases accounted.settled row rowMem acknowledged with closed | ⟨other, same, equal⟩
      · simp [isOpen] at closed
      · obtain rfl := Flush.delivered.inj (marking.symm.trans same)
        simp [equal] at different
    allocated := accounted.allocated
    justified := by
      intro parcel member
      rcases List.mem_append.mp member with member | member
      · obtain ⟨known, knownMem, same⟩ := accounted.justified parcel member
        by_cases equal : known.observationId = entry.observationId
        · exact ⟨delivered, List.mem_append_left _ deliveredMem,
            identity.trans (equal.symm.trans same)⟩
        · refine ⟨known, ?_, same⟩
          simp only [List.mem_append] at knownMem ⊢
          rcases knownMem with acknowledged | held | overflowed
          · exact Or.inl acknowledged
          · refine Or.inr (Or.inl ?_)
            rw [pending]
            exact List.mem_filter.mpr ⟨held, by simp [equal]⟩
          · exact Or.inr (Or.inr overflowed)
      · obtain ⟨row, rowMem, rfl⟩ := List.mem_map.mp member
        have equal := of_decide_eq_true (List.mem_filter.mp rowMem).2
        exact ⟨delivered, List.mem_append_left _ deliveredMem, identity.trans equal.symm⟩
    bounded := Nat.le_trans (List.length_filter_le _ _) accounted.bounded
    holder := by
      intro phase pass
      have persisting := accounted.holder phase pass
      rw [marking] at persisting
      cases persisting
    stopHolder := accounted.stopHolder }

/-- A failed attempt is written into the row. -/
theorem Accounted.markFailed (accounted : Accounted settings wire sent world)
    {entry : VisionObservationOutboxEntry α} {error : Text}
    (failed : world.client.flushing = .failed entry error) :
    Accounted settings wire sent
      ⟨{ world.client with
          outbox := world.client.outbox.markFailed entry.observationId error
          flushing := .idle }, world.ledger⟩ := by
  have unacknowledged : ∀ row, world.ledger.unacknowledged
      (row.markFailed entry.observationId error) = world.ledger.unacknowledged row := by
    intro row
    simp only [Ledger.unacknowledged, OutboxRow.sequence_markFailed]
  have written : World.pending ⟨{ world.client with
      outbox := world.client.outbox.markFailed entry.observationId error
      flushing := .idle }, world.ledger⟩ =
        world.pending.map (OutboxRow.markFailed entry.observationId error) := by
    refine List.filter_map.trans ?_
    rw [World.pending]
    congr 1
    apply List.filter_congr
    intro row _
    exact unacknowledged row
  have pending : (World.pending ⟨{ world.client with
      outbox := world.client.outbox.markFailed entry.observationId error
      flushing := .idle }, world.ledger⟩).map OutboxRow.parcel =
        world.pending.map OutboxRow.parcel := by
    rw [written, List.map_map]
    apply List.map_congr_left
    intro row _
    exact row.parcel_markFailed entry.observationId error
  have queue : world.queue = world.pending :=
    deliveryOrder_of_not_sending _ _ (by simp [failed])
  exact {
    received := accounted.received
    ordered := by
      have ordered := accounted.ordered
      rw [queue, ← pending] at ordered
      exact ordered
    conserved := by
      rw [pending]
      exact accounted.conserved
    copied := accounted.copied
    popping := accounted.popping
    sending := by
      intro other same
      cases same
    marking := by
      intro other same
      cases same
    settled := by
      intro row member acknowledged
      obtain ⟨source, sourceMem, rfl⟩ := List.mem_map.mp member
      have earlier := (unacknowledged source).symm.trans acknowledged
      rcases accounted.settled source sourceMem earlier with closed | ⟨other, same, _⟩
      · exact Or.inl closed
      · rw [failed] at same
        cases same
    allocated := accounted.allocated
    justified := by
      intro parcel member
      obtain ⟨known, knownMem, same⟩ := accounted.justified parcel member
      simp only [List.mem_append] at knownMem
      rcases knownMem with acknowledged | held | overflowed
      · exact ⟨known, by simp [acknowledged], same⟩
      · refine ⟨known.markFailed entry.observationId error, ?_, ?_⟩
        · rw [written]
          exact List.mem_append_right _ (List.mem_append_left _ (List.mem_map_of_mem held))
        · rw [OutboxRow.observationId_markFailed]
          exact same
      · exact ⟨known, by simp [overflowed], same⟩
    bounded := by
      have bounded := accounted.bounded
      exact Nat.le_trans (Nat.le_of_eq (List.length_map _)) bounded
    holder := by
      intro phase pass
      have persisting := accounted.holder phase pass
      rw [failed] at persisting
      cases persisting
    stopHolder := accounted.stopHolder }

/-- An acknowledged row that is still in an open outbox is about to be marked. -/
theorem Accounted.acknowledged_of_open (accounted : Accounted settings wire sent world)
    (isOpen : world.client.closed = false) {row : OutboxRow}
    (member : row ∈ world.client.outbox.rows) (acknowledged : world.ledger.unacknowledged row = false) :
    ∃ known ∈ world.ledger.acknowledged, known.observationId = row.observationId := by
  rcases accounted.settled row member acknowledged with closed | ⟨entry, marking, identity⟩
  · simp [isOpen] at closed
  · obtain ⟨known, knownMem, same⟩ := accounted.marking entry marking
    exact ⟨known, knownMem, same.trans identity.symm⟩

/-- Rows that are added were never acknowledged. -/
theorem Accounted.added_unacknowledged (accounted : Accounted settings wire sent world)
    {parcels : List Parcel} {row : OutboxRow} (member : row ∈ world.client.outbox.added parcels) :
    world.ledger.unacknowledged row = true := by
  by_contra acknowledged
  obtain ⟨known, knownMem, same⟩ := unacknowledged_eq_false_iff.mp (by simpa using acknowledged)
  have earlier := accounted.allocated known knownMem
  have next := VisionObservationOutbox.le_sequence_of_mem_added member
  omega

theorem Accounted.filter_insertMany (accounted : Accounted settings wire sent world)
    (parcels : List Parcel) :
    (world.client.outbox.insertMany parcels).rows.filter world.ledger.unacknowledged =
      world.pending ++ world.client.outbox.added parcels := by
  have fresh : (world.client.outbox.added parcels).filter world.ledger.unacknowledged =
      world.client.outbox.added parcels :=
    List.filter_eq_self.mpr fun row member => accounted.added_unacknowledged member
  rw [VisionObservationOutbox.rows_insertMany, List.filter_append, fresh, World.pending]

/-- A row under way stays so while a batch is stored. -/
theorem UnderWay.store {entry : VisionObservationOutboxEntry α} {row : OutboxRow}
    (underWay : UnderWay wire world entry row) (parcels : List Parcel) (pass : Option (Pass α)) :
    UnderWay wire ⟨{ world.client with
      outbox := (world.client.outbox.insertMany parcels).trim settings
      pass := pass }, world.recordEnqueue settings parcels⟩ entry row where
  inFlight := underWay.inFlight
  identity := underWay.identity
  payload := underWay.payload
  allocated := Nat.lt_of_lt_of_le underWay.allocated
    (world.client.outbox.le_nextSequence_insertMany parcels)
  unacknowledged := underWay.unacknowledged
  first := by
    intro other member
    have inserted := List.mem_of_mem_filter member
    rw [VisionObservationOutbox.rows_insertMany, List.mem_append] at inserted
    rcases inserted with held | added
    · exact underWay.first other held
    · exact Nat.le_of_lt (Nat.lt_of_lt_of_le underWay.allocated
        (VisionObservationOutbox.le_sequence_of_mem_added added))
  same := by
    intro other member same
    have inserted := List.mem_of_mem_filter member
    rw [VisionObservationOutbox.rows_insertMany, List.mem_append] at inserted
    rcases inserted with held | added
    · exact underWay.same other held same
    · have later := VisionObservationOutbox.le_sequence_of_mem_added added
      have allocated := underWay.allocated
      omega
  somewhere := by
    rcases underWay.somewhere with held | overflowed
    · have inserted : row ∈ (world.client.outbox.insertMany parcels).rows := by
        rw [VisionObservationOutbox.rows_insertMany]
        exact List.mem_append_left _ held
      by_cases kept : row ∈ ((world.client.outbox.insertMany parcels).trim settings).rows
      · exact Or.inl kept
      · have gone := VisionObservationOutbox.mem_overflow_iff.mpr ⟨inserted, kept⟩
        exact Or.inr (List.mem_append_right _
          (List.mem_filter.mpr ⟨gone, underWay.unacknowledged⟩))
    · exact Or.inr (List.mem_append_left _ overflowed)

/-- Storing a batch appends to the queue, and may cut it. -/
theorem Accounted.queue_store (accounted : Accounted settings wire sent world)
    (parcels : List Parcel) (pass : Option (Pass α)) :
    (World.queue ⟨{ world.client with
      outbox := (world.client.outbox.insertMany parcels).trim settings
      pass := pass }, world.recordEnqueue settings parcels⟩).Sublist
        (world.queue ++ world.client.outbox.added parcels) := by
  have pending : (World.pending ⟨{ world.client with
      outbox := (world.client.outbox.insertMany parcels).trim settings
      pass := pass }, world.recordEnqueue settings parcels⟩).Sublist
        (world.pending ++ world.client.outbox.added parcels) := by
    rw [← accounted.filter_insertMany]
    exact List.filter_sublist.filter _
  exact deliveryOrder_sublist pending

/-- A batch is stored. -/
theorem Accounted.store (accounted : Accounted settings wire sent world) {caller : Caller}
    {batch : List α} (pass : world.client.pass = some ⟨caller, .copied batch⟩)
    (isOpen : world.client.closed = false) :
    Accounted settings wire sent
      ⟨{ world.client with
          outbox := (world.client.outbox.insertMany (batch.map wire.parcel)).trim settings
          pass := some ⟨caller, .popping batch.length⟩ },
        world.recordEnqueue settings (batch.map wire.parcel)⟩ := by
  obtain ⟨later, incoming⟩ := accounted.copied caller batch pass
  have before : world.waiting.map wire.parcel =
      batch.map wire.parcel ++ later.map wire.parcel := by
    rw [World.waiting, pass, ← List.map_append, incoming]
  have after : World.waiting ⟨{ world.client with
      outbox := (world.client.outbox.insertMany (batch.map wire.parcel)).trim settings
      pass := some ⟨caller, .popping batch.length⟩ },
        world.recordEnqueue settings (batch.map wire.parcel)⟩ = later := by
    simp only [World.waiting, ← incoming, List.drop_left]
  exact {
    received := accounted.received
    ordered := by
      have ordered := accounted.ordered
      have queue := (accounted.queue_store (batch.map wire.parcel)
        (some ⟨caller, .popping batch.length⟩)).map OutboxRow.parcel
      rw [before] at ordered
      rw [List.map_append] at queue
      rw [after]
      exact order_enqueue ordered queue (world.client.outbox.added_sublist _)
    conserved := by
      have conserved := accounted.conserved
      have split := (((world.client.outbox.insertMany (batch.map wire.parcel)).trim_overflow_perm
        settings).filter world.ledger.unacknowledged).map OutboxRow.parcel
      rw [accounted.filter_insertMany, List.filter_append, List.map_append, List.map_append] at split
      rw [before] at conserved
      rw [after]
      have balanced := conserve_enqueue conserved
        (world.client.outbox.added_ignored_perm (batch.map wire.parcel)) split
      rw [← List.map_append] at balanced
      exact balanced
    copied := by
      intro caller' batch' same
      simp at same
    popping := by
      intro caller' remaining same
      simp only [Option.some.injEq, Pass.mk.injEq, Phase.popping.injEq] at same
      rw [← same.2, ← incoming, List.length_append]
      exact Nat.le_add_right _ _
    sending := by
      intro entry same
      obtain ⟨row, underWay⟩ := accounted.sending entry same
      exact ⟨row, underWay.store _ _⟩
    marking := accounted.marking
    settled := by
      intro row member acknowledged
      have inserted := List.mem_of_mem_filter member
      rw [VisionObservationOutbox.rows_insertMany, List.mem_append] at inserted
      rcases inserted with held | added
      · exact accounted.settled row held acknowledged
      · have unacknowledged := accounted.added_unacknowledged added
        exact absurd (unacknowledged.symm.trans acknowledged) (by simp)
    allocated := by
      intro row member
      exact Nat.lt_of_lt_of_le (accounted.allocated row member)
        (world.client.outbox.le_nextSequence_insertMany _)
    justified := by
      -- A row that justifies a duplicate stays or overflows.
      have kept : ∀ row ∈ world.pending ++ world.client.outbox.added (batch.map wire.parcel),
          row ∈ World.pending ⟨{ world.client with
            outbox := (world.client.outbox.insertMany (batch.map wire.parcel)).trim settings
            pass := some ⟨caller, .popping batch.length⟩ },
              world.recordEnqueue settings (batch.map wire.parcel)⟩ ++
            (world.recordEnqueue settings (batch.map wire.parcel)).overflowed := by
        intro row member
        rw [← accounted.filter_insertMany] at member
        obtain ⟨inserted, unacknowledged⟩ := List.mem_filter.mp member
        by_cases stays :
            row ∈ ((world.client.outbox.insertMany (batch.map wire.parcel)).trim settings).rows
        · exact List.mem_append_left _ (List.mem_filter.mpr ⟨stays, unacknowledged⟩)
        · have gone := VisionObservationOutbox.mem_overflow_iff.mpr ⟨inserted, stays⟩
          apply List.mem_append_right
          exact List.mem_append_right _ (List.mem_filter.mpr ⟨gone, unacknowledged⟩)
      intro parcel member
      rcases List.mem_append.mp member with member | member
      · obtain ⟨known, knownMem, same⟩ := accounted.justified parcel member
        simp only [List.mem_append] at knownMem
        rcases knownMem with acknowledged | held | overflowed
        · exact ⟨known, List.mem_append_left _ acknowledged, same⟩
        · have stays := kept known (List.mem_append_left _ held)
          exact ⟨known, List.mem_append_right _ stays, same⟩
        · refine ⟨known, List.mem_append_right _ (List.mem_append_right _ ?_), same⟩
          exact List.mem_append_left _ overflowed
      · obtain ⟨row, rowMem, same⟩ := VisionObservationOutbox.holds_of_mem_ignored member
        rcases List.mem_append.mp rowMem with held | added
        · cases fresh : world.ledger.unacknowledged row with
          | true =>
              have stays := kept row (List.mem_append_left _ (List.mem_filter.mpr ⟨held, fresh⟩))
              exact ⟨row, List.mem_append_right _ stays, same⟩
          | false =>
              obtain ⟨known, knownMem, equal⟩ := accounted.acknowledged_of_open isOpen held fresh
              exact ⟨known, List.mem_append_left _ knownMem, equal.trans same⟩
        · have stays := kept row (List.mem_append_right _ added)
          exact ⟨row, List.mem_append_right _ stays, same⟩
    bounded := VisionObservationOutbox.length_rows_trim _ _
    holder := by
      intro phase same
      simp only [Option.some.injEq, Pass.mk.injEq] at same
      exact accounted.holder _ (same.1 ▸ pass)
    stopHolder := by
      intro phase same
      simp only [Option.some.injEq, Pass.mk.injEq] at same
      exact accounted.stopHolder _ (same.1 ▸ pass) }
end Steps

end OhanaAgent.Exporters
