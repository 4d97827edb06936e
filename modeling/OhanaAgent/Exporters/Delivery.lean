import OhanaAgent.Exporters.Custody

/-!
# Durable delivery

Every action keeps the account of the ledger, and so does every interleaving.
-/

namespace OhanaAgent.Exporters

open OhanaAgent.Transition OhanaAgent.Encoding.Json OhanaAgent.Store

universe u

variable {α : Type u}

section Steps

variable {settings : Settings} {wire : Wire α} {sent : List α} {world : World α}

/-! ## One action -/

theorem Accounted.next_persist (accounted : Accounted settings wire sent world)
    (caller : Caller) :
    Accounted settings wire sent (world.next settings wire (.persist caller)) := by
  change Accounted settings wire sent ⟨world.client.persistIncoming caller, world.ledger⟩
  unfold DurableVisionClient.persistIncoming
  split
  · next free =>
      obtain ⟨noPass, wants⟩ := Bool.and_eq_true_iff.mp free
      have none : world.client.pass = none := Option.isNone_iff_eq_none.mp noPass
      apply accounted.turn
      · simp only [World.waiting, none]
      · intro caller' batch same
        simp only [Option.some.injEq, Pass.mk.injEq, Phase.copied.injEq] at same
        exact same.2 ▸ List.prefix_refl _
      · intro caller' remaining same
        simp at same
      · intro phase same
        simp only [Option.some.injEq, Pass.mk.injEq] at same
        rw [same.1] at wants
        cases flushing : world.client.flushing with
        | persisting => rfl
        | _ => simp [DurableVisionClient.wants, flushing] at wants
      · intro phase same
        simp only [Option.some.injEq, Pass.mk.injEq] at same
        rw [same.1] at wants
        exact of_decide_eq_true wants
  · exact accounted

/-- A pass ends without touching the outbox. -/
theorem Accounted.endPass (accounted : Accounted settings wire sent world)
    (waiting : World.waiting ⟨{ world.client with pass := none }, world.ledger⟩ = world.waiting) :
    Accounted settings wire sent ⟨{ world.client with pass := none }, world.ledger⟩ := by
  apply accounted.turn waiting
  · intro caller batch same
    cases same
  · intro caller remaining same
    cases same
  · intro phase same
    cases same
  · intro phase same
    cases same

/-- The flush goes on after its pass. -/
theorem Accounted.afterPass (accounted : Accounted settings wire sent world) {flushing : Flush α}
    (persisting : world.client.flushing = .persisting) (none : world.client.pass = none)
    (notSending : ∀ entry, flushing ≠ .sending entry)
    (notDelivered : ∀ entry, flushing ≠ .delivered entry) :
    Accounted settings wire sent ⟨{ world.client with flushing := flushing }, world.ledger⟩ := by
  apply accounted.moveOn notSending notDelivered
  · intro entry same
    rw [persisting] at same
    cases same
  · intro phase same
    rw [none] at same
    cases same

/-- The stop goes on after its pass. -/
theorem Accounted.afterStopPass (accounted : Accounted settings wire sent world) {stopping : Stop}
    (persisting : world.client.stopping = .persisting) (none : world.client.pass = none) :
    Accounted settings wire sent ⟨{ world.client with stopping := stopping }, world.ledger⟩ := by
  apply accounted.halt
  · intro closed
    rw [persisting] at closed
    cases closed
  · intro phase same
    rw [none] at same
    cases same

/-- An exception inside a pass. -/
theorem Accounted.abandon (accounted : Accounted settings wire sent world) {caller : Caller}
    {batch : List α} (pass : world.client.pass = some ⟨caller, .copied batch⟩) :
    Accounted settings wire sent ⟨world.client.abandon caller, world.ledger⟩ := by
  have released : Accounted settings wire sent
      ⟨{ world.client with pass := none }, world.ledger⟩ :=
    accounted.endPass (by simp only [World.waiting, pass])
  cases caller with
  | flush => exact released.afterPass (accounted.holder _ pass) rfl (by simp) (by simp)
  | stop => exact released.afterStopPass (accounted.stopHolder _ pass) rfl

/-- The enqueue of a pass stores its batch, does nothing for an empty one, or
raises. -/
theorem Accounted.enqueue (accounted : Accounted settings wire sent world) {caller : Caller}
    {batch : List α} (pass : world.client.pass = some ⟨caller, .copied batch⟩) :
    Accounted settings wire sent (world.next settings wire .enqueue) := by
  simp only [World.next, DurableVisionClient.step, DurableVisionClient.enqueueBatch,
    World.record, World.stored, pass]
  cases empty : batch.isEmpty with
  | true =>
      obtain rfl : batch = [] := List.isEmpty_iff.mp empty
      simp only [List.isEmpty_nil, Bool.not_true, Bool.and_false, Bool.false_eq_true, if_false,
        VisionObservationOutbox.enqueueMany, List.any_nil, if_true, Bool.true_or]
      apply accounted.turn
      · simp only [World.waiting, pass, List.length_nil, List.drop_zero]
      · intro caller' batch' same
        simp at same
      · intro caller' remaining same
        simp only [Option.some.injEq, Pass.mk.injEq, Phase.popping.injEq] at same
        rw [← same.2]
        exact Nat.zero_le _
      · intro phase same
        simp only [Option.some.injEq, Pass.mk.injEq] at same
        exact accounted.holder _ (same.1 ▸ pass)
      · intro phase same
        simp only [Option.some.injEq, Pass.mk.injEq] at same
        exact accounted.stopHolder _ (same.1 ▸ pass)
  | false =>
      cases isOpen : world.client.closed with
      | true => simpa using accounted.abandon pass
      | false =>
          cases anonymous : batch.any fun payload => (wire.observationId payload).isEmpty with
          | true =>
              simp only [VisionObservationOutbox.enqueueMany, anonymous, Bool.false_and,
                Bool.false_eq_true, if_false, if_true, Bool.or_true]
              exact accounted.abandon pass
          | false =>
              simp only [VisionObservationOutbox.enqueueMany, anonymous, empty, Bool.false_and,
                Bool.false_eq_true, if_false, Bool.or_false]
              exact accounted.store pass isOpen

theorem Accounted.next_enqueue (accounted : Accounted settings wire sent world) :
    Accounted settings wire sent (world.next settings wire .enqueue) := by
  have unchanged (idle : ∀ caller batch, world.client.pass ≠ some ⟨caller, .copied batch⟩) :
      world.next settings wire .enqueue = world := by
    cases pass : world.client.pass with
    | none =>
        simp [World.next, DurableVisionClient.step, DurableVisionClient.enqueueBatch,
          World.record, World.stored, pass]
    | some held =>
        obtain ⟨caller, phase⟩ := held
        cases phase with
        | copied batch => exact absurd pass (idle caller batch)
        | popping remaining =>
            simp [World.next, DurableVisionClient.step, DurableVisionClient.enqueueBatch,
              World.record, World.stored, pass]
  by_cases copied : ∃ caller batch, world.client.pass = some ⟨caller, .copied batch⟩
  · obtain ⟨caller, batch, pass⟩ := copied
    exact accounted.enqueue pass
  · rw [unchanged (fun caller batch pass => copied ⟨caller, batch, pass⟩)]
    exact accounted

theorem Accounted.next_pop (accounted : Accounted settings wire sent world) :
    Accounted settings wire sent (world.next settings wire .pop) := by
  change Accounted settings wire sent ⟨world.client.popIncoming, world.ledger⟩
  unfold DurableVisionClient.popIncoming
  split
  · next caller remaining pass => exact accounted.pop pass
  · exact accounted

theorem Accounted.next_release (accounted : Accounted settings wire sent world) :
    Accounted settings wire sent (world.next settings wire .release) := by
  change Accounted settings wire sent ⟨world.client.releaseIncoming, world.ledger⟩
  unfold DurableVisionClient.releaseIncoming
  split
  · next pass =>
      have released : Accounted settings wire sent
          ⟨{ world.client with pass := none }, world.ledger⟩ :=
        accounted.endPass (by simp only [World.waiting, pass, List.drop_zero])
      exact released.afterPass (accounted.holder _ pass) rfl (by simp) (by simp)
  · next pass =>
      have released : Accounted settings wire sent
          ⟨{ world.client with pass := none }, world.ledger⟩ :=
        accounted.endPass (by simp only [World.waiting, pass, List.drop_zero])
      exact released.afterStopPass (accounted.stopHolder _ pass) rfl
  · exact accounted

/-- The flush goes on outside its pass. -/
theorem Accounted.proceed (accounted : Accounted settings wire sent world) {flushing : Flush α}
    (notPersisting : world.client.flushing ≠ .persisting)
    (marked : ∀ entry, world.client.flushing = .delivered entry → world.client.closed = true)
    (notSending : ∀ entry, flushing ≠ .sending entry)
    (notDelivered : ∀ entry, flushing ≠ .delivered entry) :
    Accounted settings wire sent ⟨{ world.client with flushing := flushing }, world.ledger⟩ := by
  apply accounted.moveOn notSending notDelivered marked
  intro phase pass
  exact absurd (accounted.holder phase pass) notPersisting

theorem Accounted.next_flush (accounted : Accounted settings wire sent world) :
    Accounted settings wire sent (world.next settings wire .flush) := by
  change Accounted settings wire sent ⟨world.client.beginFlush, world.ledger⟩
  unfold DurableVisionClient.beginFlush
  split
  · next idle => exact accounted.proceed (by simp [idle]) (by simp [idle]) (by simp) (by simp)
  · exact accounted

theorem Accounted.next_check (accounted : Accounted settings wire sent world) :
    Accounted settings wire sent (world.next settings wire .check) := by
  change Accounted settings wire sent ⟨world.client.checkStop, world.ledger⟩
  unfold DurableVisionClient.checkStop
  split
  · next looping =>
      apply accounted.proceed (by simp [looping]) (by simp [looping])
      · intro entry
        split <;> simp
      · intro entry
        split <;> simp
  · exact accounted

/-- What was read last does not matter outside a delivery. -/
theorem Accounted.forget (accounted : Accounted settings wire sent world)
    (inFlight : Option OutboxRow)
    (notSending : ∀ entry, world.client.flushing ≠ .sending entry) :
    Accounted settings wire sent
      ⟨world.client, { world.ledger with inFlight := inFlight }⟩ where
  received := accounted.received
  ordered := by
    have queue : World.queue ⟨world.client, { world.ledger with inFlight := inFlight }⟩ =
        world.queue := (deliveryOrder_of_not_sending _ _ notSending).trans
          (deliveryOrder_of_not_sending _ _ notSending).symm
    rw [queue]
    exact accounted.ordered
  conserved := accounted.conserved
  copied := accounted.copied
  popping := accounted.popping
  sending := fun entry same => absurd same (notSending entry)
  marking := accounted.marking
  settled := accounted.settled
  allocated := accounted.allocated
  justified := accounted.justified
  bounded := accounted.bounded
  holder := accounted.holder
  stopHolder := accounted.stopHolder

theorem Accounted.next_oldest (accounted : Accounted settings wire sent world) :
    Accounted settings wire sent (world.next settings wire .oldest) := by
  simp only [World.next, DurableVisionClient.step, DurableVisionClient.readOldest, World.record]
  cases reading : world.client.flushing with
  | reading =>
      have forgotten (inFlight : Option OutboxRow) : Accounted settings wire sent
          ⟨{ world.client with flushing := .idle }, { world.ledger with inFlight := inFlight }⟩ :=
        (accounted.forget inFlight (by simp [reading])).proceed
          (by simp [reading]) (by simp [reading]) (by simp) (by simp)
      cases isOpen : world.client.closed with
      | true => exact forgotten _
      | false =>
          cases rows : world.client.outbox.rows with
          | nil =>
              simp only [VisionObservationOutbox.oldest, rows, List.head?_nil, Option.map_none]
              exact forgotten _
          | cons row rest =>
              simp only [VisionObservationOutbox.oldest, rows, List.head?_cons, Option.map_some]
              exact accounted.read reading isOpen rows
  | _ => exact accounted

theorem Accounted.next_deliver (accounted : Accounted settings wire sent world)
    (answer : Answer) :
    Accounted settings wire sent (world.next settings wire (.deliver answer)) := by
  by_cases sending : ∃ entry, world.client.flushing = .sending entry
  · obtain ⟨entry, sending⟩ := sending
    obtain ⟨row, underWay⟩ := accounted.sending entry sending
    cases answer with
    | acknowledged =>
        simp only [World.next, DurableVisionClient.step, DurableVisionClient.deliverEntry,
          World.record, sending, underWay.inFlight]
        exact accounted.acknowledge sending underWay
    | refused error =>
        simp only [World.next, DurableVisionClient.step, DurableVisionClient.deliverEntry,
          World.record, sending]
        exact accounted.proceed (by simp [sending]) (by simp [sending]) (by simp) (by simp)
    | raised =>
        simp only [World.next, DurableVisionClient.step, DurableVisionClient.deliverEntry,
          World.record, sending]
        exact accounted.proceed (by simp [sending]) (by simp [sending]) (by simp) (by simp)
  · have unchanged : world.next settings wire (.deliver answer) = world := by
      simp only [World.next, DurableVisionClient.step, DurableVisionClient.deliverEntry]
      cases flushing : world.client.flushing with
      | sending entry => exact absurd ⟨entry, flushing⟩ sending
      | _ => cases answer <;> simp [World.record, flushing]
    rw [unchanged]
    exact accounted

theorem Accounted.next_mark (accounted : Accounted settings wire sent world) :
    Accounted settings wire sent (world.next settings wire .mark) := by
  simp only [World.next, DurableVisionClient.step, DurableVisionClient.markEntry, World.record]
  cases flushing : world.client.flushing with
  | delivered entry =>
      cases isOpen : world.client.closed with
      | true => exact accounted.proceed (by simp [flushing]) (fun _ _ => isOpen) (by simp) (by simp)
      | false => exact accounted.markDelivered flushing isOpen
  | failed entry error =>
      cases isOpen : world.client.closed with
      | true => exact accounted.proceed (by simp [flushing]) (fun _ _ => isOpen) (by simp) (by simp)
      | false => exact accounted.markFailed flushing
  | _ => exact accounted

theorem Accounted.next_stop (accounted : Accounted settings wire sent world) :
    Accounted settings wire sent (world.next settings wire .stop) := by
  change Accounted settings wire sent ⟨world.client.beginStop, world.ledger⟩
  unfold DurableVisionClient.beginStop
  split
  · next running => exact accounted.halt (by simp [running]) (fun _ _ => rfl)
  · next signalled => exact accounted.halt (by simp [signalled]) (fun _ _ => rfl)
  · exact accounted

theorem Accounted.next_close (accounted : Accounted settings wire sent world) :
    Accounted settings wire sent (world.next settings wire .close) := by
  change Accounted settings wire sent ⟨world.client.closeOutbox, world.ledger⟩
  unfold DurableVisionClient.closeOutbox
  split
  · next persisted =>
      apply accounted.halt (fun _ => rfl)
      intro phase pass
      have persisting := accounted.stopHolder phase pass
      rw [persisted] at persisting
      cases persisting
  · exact accounted

theorem Accounted.next_send (accounted : Accounted settings wire sent world) (payload : α) :
    Accounted settings wire (sent ++ sends wire [.send payload])
      (world.next settings wire (.send payload)) := by
  simp only [World.next, DurableVisionClient.step, DurableVisionClient.sendObservation,
    World.record, sends, List.filterMap_cons, List.filterMap_nil]
  cases anonymous : (wire.observationId payload).isEmpty with
  | true =>
      simp only [if_true, List.append_nil]
      exact accounted
  | false =>
      simp only [Bool.false_eq_true, if_false]
      exact accounted.send payload

/-- Every action keeps the account. -/
theorem Accounted.next (accounted : Accounted settings wire sent world) (action : Action α) :
    Accounted settings wire (sent ++ sends wire [action]) (world.next settings wire action) := by
  cases action with
  | send payload => exact accounted.next_send payload
  | flush => simpa [sends] using accounted.next_flush
  | persist caller => simpa [sends] using accounted.next_persist caller
  | enqueue => simpa [sends] using accounted.next_enqueue
  | pop => simpa [sends] using accounted.next_pop
  | release => simpa [sends] using accounted.next_release
  | check => simpa [sends] using accounted.next_check
  | oldest => simpa [sends] using accounted.next_oldest
  | deliver answer => simpa [sends] using accounted.next_deliver answer
  | mark => simpa [sends] using accounted.next_mark
  | stop => simpa [sends] using accounted.next_stop
  | close => simpa [sends] using accounted.next_close

end Steps

/-! ## Whole runs -/

/-- The client and its ledger after a list of actions. -/
def World.after (settings : Settings) (wire : Wire α) (actions : List (Action α)) : World α :=
  reached (World.next settings wire) World.start actions

theorem accounted_after (settings : Settings) (wire : Wire α) (actions : List (Action α)) :
    Accounted settings wire (sends wire actions) (World.after settings wire actions) := by
  refine trace_induction (I := fun labels world =>
    Accounted settings wire (sends wire labels) world) accounted_start ?_ actions
  intro labels label accounted
  have split : sends wire (labels ++ [label]) = sends wire labels ++ sends wire [label] :=
    List.filterMap_append
  rw [split]
  exact accounted.next label

section Consequences

variable {settings : Settings} {wire : Wire α} {sent : List α} {world : World α}

/-- Vision receives what was sent, in order. -/
theorem Accounted.received_sublist (accounted : Accounted settings wire sent world) :
    world.client.received.Sublist (sent.map fun payload => wire.loads (wire.dumps payload)) := by
  have prefixed : (world.ledger.acknowledged.map OutboxRow.parcel).Sublist
      (sent.map wire.parcel) :=
    (List.sublist_append_left _ _).trans accounted.ordered
  have loaded := prefixed.map fun parcel => wire.loads parcel.payloadJson
  rw [List.map_map, List.map_map] at loaded
  rw [accounted.received]
  exact loaded

/-- With distinct identities nothing is left out as a duplicate. -/
theorem Accounted.duplicates_eq_nil (accounted : Accounted settings wire sent world)
    (distinct : (sent.map wire.observationId).Nodup) : world.ledger.duplicates = [] := by
  rw [List.eq_nil_iff_forall_not_mem]
  intro parcel member
  obtain ⟨row, rowMem, same⟩ := accounted.justified parcel member
  have identities := accounted.conserved.map Parcel.observationId
  rw [List.map_map] at identities
  have once := identities.nodup_iff.mp distinct
  simp only [List.map_append] at once
  have duplicate := List.mem_map_of_mem (f := Parcel.observationId) member
  have stored := List.mem_map_of_mem (f := Parcel.observationId ∘ OutboxRow.parcel) rowMem
  simp only [List.map_append, List.mem_append, ← List.map_map] at stored
  obtain ⟨_, restOnce, acknowledgedApart⟩ := List.nodup_append'.mp once
  obtain ⟨_, laterOnce, pendingApart⟩ := List.nodup_append'.mp restOnce
  obtain ⟨_, goneOnce, _⟩ := List.nodup_append'.mp laterOnce
  obtain ⟨_, _, overflowedApart⟩ := List.nodup_append'.mp goneOnce
  rw [← same] at duplicate
  rcases stored with acknowledged | pending | overflowed
  · exact acknowledgedApart acknowledged (by simp [duplicate])
  · exact pendingApart pending (by simp [duplicate])
  · exact overflowedApart overflowed duplicate

/-- Only an enqueue and a mark write to the outbox. -/
theorem outbox_step {client : DurableVisionClient α} {action : Action α}
    (noEnqueue : action ≠ .enqueue) (noMark : action ≠ .mark) :
    (client.step settings wire action).outbox = client.outbox := by
  cases action with
  | enqueue => exact absurd rfl noEnqueue
  | mark => exact absurd rfl noMark
  | send payload =>
      simp only [DurableVisionClient.step, DurableVisionClient.sendObservation]
      split <;> rfl
  | flush =>
      simp only [DurableVisionClient.step, DurableVisionClient.beginFlush]
      split <;> rfl
  | persist caller =>
      simp only [DurableVisionClient.step, DurableVisionClient.persistIncoming]
      split <;> rfl
  | pop =>
      simp only [DurableVisionClient.step, DurableVisionClient.popIncoming]
      split <;> rfl
  | release =>
      simp only [DurableVisionClient.step, DurableVisionClient.releaseIncoming]
      split <;> rfl
  | check =>
      simp only [DurableVisionClient.step, DurableVisionClient.checkStop]
      split <;> rfl
  | oldest =>
      simp only [DurableVisionClient.step, DurableVisionClient.readOldest]
      repeat' split
      all_goals rfl
  | deliver answer =>
      simp only [DurableVisionClient.step, DurableVisionClient.deliverEntry]
      repeat' split
      all_goals rfl
  | stop =>
      simp only [DurableVisionClient.step, DurableVisionClient.beginStop]
      split <;> rfl
  | close =>
      simp only [DurableVisionClient.step, DurableVisionClient.closeOutbox]
      split <;> rfl

/-- An enqueue leaves the outbox as it is, or stores a batch and trims. -/
theorem outbox_enqueue {client : DurableVisionClient α} :
    (client.step settings wire .enqueue).outbox = client.outbox ∨
      ∃ parcels, (client.step settings wire .enqueue).outbox =
        (client.outbox.insertMany parcels).trim settings := by
  have abandoned (caller : Caller) : (client.abandon caller).outbox = client.outbox := by
    cases caller <;> rfl
  simp only [DurableVisionClient.step, DurableVisionClient.enqueueBatch]
  split
  · next caller batch _ =>
      split
      · exact Or.inl (abandoned caller)
      · simp only [VisionObservationOutbox.enqueueMany]
        cases batch.any fun payload => (wire.observationId payload).isEmpty with
        | true => exact Or.inl (abandoned caller)
        | false =>
            cases batch.isEmpty with
            | true => exact Or.inl rfl
            | false => exact Or.inr ⟨batch.map wire.parcel, rfl⟩
  · exact Or.inl rfl

/-- A row leaves the outbox when newer rows fill it, after its delivery, or with
the delivered row of its identity. -/
theorem removed_row (action : Action α) {row : OutboxRow}
    (member : row ∈ world.client.outbox.rows)
    (gone : ∀ kept ∈ (world.next settings wire action).client.outbox.rows,
      kept.sequence ≠ row.sequence) :
    ((world.next settings wire action).client.outbox.rows.length = settings.maxEntries ∧
      ∀ kept ∈ (world.next settings wire action).client.outbox.rows,
        row.sequence < kept.sequence) ∨
      world.ledger.unacknowledged row = false ∨
      row.parcel ∈ (world.next settings wire action).ledger.duplicates := by
  have moved : (world.client.step settings wire action).outbox ≠ world.client.outbox := by
    intro same
    exact gone row (same.symm ▸ member) rfl
  by_cases enqueue : action = .enqueue
  · subst enqueue
    obtain ⟨parcels, stored⟩ := outbox_enqueue.resolve_left moved
    have inserted : row ∈ (world.client.outbox.insertMany parcels).rows := by
      rw [VisionObservationOutbox.rows_insertMany]
      exact List.mem_append_left _ member
    have trimmed : row ∉ ((world.client.outbox.insertMany parcels).trim settings).rows := by
      intro stays
      exact gone row (stored.symm ▸ stays) rfl
    left
    have next : (world.next settings wire .enqueue).client.outbox =
        (world.client.outbox.insertMany parcels).trim settings := stored
    rw [next]
    exact VisionObservationOutbox.overflow_older inserted trimmed
  by_cases mark : action = .mark
  · subst mark
    right
    simp only [World.next, DurableVisionClient.step, DurableVisionClient.markEntry,
      World.record] at gone moved ⊢
    cases flushing : world.client.flushing with
    | delivered entry =>
        cases isOpen : world.client.closed with
        | true => simp [flushing, isOpen] at moved
        | false =>
            simp only [flushing, isOpen, Bool.false_eq_true, if_false] at gone ⊢
            cases fresh : world.ledger.unacknowledged row with
            | false => exact Or.inl rfl
            | true =>
                have identity : row.observationId = entry.observationId := by
                  by_contra different
                  exact gone row (List.mem_filter.mpr ⟨member, by simp [different]⟩) rfl
                have pending : row ∈ world.pending := List.mem_filter.mpr ⟨member, fresh⟩
                have marked : row ∈ world.pending.filter fun other =>
                    other.observationId = entry.observationId :=
                  List.mem_filter.mpr ⟨pending, decide_eq_true identity⟩
                exact Or.inr (List.mem_append_right _ (List.mem_map_of_mem marked))
    | failed entry error =>
        cases isOpen : world.client.closed with
        | true => simp [flushing, isOpen] at moved
        | false =>
            simp only [flushing, isOpen, Bool.false_eq_true, if_false] at gone
            have written := List.mem_map_of_mem
              (f := OutboxRow.markFailed entry.observationId error) member
            exact absurd (row.sequence_markFailed _ _) (gone _ written)
    | _ => simp [flushing] at moved
  · exact absurd (outbox_step enqueue mark) moved

/-- A batch is stored by the enqueue of its pass. -/
theorem outbox_of_stored {batch : List α} (stored : world.stored wire = some batch) :
    (world.client.step settings wire .enqueue).outbox =
      (world.client.outbox.insertMany (batch.map wire.parcel)).trim settings := by
  unfold World.stored at stored
  split at stored
  · next caller copied pass =>
      split at stored
      · cases stored
      · next accepted =>
          obtain rfl := Option.some.inj stored
          simp only [Bool.or_eq_true, not_or, Bool.not_eq_true] at accepted
          obtain ⟨⟨filled, isOpen⟩, named⟩ := accepted
          simp [DurableVisionClient.step, DurableVisionClient.enqueueBatch, pass, isOpen,
            VisionObservationOutbox.enqueueMany, named, filled]
  · cases stored

/-- A row overflows when newer rows fill the outbox. -/
theorem overflowed_row (action : Action α) {row : OutboxRow}
    (member : row ∈ (world.next settings wire action).ledger.overflowed)
    (before : row ∉ world.ledger.overflowed) :
    (world.next settings wire action).client.outbox.rows.length = settings.maxEntries ∧
      ∀ kept ∈ (world.next settings wire action).client.outbox.rows,
        row.sequence < kept.sequence := by
  cases action with
  | enqueue =>
      simp only [World.next, World.record] at member ⊢
      split at member
      · next batch stored =>
          rw [outbox_of_stored stored]
          rcases List.mem_append.mp member with member | member
          · exact absurd member before
          · obtain ⟨inserted, trimmed⟩ :=
              VisionObservationOutbox.mem_overflow_iff.mp (List.mem_of_mem_filter member)
            exact VisionObservationOutbox.overflow_older inserted trimmed
      · exact absurd member before
  | oldest =>
      simp only [World.next, World.record] at member
      split at member <;> exact absurd member before
  | deliver answer =>
      refine absurd ?_ before
      cases answer with
      | acknowledged =>
          simp only [World.next, World.record] at member
          split at member
          · simp only [World.recordAcknowledged] at member
            split at member
            · exact member
            · exact List.mem_of_mem_erase member
          · exact member
      | refused error => exact member
      | raised => exact member
  | mark =>
      simp only [World.next, World.record] at member
      repeat' split at member
      all_goals exact absurd member before
  | _ => exact absurd member before

end Consequences

/-- Durable delivery, for every interleaving: Vision acknowledges what was sent
in the order in which it was sent, and every payload that was sent is, each
once, acknowledged, in the outbox, in memory, dropped by the overflow of the
outbox, or a duplicate of an observation identity that was stored; with distinct
identities there are no duplicates.  A row that leaves the outbox was
acknowledged, is older than the rows that fill the outbox, or is a duplicate. -/
theorem durable_delivery (settings : Settings) (wire : Wire α) (actions : List (Action α)) :
    (World.after settings wire actions).client.received.Sublist
        ((sends wire actions).map fun payload => wire.loads (wire.dumps payload)) ∧
      (World.after settings wire actions).client.received =
        (World.after settings wire actions).ledger.acknowledged.map
          (fun row => wire.loads row.payloadJson) ∧
      ((sends wire actions).map wire.parcel).Perm
        ((World.after settings wire actions).ledger.acknowledged.map OutboxRow.parcel ++
          ((World.after settings wire actions).pending.map OutboxRow.parcel ++
            ((World.after settings wire actions).waiting.map wire.parcel ++
              ((World.after settings wire actions).ledger.overflowed.map OutboxRow.parcel ++
                (World.after settings wire actions).ledger.duplicates)))) ∧
      (∀ parcel ∈ (World.after settings wire actions).ledger.duplicates,
        ∃ row ∈ (World.after settings wire actions).ledger.acknowledged ++
          ((World.after settings wire actions).pending ++
            (World.after settings wire actions).ledger.overflowed),
          row.observationId = parcel.observationId) ∧
      (((sends wire actions).map wire.observationId).Nodup →
        (World.after settings wire actions).ledger.duplicates = []) ∧
      (∀ action, ∀ row ∈ (World.after settings wire actions).client.outbox.rows,
        (∀ kept ∈ (World.after settings wire (actions ++ [action])).client.outbox.rows,
          kept.sequence ≠ row.sequence) →
        ((World.after settings wire (actions ++ [action])).client.outbox.rows.length =
            settings.maxEntries ∧
          ∀ kept ∈ (World.after settings wire (actions ++ [action])).client.outbox.rows,
            row.sequence < kept.sequence) ∨
        (World.after settings wire actions).ledger.unacknowledged row = false ∨
        row.parcel ∈ (World.after settings wire (actions ++ [action])).ledger.duplicates) ∧
      (∀ action, ∀ row ∈ (World.after settings wire (actions ++ [action])).ledger.overflowed,
        row ∉ (World.after settings wire actions).ledger.overflowed →
        (World.after settings wire (actions ++ [action])).client.outbox.rows.length =
            settings.maxEntries ∧
          ∀ kept ∈ (World.after settings wire (actions ++ [action])).client.outbox.rows,
            row.sequence < kept.sequence) ∧
      (World.after settings wire actions).client.outbox.rows.length ≤ settings.maxEntries := by
  have accounted := accounted_after settings wire actions
  have concat (action : Action α) : World.after settings wire (actions ++ [action]) =
      (World.after settings wire actions).next settings wire action := reached_concat
  refine ⟨accounted.received_sublist, accounted.received, accounted.conserved,
    accounted.justified, accounted.duplicates_eq_nil, ?_, ?_, accounted.bounded⟩
  · intro action row member gone
    rw [concat] at gone ⊢
    exact removed_row action member gone
  · intro action row member before
    rw [concat] at member ⊢
    exact overflowed_row action member before

/-! ## A second payload of one identity -/

/-- An observation of the state of a service. -/
structure StatusPayload where
  observationId : Text
  status : Text
  deriving DecidableEq, Repr

/-- A text field of a JSON object, empty without one. -/
def textField (key : Text) (fields : Fields) : Text :=
  match fields.lookup key with
  | some (.string content) => content
  | _ => []

def observationIdKey : Text := ['o', 'b', 's', 'e', 'r', 'v', 'a', 't', 'i', 'o', 'n', '_', 'i', 'd']

def statusKey : Text := ['s', 't', 'a', 't', 'u', 's']

/-- The JSON form of a status. -/
def statusWire : Wire StatusPayload where
  observationId := fun payload => payload.observationId
  dumps := fun payload => dumps (.object (.ofList
    [(observationIdKey, .string payload.observationId), (statusKey, .string payload.status)]))
  loads := fun text =>
    match loads text with
    | some (.object fields) => ⟨textField observationIdKey fields, textField statusKey fields⟩
    | _ => ⟨[], []⟩

def firstStatus : StatusPayload := ⟨['a'], ['u', 'p']⟩

def secondStatus : StatusPayload := ⟨['a'], ['d', 'o', 'w', 'n']⟩

def defaultSettings : Settings := ⟨50000, by decide⟩

/-- Two statuses of one observation identity, one flush that delivers what is in
the outbox, and the stop. -/
def repeatedIdentity : List (Action StatusPayload) :=
  [.send firstStatus, .send secondStatus, .flush, .persist .flush, .enqueue, .pop, .pop, .release,
    .check, .oldest, .deliver .acknowledged, .mark, .check, .oldest, .stop, .persist .stop,
    .enqueue, .release, .close]

/-- The second payload of an observation identity is not kept: it is neither
acknowledged nor in memory nor in the outbox, and nothing overflowed. -/
theorem repeated_identity_not_kept :
    sends statusWire repeatedIdentity = [firstStatus, secondStatus] ∧
      (World.after defaultSettings statusWire repeatedIdentity).client.received = [firstStatus] ∧
      (World.after defaultSettings statusWire repeatedIdentity).client.incoming = [] ∧
      (World.after defaultSettings statusWire repeatedIdentity).client.outbox.rows = [] ∧
      (World.after defaultSettings statusWire repeatedIdentity).ledger.overflowed = [] ∧
      (World.after defaultSettings statusWire repeatedIdentity).client.stopping = .closed := by
  decide +kernel

end OhanaAgent.Exporters
