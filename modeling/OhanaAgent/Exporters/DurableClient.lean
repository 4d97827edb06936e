import OhanaAgent.Exporters.Outbox
import OhanaAgent.Transition.Trace

/-!
# The durable Vision client

Producers append to a deque and never touch the outbox.  A flush, and the final
stop, copy the deque into the outbox under a lock and then drop the copied
payloads from its front; a flush goes on to deliver the oldest row, one at a
time, until Vision fails, the backlog is empty or the client stops.

The actions below are the points at which another thread can run: between the
copy of the deque, the transaction and each `popleft`, and between the reading
of the oldest row, its delivery and the mark.  An action that no thread can take
leaves the client as it is.
-/

namespace OhanaAgent.Exporters

open OhanaAgent.Transition OhanaAgent.Encoding.Json

universe u

/-- The two callers of `_persist_incoming`. -/
inductive Caller where
  | flush
  | stop
  deriving DecidableEq, Repr

/-- Where a persistence pass is: the deque was copied, or the copy is stored and
some payloads are still to be popped. -/
inductive Phase (α : Type u) where
  | copied (batch : List α)
  | popping (remaining : Nat)

/-- A persistence pass holds the lock of the deque. -/
structure Pass (α : Type u) where
  caller : Caller
  phase : Phase α

/-- Where the holder of the flush lock is. -/
inductive Flush (α : Type u) where
  | idle
  | persisting
  | looping
  | reading
  | sending (entry : VisionObservationOutboxEntry α)
  | delivered (entry : VisionObservationOutboxEntry α)
  | failed (entry : VisionObservationOutboxEntry α) (error : Text)

/-- Where the call of `stop` is. -/
inductive Stop where
  | running
  | signalled
  | persisting
  | persisted
  | closed
  deriving DecidableEq, Repr

/-- What Vision answers to a delivery: an acknowledgement, a `VisionClientError`
or another exception. -/
inductive Answer where
  | acknowledged
  | refused (error : Text)
  | raised
  deriving DecidableEq, Repr

/-- The points at which threads interleave. -/
inductive Action (α : Type u) where
  | send (payload : α)
  | flush
  | persist (caller : Caller)
  | enqueue
  | pop
  | release
  | check
  | oldest
  | deliver (answer : Answer)
  | mark
  | stop
  | close

/-- The client, the outbox it owns and the payloads Vision acknowledged. -/
structure DurableVisionClient (α : Type u) where
  outbox : VisionObservationOutbox
  incoming : List α
  pass : Option (Pass α)
  flushing : Flush α
  stopping : Stop
  received : List α

namespace DurableVisionClient

variable {α : Type u}

/-- A client over a new outbox. -/
def start : DurableVisionClient α where
  outbox := .empty
  incoming := []
  pass := none
  flushing := .idle
  stopping := .running
  received := []

/-- The connection of the outbox is closed: every statement on it raises. -/
def closed (client : DurableVisionClient α) : Bool :=
  client.stopping = .closed

/-- The stop event is set. -/
def stopSet (client : DurableVisionClient α) : Bool :=
  client.stopping ≠ .running

/-- Queue an observation; without an identity the call raises. -/
def sendObservation (client : DurableVisionClient α) (wire : Wire α) (payload : α) :
    DurableVisionClient α :=
  if (wire.observationId payload).isEmpty then client
  else { client with incoming := client.incoming ++ [payload] }

/-- A caller is about to enter `_persist_incoming`. -/
def wants (client : DurableVisionClient α) : Caller → Bool
  | .flush => match client.flushing with
      | .persisting => true
      | _ => false
  | .stop => client.stopping = .persisting

/-- The caller takes the lock and copies the deque. -/
def persistIncoming (client : DurableVisionClient α) (caller : Caller) : DurableVisionClient α :=
  if client.pass.isNone && client.wants caller then
    { client with pass := some ⟨caller, .copied client.incoming⟩ }
  else client

/-- An exception leaves the pass and its caller; both locks are released. -/
def abandon (client : DurableVisionClient α) : Caller → DurableVisionClient α
  | .flush => { client with pass := none, flushing := .idle }
  | .stop => { client with pass := none, stopping := .signalled }

/-- The transaction of a pass.  An empty batch does not touch the connection. -/
def enqueueBatch (client : DurableVisionClient α) (settings : Settings) (wire : Wire α) :
    DurableVisionClient α :=
  match client.pass with
  | some ⟨caller, .copied batch⟩ =>
      if client.closed && !batch.isEmpty then client.abandon caller
      else match client.outbox.enqueueMany settings wire batch with
        | .error _ => client.abandon caller
        | .ok outbox =>
            { client with outbox := outbox, pass := some ⟨caller, .popping batch.length⟩ }
  | _ => client

/-- One `popleft`. -/
def popIncoming (client : DurableVisionClient α) : DurableVisionClient α :=
  match client.pass with
  | some ⟨caller, .popping (remaining + 1)⟩ =>
      { client with
        incoming := client.incoming.tail
        pass := some ⟨caller, .popping remaining⟩ }
  | _ => client

/-- The pass is over and its caller goes on. -/
def releaseIncoming (client : DurableVisionClient α) : DurableVisionClient α :=
  match client.pass with
  | some ⟨.flush, .popping 0⟩ => { client with pass := none, flushing := .looping }
  | some ⟨.stop, .popping 0⟩ => { client with pass := none, stopping := .persisted }
  | _ => client

/-- A flush takes the flush lock. -/
def beginFlush (client : DurableVisionClient α) : DurableVisionClient α :=
  match client.flushing with
  | .idle => { client with flushing := .persisting }
  | _ => client

/-- The test of the loop: a set stop event ends the flush. -/
def checkStop (client : DurableVisionClient α) : DurableVisionClient α :=
  match client.flushing with
  | .looping => { client with flushing := if client.stopSet then .idle else .reading }
  | _ => client

/-- Read the oldest entry; the flush ends on an empty backlog, and raises on a
closed connection. -/
def readOldest (client : DurableVisionClient α) (wire : Wire α) : DurableVisionClient α :=
  match client.flushing with
  | .reading =>
      if client.closed then { client with flushing := .idle }
      else match client.outbox.oldest wire with
        | none => { client with flushing := .idle }
        | some entry => { client with flushing := .sending entry }
  | _ => client

/-- Vision answers a delivery. -/
def deliverEntry (client : DurableVisionClient α) (answer : Answer) : DurableVisionClient α :=
  match client.flushing with
  | .sending entry =>
      match answer with
      | .acknowledged =>
          { client with
            flushing := .delivered entry
            received := client.received ++ [entry.payload] }
      | .refused error => { client with flushing := .failed entry error }
      | .raised => { client with flushing := .idle }
  | _ => client

/-- The mark that follows a delivery, raising on a closed connection. -/
def markEntry (client : DurableVisionClient α) : DurableVisionClient α :=
  match client.flushing with
  | .delivered entry =>
      if client.closed then { client with flushing := .idle }
      else
        { client with
          outbox := client.outbox.markDelivered entry.observationId
          flushing := .looping }
  | .failed entry error =>
      if client.closed then { client with flushing := .idle }
      else
        { client with
          outbox := client.outbox.markFailed entry.observationId error
          flushing := .idle }
  | _ => client

/-- Set the stop event; the stop goes on to its own persistence pass. -/
def beginStop (client : DurableVisionClient α) : DurableVisionClient α :=
  match client.stopping with
  | .running => { client with stopping := .persisting }
  | .signalled => { client with stopping := .persisting }
  | _ => client

/-- Close the outbox once the last pass is over. -/
def closeOutbox (client : DurableVisionClient α) : DurableVisionClient α :=
  match client.stopping with
  | .persisted => { client with stopping := .closed }
  | _ => client

/-- One action of one thread. -/
def step (settings : Settings) (wire : Wire α) (client : DurableVisionClient α) :
    Action α → DurableVisionClient α
  | .send payload => client.sendObservation wire payload
  | .flush => client.beginFlush
  | .persist caller => client.persistIncoming caller
  | .enqueue => client.enqueueBatch settings wire
  | .pop => client.popIncoming
  | .release => client.releaseIncoming
  | .check => client.checkStop
  | .oldest => client.readOldest wire
  | .deliver answer => client.deliverEntry answer
  | .mark => client.markEntry
  | .stop => client.beginStop
  | .close => client.closeOutbox

end DurableVisionClient

end OhanaAgent.Exporters
