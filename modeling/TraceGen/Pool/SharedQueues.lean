/-!
# Shared queues

A queue of work is known by handles. `share` makes a further handle for the queue of a handle, so
that what is put through one comes out through the other, and `addQueue` makes a handle for a queue
of its own. A queue gives its items in the order in which they were put. The workers of a run share
the queue of §4.1 of `SPEC_FULL.md` in this way.
-/

namespace TraceGen

/-- What can be wrong with a queue. -/
inductive QueueError where
  /-- There is nothing in the queue. -/
  | empty
  /-- The other side of a channel is gone. -/
  | closed
deriving DecidableEq

/-- The text of an error. -/
def QueueError.message : QueueError → String
  | .empty => "Queue is empty"
  | .closed => "Results queue is closed"

/-- Queues, and handles that name them by their place. -/
structure SharedQueues (α : Type) where
  /-- The items of each queue. -/
  queues : List (List α)
  /-- The queue of each handle. -/
  handles : List Nat

namespace SharedQueues

variable {α : Type}

/-- One empty queue with one handle. -/
def start : SharedQueues α :=
  ⟨[[]], [0]⟩

/-- The queue of a handle. -/
def queueOf (s : SharedQueues α) (handle : Nat) : Nat :=
  s.handles.getD handle 0

/-- The items in the queue of a handle. -/
def items (s : SharedQueues α) (handle : Nat) : List α :=
  s.queues.getD (s.queueOf handle) []

/-- The number of items in the queue of a handle. -/
def size (s : SharedQueues α) (handle : Nat) : Nat :=
  (s.items handle).length

/-- Puts an item into the queue of a handle. -/
def put (s : SharedQueues α) (handle : Nat) (item : α) : SharedQueues α :=
  { s with queues := s.queues.modify (s.queueOf handle) (· ++ [item]) }

/-- Takes the oldest item out of the queue of a handle. -/
def get (s : SharedQueues α) (handle : Nat) : Except QueueError α × SharedQueues α :=
  match s.items handle with
  | [] => (.error .empty, s)
  | item :: rest => (.ok item, { s with queues := s.queues.set (s.queueOf handle) rest })

/-- Makes a handle for the queue of a handle. -/
def share (s : SharedQueues α) (handle : Nat) : SharedQueues α :=
  { s with handles := s.handles ++ [s.queueOf handle] }

/-- Makes a handle for a new queue. -/
def addQueue (s : SharedQueues α) : SharedQueues α :=
  ⟨s.queues ++ [[]], s.handles ++ [s.queues.length]⟩

end SharedQueues

end TraceGen
