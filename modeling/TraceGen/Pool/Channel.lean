/-!
# Channels

A channel carries items from senders to one receiver, in the order in which they were put. Nothing
can be put once the receiver has gone. When the channel is empty the receiver waits as long as there
is a sender; without one the channel is closed. The results of a run go through such a channel (§4.2
and §10.2 of `SPEC_FULL.md`).
-/

namespace TraceGen

/-- A channel. -/
structure Channel (α : Type) where
  /-- The items on their way. -/
  items : List α
  /-- The number of senders. -/
  senders : Nat
  /-- Whether the receiver is there. -/
  isListening : Bool
deriving DecidableEq

/-- What the receiver finds. -/
inductive Receipt (α : Type) where
  /-- An item, and the channel without it. -/
  | item (a : α) (rest : Channel α)
  /-- Nothing yet. -/
  | waiting
  /-- Nothing, and nobody who could send. -/
  | closed

namespace Channel

variable {α : Type}

/-- A channel with a number of senders. -/
def start (senders : Nat) : Channel α :=
  ⟨[], senders, true⟩

/-- Puts an item; none if the receiver has gone. -/
def put? (c : Channel α) (a : α) : Option (Channel α) :=
  if c.isListening then some { c with items := c.items ++ [a] } else none

/-- What the receiver finds. -/
def receive (c : Channel α) : Receipt α :=
  match c.items with
  | a :: rest => .item a { c with items := rest }
  | [] => if c.senders = 0 then .closed else .waiting

/-- Adds a sender. -/
def addSender (c : Channel α) : Channel α :=
  { c with senders := c.senders + 1 }

/-- A sender goes. -/
def dropSender (c : Channel α) : Channel α :=
  { c with senders := c.senders - 1 }

/-- The receiver goes. -/
def hangUp (c : Channel α) : Channel α :=
  { c with isListening := false }

end Channel

end TraceGen
