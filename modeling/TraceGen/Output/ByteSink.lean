import TraceGen.Output.Error
import TraceGen.Text.Utf8

/-!
# Sinks of bytes

A `ByteSink` passes bytes on to a device behind a buffer. The device may have room for a number of
bytes only: of what does not fit it takes the beginning and then fails. Closing flushes the buffer
and the device and then shuts the device down; either step may fail by itself.

`pushAll` is what reaches the device, and `writeAll` fills the buffer: it is emptied before it would
overflow, and what is as long as the buffer passes it by. A sink without a buffer is one of capacity
zero.
-/

namespace TraceGen

/-- A device that takes bytes, with a buffer before it. -/
structure ByteSink where
  /-- The bytes that have reached the device. -/
  content : Bytes
  /-- The bytes in the buffer. -/
  pending : Bytes
  /-- How many bytes the buffer holds. -/
  capacity : Nat
  /-- How many bytes the device takes in all, if there is a limit. -/
  limit : Option Nat
  /-- Whether flushing the device works. -/
  flushWorks : Bool
  /-- Whether shutting the device down works. -/
  shutdownWorks : Bool
  /-- Whether the device has been flushed since the last write. -/
  isFlushed : Bool
  /-- Whether the device has been shut down. -/
  isShutDown : Bool
deriving DecidableEq

namespace ByteSink

/-- A working device without limit or buffer. -/
def plain : ByteSink :=
  ⟨[], [], 0, none, true, true, false, false⟩

/-- The buffer of a file. -/
def fileCapacity : Nat := 8192

/-- A file that has just been created. -/
def file : ByteSink :=
  { plain with capacity := fileCapacity }

/-- How many of `n` bytes the device still takes. -/
def admitted (s : ByteSink) (n : Nat) : Nat :=
  match s.limit with
  | none => n
  | some limit => min n (limit - s.content.length)

/-- Passes bytes to the device; the answer says whether it took them all. -/
def pushAll (s : ByteSink) (data : Bytes) : Bool × ByteSink :=
  let n := s.admitted data.length
  (n == data.length, { s with content := s.content ++ data.take n, isFlushed := false })

/-- Empties the buffer; what the device does not take stays in it. An empty buffer needs no write,
so that a device that was flushed stays so. -/
def drain (s : ByteSink) : Bool × ByteSink :=
  let n := s.admitted s.pending.length
  (n == s.pending.length,
    { s with
      content := s.content ++ s.pending.take n
      pending := s.pending.drop n
      isFlushed := s.isFlushed && s.pending.isEmpty })

/-- Passes bytes by the empty buffer. What the device leaves of them goes into the buffer if it fits
there. -/
def bypass (s : ByteSink) (data : Bytes) : Bool × ByteSink :=
  let n := s.admitted data.length
  let (done, s) := s.pushAll data
  if !done && n != 0 && data.length - n < s.capacity then
    (true, { s with pending := data.drop n })
  else (done, s)

/-- Writes bytes. -/
def writeAll (s : ByteSink) (data : Bytes) : Bool × ByteSink :=
  let (drained, s) :=
    if s.capacity < s.pending.length + data.length then s.drain else (true, s)
  if !drained then (false, s)
  else if s.capacity ≤ data.length then s.bypass data
  else (true, { s with pending := s.pending ++ data, isFlushed := false })

/-- Empties the buffer and flushes the device. -/
def flush (s : ByteSink) : Bool × ByteSink :=
  let (drained, s) := s.drain
  if drained && s.flushWorks then (true, { s with isFlushed := true }) else (false, s)

/-- Empties the buffer and shuts the device down. -/
def shutdown (s : ByteSink) : Bool × ByteSink :=
  let (drained, s) := s.drain
  if drained && s.shutdownWorks then (true, { s with isFlushed := true, isShutDown := true })
  else (false, s)

/-- Flushes the sink and shuts it down. -/
def close (s : ByteSink) : Bool × ByteSink :=
  let (flushed, s) := s.flush
  if flushed then s.shutdown else (false, s)

end ByteSink

end TraceGen
