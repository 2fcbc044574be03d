import TraceGen.Output.ByteSink

/-!
# Streams of records

A record is a byte sequence of any length. In a stream a record is preceded by its length in eight
bytes, the least significant one first. `Frame.encode` is the written form of one record. A
`RecordSink` writes records to a sink of bytes and counts those that it could write. The format is
that of §10.2 of `SPEC_FULL.md`.
-/

namespace TraceGen

namespace Frame

/-- How many bytes the length of a record takes. -/
def lengthBytes : Nat := 8

/-- The lowest `n` bytes of a number, the least significant one first. -/
def littleEndian : Nat → Nat → Bytes
  | 0, _ => []
  | n + 1, x => (x % 256).toUInt8 :: littleEndian n (x / 256)

/-- The number that bytes write, the least significant one first. -/
def ofLittleEndian : Bytes → Nat
  | [] => 0
  | b :: bs => b.toNat + 256 * ofLittleEndian bs

/-- The length of a record as it stands before the record. -/
def header (record : Bytes) : Bytes :=
  littleEndian lengthBytes record.length

/-- The written form of a record. -/
def encode (record : Bytes) : Bytes :=
  header record ++ record

/-- The written form of records in a row. -/
def encodeAll (records : List Bytes) : Bytes :=
  records.flatMap encode

end Frame

/-- A sink of records. -/
structure RecordSink where
  /-- Where the bytes go. -/
  sink : ByteSink
  /-- The number of records that could be written. -/
  written : Nat
deriving DecidableEq

namespace RecordSink

/-- Starts a stream. -/
def start (sink : ByteSink) : RecordSink :=
  ⟨sink, 0⟩

/-- Writes a record: its length, and then itself unless that failed. -/
def write (w : RecordSink) (record : Bytes) : Except SinkError Unit × RecordSink :=
  let (done, sink) := w.sink.writeAll (Frame.header record)
  if !done then (.error (.io ""), { w with sink := sink })
  else
    let (done, sink) := sink.writeAll record
    if !done then (.error (.io ""), { w with sink := sink })
    else (.ok (), ⟨sink, w.written + 1⟩)

/-- Ends the stream. -/
def close (w : RecordSink) : Except SinkError Unit × RecordSink :=
  let (done, sink) := w.sink.close
  (if done then .ok () else .error (.io ""), { w with sink := sink })

end RecordSink

end TraceGen
