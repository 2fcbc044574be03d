import TraceGen.Output.Record

/-!
# Reading streams of records

A `ByteSource` hands out its bytes in pieces: a read asks for a number of bytes and gets at least
one of them unless the end is reached, but perhaps not all. `next` reads a record. At the end of the
stream there is none, and where the stream ends inside a record it says how much is missing; what
was there has then been used up.
-/

namespace TraceGen

/-- A source of bytes. -/
structure ByteSource where
  /-- The bytes to come. -/
  rest : Bytes
  /-- How many bytes the read with a number hands out at most; zero counts as one. -/
  allowance : Nat → Nat
  /-- The number of reads so far. -/
  reads : Nat

namespace ByteSource

/-- A source that hands out all that is asked for. -/
def ofBytes (bs : Bytes) : ByteSource :=
  let size := bs.length
  ⟨bs, fun _ => size, 0⟩

/-- Reads at most `n` bytes. -/
def read (s : ByteSource) (n : Nat) : Bytes × ByteSource :=
  let size := min n (max 1 (s.allowance s.reads))
  (s.rest.take size, { s with rest := s.rest.drop size, reads := s.reads + 1 })

/-- Reads until `n` bytes are there or the end is reached, in as many reads as there is fuel. -/
def fill : Nat → Nat → ByteSource → Bytes × ByteSource
  | 0, _, s => ([], s)
  | fuel + 1, n, s =>
    if n = 0 then ([], s)
    else
      let (piece, s) := s.read n
      if piece.isEmpty then ([], s)
      else
        let (more, s) := fill fuel (n - piece.length) s
        (piece ++ more, s)

/-- Reads `n` bytes, or all up to the end if there are fewer. Each read but the last takes a byte at
least, so `n` reads are enough. -/
def readFull (s : ByteSource) (n : Nat) : Bytes × ByteSource :=
  fill n n s

end ByteSource

namespace RecordSource

/-- Reads a record; none at the end of the stream. -/
def next (s : ByteSource) : Except SinkError (Option Bytes) × ByteSource :=
  let (header, s) := s.readFull Frame.lengthBytes
  if header.isEmpty then (.ok none, s)
  else if header.length < Frame.lengthBytes then
    (.error (.truncatedRecord Frame.lengthBytes header.length), s)
  else
    let expected := Frame.ofLittleEndian header
    let (record, s) := s.readFull expected
    if record.length = expected then (.ok (some record), s)
    else (.error (.truncatedRecord expected record.length), s)

/-- Reads records until none is left. -/
def readAllWithin : Nat → ByteSource → Except SinkError (List Bytes)
  | 0, _ => .ok []
  | fuel + 1, s =>
    match next s with
    | (.error e, _) => .error e
    | (.ok none, _) => .ok []
    | (.ok (some record), s) => (readAllWithin fuel s).map (record :: ·)

/-- Reads all records. Each takes a byte at least. -/
def readAll (s : ByteSource) : Except SinkError (List Bytes) :=
  readAllWithin (s.rest.length + 1) s

end RecordSource

end TraceGen
