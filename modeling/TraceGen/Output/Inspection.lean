import TraceGen.Files.Disk
import TraceGen.Json.Value
import TraceGen.Output.RecordSource

/-!
# Looking into a file of records

An `Inspection` says how many records a file holds and how large they are. `text` and `json` are the
two forms in which it is printed. It is what the command `inspect` of §10.1 of `SPEC_FULL.md`
reports.
-/

namespace TraceGen

/-- What a file of records holds. -/
structure Inspection where
  /-- The file. -/
  path : Path
  /-- The number of records. -/
  records : Nat
  /-- The number of bytes in all records together. -/
  payloadBytes : Nat
  /-- The size of the largest record. -/
  largestRecord : Nat
deriving DecidableEq

namespace Inspection

/-- Counts a record. -/
def count (report : Inspection) (record : Bytes) : Inspection :=
  { report with
    records := report.records + 1
    payloadBytes := report.payloadBytes + record.length
    largestRecord := max report.largestRecord record.length }

/-- What a sequence of records amounts to. -/
def ofRecords (path : Path) (records : List Bytes) : Inspection :=
  records.foldl count ⟨path, 0, 0, 0⟩

/-- Looks into a file. -/
def ofFile (d : Disk) (path : Path) : Except SinkError Inspection :=
  match d.read? path with
  | none => .error (.io "")
  | some content => (RecordSource.readAll (.ofBytes content)).map (ofRecords path)

/-- The report on one line. -/
def text (r : Inspection) : String :=
  String.join [s!"{r.path}: {r.records} records, {r.payloadBytes} payload bytes ",
    s!"(largest {r.largestRecord})"]

/-- The report as a JSON object with a line for each field. -/
def json (r : Inspection) : String :=
  String.intercalate "\n"
    ["\x7b", s!"  \"path\": {Json.Value.writeString r.path},", s!"  \"records\": {r.records},",
      s!"  \"payload_bytes\": {r.payloadBytes},", s!"  \"largest_record\": {r.largestRecord}",
      "\x7d"]

end Inspection

end TraceGen
