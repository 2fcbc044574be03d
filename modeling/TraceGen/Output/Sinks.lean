import TraceGen.Files.Disk
import TraceGen.Output.Performance
import TraceGen.Output.Record
import TraceGen.Training.ModuleData

/-!
# The outputs of a run

A run has a sink of records and a sink of performance lines. Either may be absent; then nothing is
written to it, and closing it works. `Sinks.writeOutcome` writes what a module gives, all its
records before its lines, and stops at the first error. The sinks are the two outputs of §6 of
`SPEC_FULL.md`.
-/

namespace TraceGen

/-- The outputs of a run. -/
structure Sinks where
  /-- Where the records go. -/
  records : Option RecordSink
  /-- Where the performance lines go. -/
  performance : Option PerformanceSink
deriving DecidableEq

namespace Sinks

/-- No outputs. -/
def absent : Sinks :=
  ⟨none, none⟩

/-- Closes the records, if there are any. -/
def closeRecords (s : Sinks) : Except SinkError Unit × Sinks :=
  match s.records with
  | none => (.ok (), s)
  | some w =>
    let (result, w) := w.close
    (result, { s with records := some w })

/-- Closes the performance lines, if there are any. -/
def closePerformance (s : Sinks) : Except SinkError Unit × Sinks :=
  match s.performance with
  | none => (.ok (), s)
  | some w =>
    let (result, w) := w.close
    (result, { s with performance := some w })

/-- Closes the records and, unless that failed, the performance lines. -/
def close (s : Sinks) : Except SinkError Unit × Sinks :=
  match s.closeRecords with
  | (.error e, s) => (.error e, s)
  | (.ok (), s) => s.closePerformance

/-- Writes records one after the other. -/
def writeRecords (w : RecordSink) : List Bytes → Except SinkError Unit × RecordSink
  | [] => (.ok (), w)
  | record :: records =>
    match w.write record with
    | (.error e, w) => (.error e, w)
    | (.ok (), w) => writeRecords w records

/-- Writes rows one after the other. -/
def writeRows (w : PerformanceSink) : List PerformanceRow → Except SinkError Unit × PerformanceSink
  | [] => (.ok (), w)
  | row :: rows =>
    match w.write row with
    | (.error e, w) => (.error e, w)
    | (.ok (), w) => writeRows w rows

/-- The rows of a module, in order of the key. -/
def rowsOf (outcome : ModuleOutcome) : List PerformanceRow :=
  outcome.stats.entries.map fun e => ⟨outcome.name, e.1, e.2⟩

/-- Writes the records of a module; the answer is their number if they go anywhere. -/
def writeModuleRecords (s : Sinks) (outcome : ModuleOutcome) : Except SinkError Nat × Sinks :=
  match s.records with
  | none => (.ok 0, s)
  | some w =>
    let (result, w) := writeRecords w outcome.records
    (result.map fun _ => outcome.records.length, { s with records := some w })

/-- Writes the performance lines of a module. -/
def writeModuleRows (s : Sinks) (outcome : ModuleOutcome) : Except SinkError Unit × Sinks :=
  match s.performance with
  | none => (.ok (), s)
  | some w =>
    let (result, w) := writeRows w (rowsOf outcome)
    (result, { s with performance := some w })

/-- Writes what a module gives; the answer is the number of records written. -/
def writeOutcome (s : Sinks) (outcome : ModuleOutcome) : Except SinkError Nat × Sinks :=
  match s.writeModuleRecords outcome with
  | (.error e, s) => (.error e, s)
  | (.ok n, s) =>
    let (result, s) := s.writeModuleRows outcome
    (result.map fun _ => n, s)

/-- Creates an empty file, or empties it, and makes the folders above it. The device that always
counts as full can be opened like a file and then takes nothing. -/
def createFile (d : Disk) (path : Path) : Except SinkError ByteSink × Disk :=
  let (made, d) := match (Path.parent? path).filter (· ≠ "") with
    | none => (true, d)
    | some parent => d.makeFolders parent
  if !made then (.error (.create path ""), d)
  else match d.write? path [] with
    | none => (.error (.create path ""), d)
    | some d => (.ok { ByteSink.file with limit := d.room? path }, d)

/-- Creates the file of an optional path. -/
def createOptional (d : Disk) : Option Path → Except SinkError (Option ByteSink) × Disk
  | none => (.ok none, d)
  | some path =>
    let (result, d) := createFile d path
    (result.map some, d)

/-- Creates the files of the outputs, that of the records first. -/
def create (d : Disk) (records performance : Option Path) : Except SinkError Sinks × Disk :=
  match createOptional d records with
  | (.error e, d) => (.error e, d)
  | (.ok r, d) =>
    match createOptional d performance with
    | (.error e, d) => (.error e, d)
    | (.ok p, d) => (.ok ⟨r.map .start, p.map .start⟩, d)

/-- Writes the bytes that have reached a file over the beginning of what it holds. -/
def saveFile (d : Disk) (path : Path) (content : Bytes) : Disk :=
  let old := (d.read? path).getD []
  (d.write? path (content ++ old.drop content.length)).getD d

/-- Saves what has reached the files of the outputs. -/
def save (s : Sinks) (d : Disk) (records performance : Option Path) : Disk :=
  let d := match records, s.records with
    | some path, some w => saveFile d path w.sink.content
    | _, _ => d
  match performance, s.performance with
  | some path, some w => saveFile d path w.sink.content
  | _, _ => d

end Sinks

end TraceGen
