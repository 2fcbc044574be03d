import Mathlib.Algebra.BigOperators.Group.List.Basic
import Mathlib.Algebra.Ring.Nat
import Mathlib.Data.List.MinMax
import Mathlib.Order.Nat
import TraceGen.Output.Inspection
import TraceGen.Proofs.Output.Parsing

/-!
# What looking into a file of records tells

Looking into a file reads its records and counts them. `Inspection.describes_file` says that it
succeeds exactly on files that are made of complete records, and that the report then describes
these records (`Inspection.Describes`): their number, their bytes and the size of the largest one.
Together with the lengths before the records these are all bytes of the file.

The records need not be kept for this. `Inspection.scan` counts each record when it is read, and
`Inspection.scan_eq_map_readAll` says that it comes to the same report, or to the same error, as
reading all records first, in whatever pieces the file is read.
-/

namespace TraceGen

/-! ## Counting records -/

namespace Inspection

/-- Counting records adds their number and their sizes, and keeps the greatest size. -/
theorem foldl_count (report : Inspection) (records : List Bytes) :
    records.foldl count report =
      ⟨report.path, report.records + records.length,
        report.payloadBytes + (records.map List.length).sum,
        max report.largestRecord ((records.map List.length).foldr max 0)⟩ := by
  induction records generalizing report with
  | nil =>
    show report = ⟨report.path, report.records + 0, report.payloadBytes + 0,
      max report.largestRecord 0⟩
    rw [Nat.add_zero, Nat.add_zero, Nat.max_zero]
  | cons record records ih =>
    rw [List.foldl_cons, ih, count]
    simp only [List.length_cons, List.map_cons, List.sum_cons, List.foldr_cons, Nat.max_assoc,
      Nat.add_assoc, Nat.add_comm records.length 1]

/-- What a sequence of records amounts to. -/
theorem ofRecords_eq (path : Path) (records : List Bytes) :
    ofRecords path records = ⟨path, records.length, (records.map List.length).sum,
      (records.map List.length).foldr max 0⟩ := by
  rw [ofRecords, foldl_count, Nat.zero_add, Nat.zero_add, Nat.zero_max]

/-- The order of the records does not matter. -/
theorem ofRecords_perm (path : Path) {records others : List Bytes} (h : records.Perm others) :
    ofRecords path records = ofRecords path others := by
  have hsizes := h.map List.length
  rw [ofRecords_eq, ofRecords_eq, h.length_eq, hsizes.sum_eq, hsizes.foldr_eq]

/-- A report says of a file and of records how many they are, how many bytes they have, and how
large the largest of them is. -/
structure Describes (report : Inspection) (file : Path) (contents : List Bytes) : Prop where
  /-- The report is about the file. -/
  path : report.path = file
  /-- The number of records. -/
  records : report.records = contents.length
  /-- The bytes of all records together. -/
  payloadBytes : report.payloadBytes = (contents.map List.length).sum
  /-- No record is larger than the size that is given. -/
  upper : ∀ record ∈ contents, record.length ≤ report.largestRecord
  /-- Some record is as large; the size is zero if there is none. -/
  attained : (∃ record ∈ contents, record.length = report.largestRecord) ∨
    contents = [] ∧ report.largestRecord = 0

/-- Counting records describes them. -/
theorem describes_ofRecords (path : Path) (records : List Bytes) :
    Describes (ofRecords path records) path records := by
  rw [ofRecords_eq]
  refine ⟨rfl, rfl, rfl, fun record hrecord => ?_, ?_⟩
  · exact List.le_max_of_le (List.mem_map_of_mem hrecord) (Nat.le_refl _)
  · by_cases hnone : records = []
    · rw [hnone]
      exact .inr ⟨rfl, rfl⟩
    · have hsome : records.map List.length ≠ [] := mt List.map_eq_nil_iff.1 hnone
      exact .inl (List.mem_map.1 (List.maximum_mem (List.foldr_max_of_ne_nil hsome).symm))

/-! ## Counting while reading -/

/-- Reads records and counts each of them, until none is left. -/
def scanWithin : Nat → Inspection → ByteSource → Except SinkError Inspection
  | 0, report, _ => .ok report
  | fuel + 1, report, s =>
    match RecordSource.next s with
    | (.error e, _) => .error e
    | (.ok none, _) => .ok report
    | (.ok (some record), s) => scanWithin fuel (report.count record) s

/-- Counts the records of a source. Each takes a byte at least. -/
def scan (path : Path) (s : ByteSource) : Except SinkError Inspection :=
  scanWithin (s.rest.length + 1) ⟨path, 0, 0, 0⟩ s

/-- Counting while reading is reading and then counting. -/
theorem scanWithin_eq_map (fuel : Nat) (report : Inspection) (s : ByteSource) :
    scanWithin fuel report s = (RecordSource.readAllWithin fuel s).map (·.foldl count report) := by
  induction fuel generalizing report s with
  | zero => rfl
  | succ fuel ih =>
    rw [scanWithin, RecordSource.readAllWithin]
    rcases RecordSource.next s with ⟨_ | _ | record, s'⟩
    · rfl
    · rfl
    · dsimp only
      rw [ih]
      cases RecordSource.readAllWithin fuel s' <;> rfl

/-- Counting while reading comes to what all records amount to. -/
theorem scan_eq_map_readAll (path : Path) (s : ByteSource) :
    scan path s = (RecordSource.readAll s).map (ofRecords path) :=
  scanWithin_eq_map _ _ s

/-! ## Files -/

open TraceGen.Frame

/-- What reading all records comes to depends on the bytes of the source only. -/
theorem readAll_congr {s t : ByteSource} (h : s.rest = t.rest) :
    RecordSource.readAll s = RecordSource.readAll t := by
  obtain ⟨records, left, hparsed⟩ := exists_parsed t.rest
  obtain ⟨hok, herror⟩ := RecordSource.readAll_of_parsed hparsed
  obtain ⟨hok', herror'⟩ := RecordSource.readAll_of_parsed (h ▸ hparsed)
  by_cases hleft : left = []
  · rw [(hok records).2 ⟨hleft, rfl⟩, (hok' records).2 ⟨hleft, rfl⟩]
  · rw [herror hleft, herror' hleft]

/-- What is said to be missing of a record is more than what is there. -/
theorem exists_of_shortage {left : Bytes} (h : Incomplete left) :
    ∃ expected found, shortage left = .truncatedRecord expected found ∧ found < expected := by
  rw [incomplete_iff] at h
  unfold shortage
  split
  · rename_i hshort
    exact ⟨_, _, rfl, hshort⟩
  · exact ⟨_, _, rfl, by omega⟩

/-- Where reading all records fails something is missing of a record. -/
theorem exists_of_readAll_error {s : ByteSource} {e : SinkError}
    (h : RecordSource.readAll s = .error e) :
    ∃ expected found, e = .truncatedRecord expected found ∧ found < expected := by
  obtain ⟨records, left, hparsed⟩ := exists_parsed s.rest
  obtain ⟨hall, hshortage⟩ := RecordSource.readAll_of_parsed hparsed
  by_cases hleft : left = []
  · rw [(hall records).2 ⟨hleft, rfl⟩] at h
    cases h
  · rw [hshortage hleft] at h
    cases h
    exact exists_of_shortage hparsed.incomplete

/-- A file that is made of complete records has their bytes, and eight for the length of each. -/
theorem length_encodeAll (records : List Bytes) :
    (encodeAll records).length = 8 * records.length + (records.map List.length).sum := by
  induction records with
  | nil => rfl
  | cons record records ih =>
    rw [encodeAll_cons, List.length_append, ih, encode, List.length_append, length_header,
      lengthBytes, List.length_cons, List.map_cons, List.sum_cons]
    omega

/-- Looking into a file succeeds exactly if the file is made of complete records, and then describes
these records. Their bytes and eight for each of them are all bytes of the file. Otherwise something
is missing of a record, and reading all records says so in the same way. Counting each record when
it is read, in whatever pieces the file is delivered, comes to the same. -/
theorem describes_file {d : Disk} {path : Path} {content : Bytes}
    (h : d.read? path = some content) :
    (∀ records, content = encodeAll records → (∀ record ∈ records, record.length < 2 ^ 64) →
      ∃ report, ofFile d path = .ok report ∧ Describes report path records) ∧
    (∀ report, ofFile d path = .ok report →
      (∃ records, content = encodeAll records ∧ (∀ record ∈ records, record.length < 2 ^ 64) ∧
        Describes report path records) ∧
      8 * report.records + report.payloadBytes = content.length) ∧
    (∀ e, ofFile d path = .error e →
      ∃ expected found, e = .truncatedRecord expected found ∧ found < expected) ∧
    ∀ source : ByteSource, source.rest = content →
      scan path source = ofFile d path ∧
        ∀ e, ofFile d path = .error e ↔ RecordSource.readAll source = .error e := by
  have hfile : ofFile d path = (RecordSource.readAll (.ofBytes content)).map (ofRecords path) := by
    rw [ofFile, h]
  have hok {records : List Bytes} : RecordSource.readAll (.ofBytes content) = .ok records ↔
      content = encodeAll records ∧ ∀ record ∈ records, record.length < 2 ^ 64 :=
    RecordSource.readAll_eq_ok_iff
  have herror (e : SinkError) : ofFile d path = .error e ↔
      RecordSource.readAll (.ofBytes content) = .error e := by
    rw [hfile]
    cases RecordSource.readAll (.ofBytes content) with
    | error e' =>
      exact ⟨fun h => congrArg _ (Except.error.inj h), fun h => congrArg _ (Except.error.inj h)⟩
    | ok records => exact iff_of_false nofun nofun
  refine ⟨fun records hcontent hfits => ?_, fun report hreport => ?_, fun e he => ?_,
    fun source hsource => ?_⟩
  · rw [hfile, hok.2 ⟨hcontent, hfits⟩]
    exact ⟨_, rfl, describes_ofRecords path records⟩
  · rw [hfile] at hreport
    cases hread : RecordSource.readAll (.ofBytes content) with
    | error e =>
      rw [hread] at hreport
      cases hreport
    | ok records =>
      rw [hread] at hreport
      cases hreport
      obtain ⟨hcontent, hfits⟩ := hok.1 hread
      have hdescribes := describes_ofRecords path records
      refine ⟨⟨records, hcontent, hfits, hdescribes⟩, ?_⟩
      rw [hcontent, length_encodeAll, hdescribes.records, hdescribes.payloadBytes]
  · exact exists_of_readAll_error ((herror e).1 he)
  · have hsame : RecordSource.readAll source = RecordSource.readAll (.ofBytes content) :=
      readAll_congr hsource
    rw [scan_eq_map_readAll, hsame, hfile]
    exact ⟨rfl, hfile ▸ herror⟩

namespace Sample

/-- A disk with a file. -/
def disk (content : Bytes) : Disk :=
  ⟨.folder [("t.rec", .file content)], []⟩

end Sample

/-- A file with an empty record between two others. -/
theorem describes_file_of_three_records :
    ∃ report, ofFile (Sample.disk (encodeAll [[7], [], [1, 2]])) "t.rec" = .ok report ∧
      report.records = 3 ∧ report.payloadBytes = 3 ∧
      8 * report.records + report.payloadBytes = (encodeAll [[7], [], [1, 2]]).length := by
  have hread : (Sample.disk (encodeAll [[7], [], [1, 2]])).read? "t.rec" =
      some (encodeAll [[7], [], [1, 2]]) := rfl
  obtain ⟨hok, haccounts, -⟩ := describes_file hread
  obtain ⟨report, hreport, hdescribes⟩ := hok _ rfl (by decide)
  exact ⟨report, hreport, hdescribes.records, hdescribes.payloadBytes, (haccounts _ hreport).2⟩

end Inspection

end TraceGen
