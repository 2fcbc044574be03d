import TraceGen.Proofs.Output.RecordCodec

/-!
# Writing up to some place

A write may fail at any byte, and then its beginning may have been taken over. `Wrote` says what has
become of an output after several writes: the pieces that were written whole are counted, and of the
others at most a beginning has been written. `RecordSink.wrote_write` and
`PerformanceSink.wrote_write` show this for one record and one line, whether or not writing works.
-/

namespace TraceGen

namespace ByteSink

variable {s : ByteSink}

/-- Emptying the buffer moves bytes and loses none, also where it fails. -/
theorem received_drain (s : ByteSink) : s.drain.2.received = s.received := by
  simp only [drain, received, List.append_assoc, List.take_append_drop]

/-- Bytes that pass by an empty buffer reach the device or the buffer up to some place. -/
theorem exists_prefix_of_bypass (hempty : s.pending = []) (data : Bytes) :
    ∃ part, part <+: data ∧ (s.bypass data).2.received = s.received ++ part := by
  unfold bypass pushAll
  simp only
  split
  · refine ⟨data, List.prefix_refl _, ?_⟩
    simp only [received, hempty, List.append_nil, List.append_assoc, List.take_append_drop]
  · refine ⟨data.take (s.admitted data.length), List.take_prefix _ _, ?_⟩
    simp only [received, hempty, List.append_nil]

/-- A write adds its bytes up to some place, also where it fails. -/
theorem exists_prefix_of_writeAll (s : ByteSink) (data : Bytes) :
    ∃ part, part <+: data ∧ (s.writeAll data).2.received = s.received ++ part := by
  unfold writeAll
  by_cases hfits : s.capacity < s.pending.length + data.length
  · -- The buffer is emptied first. If that fails nothing of `data` is taken over.
    rw [if_pos hfits]
    have hreceived : s.drain.2.received = s.received := received_drain s
    rcases hdrain : s.drain with ⟨drained, u⟩
    rw [hdrain] at hreceived
    cases drained with
    | false =>
      refine ⟨[], List.nil_prefix, ?_⟩
      rw [List.append_nil]
      exact hreceived
    | true =>
      obtain ⟨-, hpending, -⟩ := drain_spec hdrain
      simp only [Bool.not_true, Bool.false_eq_true, if_false]
      rw [← hreceived]
      split
      · exact exists_prefix_of_bypass hpending data
      · exact ⟨data, List.prefix_refl _, (List.append_assoc ..).symm⟩
  · rw [if_neg hfits]
    simp only [Bool.not_true, Bool.false_eq_true, if_false]
    split
    · rename_i hlong
      have hempty : s.pending = [] := List.length_eq_zero_iff.1 (by omega)
      exact exists_prefix_of_bypass hempty data
    · exact ⟨data, List.prefix_refl _, (List.append_assoc ..).symm⟩

/-- A write that fits behind what is in the buffer goes there. -/
theorem writeAll_of_fits {data : Bytes} (h : s.pending.length + data.length < s.capacity) :
    s.writeAll data = (true, { s with pending := s.pending ++ data, isFlushed := false }) := by
  have hroom : ¬ s.capacity < s.pending.length + data.length := by omega
  have hshort : ¬ s.capacity ≤ data.length := by omega
  unfold writeAll
  simp only [if_neg hroom, if_neg hshort, Bool.not_true, Bool.false_eq_true, if_false]

end ByteSink

open TraceGen.Frame

/-- What becomes of an output `a`, with the number of pieces counted there: the pieces `counted`
have been written after what it had taken over, each has been counted, and of the pieces `rest` at
most a beginning has been written. -/
def Wrote (counted rest : List Bytes) (a b : ByteSink × Nat) : Prop :=
  b.2 = a.2 + counted.length ∧
    ∃ part, part <+: rest.flatten ∧ b.1.received = a.1.received ++ counted.flatten ++ part

/-- Nothing has been written yet. -/
theorem Wrote.refl (rest : List Bytes) (a : ByteSink × Nat) : Wrote [] rest a a := by
  refine ⟨rfl, [], List.nil_prefix, ?_⟩
  rw [List.flatten_nil, List.append_nil, List.append_nil]

/-- What is written to an output after whole pieces comes after them. -/
theorem Wrote.trans {counted more rest : List Bytes} {a b c : ByteSink × Nat}
    (hab : Wrote counted [] a b) (hbc : Wrote more rest b c) :
    Wrote (counted ++ more) rest a c := by
  obtain ⟨hcount, none, hnone, hreceived⟩ := hab
  obtain ⟨hcount', part, hpart, hreceived'⟩ := hbc
  rw [List.flatten_nil, List.prefix_nil] at hnone
  refine ⟨?_, part, hpart, ?_⟩
  · rw [hcount', hcount, List.length_append]
    omega
  · rw [hreceived', hreceived, hnone, List.append_nil, List.flatten_append]
    simp only [List.append_assoc]

/-- Pieces that are not written can follow. -/
theorem Wrote.append {counted rest : List Bytes} {a b : ByteSink × Nat} (h : Wrote counted rest a b)
    (more : List Bytes) : Wrote counted (rest ++ more) a b := by
  obtain ⟨hcount, part, hpart, hreceived⟩ := h
  refine ⟨hcount, part, hpart.trans ?_, hreceived⟩
  rw [List.flatten_append]
  exact List.prefix_append _ _

/-- A record is written and counted, or at most a beginning of it is written. -/
theorem RecordSink.wrote_write (w : RecordSink) (record : Bytes) {result : Except SinkError Unit}
    {w' : RecordSink} (h : w.write record = (result, w')) :
    (result.isOk = true ∧ Wrote [encode record] [] (w.sink, w.written) (w'.sink, w'.written)) ∨
      (result.isOk = false ∧
        Wrote [] [encode record] (w.sink, w.written) (w'.sink, w'.written)) := by
  -- A record is two writes, and the part that is taken over may end in either of them.
  obtain ⟨part, hpart, hreceived⟩ := w.sink.exists_prefix_of_writeAll (header record)
  unfold write at h
  rcases hheader : w.sink.writeAll (header record) with ⟨done, sink⟩
  rw [hheader] at h hreceived
  cases done with
  | false =>
    cases h
    refine .inr ⟨rfl, rfl, part, ?_, ?_⟩
    · rw [List.flatten_singleton]
      exact hpart.trans (List.prefix_append _ _)
    · rw [List.flatten_nil, List.append_nil]
      exact hreceived
  | true =>
    have hwhole : sink.received = w.sink.received ++ header record :=
      (ByteSink.received_of_writeAll hheader).1
    obtain ⟨part, hpart, hreceived'⟩ := sink.exists_prefix_of_writeAll record
    rcases hrecord : sink.writeAll record with ⟨done, sink'⟩
    simp only [Bool.not_true, Bool.false_eq_true, if_false, hrecord] at h hreceived'
    rw [hwhole] at hreceived'
    cases done with
    | false =>
      cases h
      refine .inr ⟨rfl, rfl, header record ++ part, ?_, ?_⟩
      · rw [List.flatten_singleton]
        exact (List.prefix_append_right_inj _).2 hpart
      · rw [List.flatten_nil, List.append_nil, ← List.append_assoc]
        exact hreceived'
    | true =>
      cases h
      refine .inl ⟨rfl, rfl, [], List.nil_prefix, ?_⟩
      rw [List.flatten_singleton, List.append_nil, encode, ← List.append_assoc, ← hwhole]
      exact (ByteSink.received_of_writeAll hrecord).1

/-- A line is written and counted, or at most a beginning of it is written. -/
theorem PerformanceSink.wrote_write (w : PerformanceSink) (row : PerformanceRow)
    {result : Except SinkError Unit} {w' : PerformanceSink} (h : w.write row = (result, w')) :
    (result.isOk = true ∧
        Wrote [Text.encode row.line] [] (w.sink, w.lines) (w'.sink, w'.lines)) ∨
      (result.isOk = false ∧
        Wrote [] [Text.encode row.line] (w.sink, w.lines) (w'.sink, w'.lines)) := by
  obtain ⟨part, hpart, hreceived⟩ := w.sink.exists_prefix_of_writeAll (Text.encode row.line)
  unfold write at h
  rcases hline : w.sink.writeAll (Text.encode row.line) with ⟨done, sink⟩
  rw [hline] at h hreceived
  cases done with
  | false =>
    cases h
    refine .inr ⟨rfl, rfl, part, ?_, ?_⟩
    · rw [List.flatten_singleton]
      exact hpart
    · rw [List.flatten_nil, List.append_nil]
      exact hreceived
  | true =>
    cases h
    refine .inl ⟨rfl, rfl, [], List.nil_prefix, ?_⟩
    rw [List.flatten_singleton, List.append_nil]
    exact (ByteSink.received_of_writeAll hline).1

/-- A line that fits behind what is in the buffer is counted and goes there. -/
theorem PerformanceSink.write_of_fits {w : PerformanceSink} {row : PerformanceRow}
    (h : w.sink.pending.length + (Text.encode row.line).length < w.sink.capacity) :
    w.write row = (.ok (),
      ⟨{ w.sink with pending := w.sink.pending ++ Text.encode row.line, isFlushed := false },
        w.lines + 1⟩) := by
  unfold write
  rw [ByteSink.writeAll_of_fits h]
  rfl

end TraceGen
