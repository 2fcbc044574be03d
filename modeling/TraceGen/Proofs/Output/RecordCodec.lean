import TraceGen.Output.Sinks
import TraceGen.Proofs.Output.Framing

/-!
# Streams of records are an exact codec

`RecordSink.records_codec` ties the writer of records to the reader: what was written is read back,
streams can be put one after the other, and bytes that can be read are those that writing what was
read gives again.

The bytes that a sink has been given are those that have reached its device and those in its buffer
(`ByteSink.received`). A write that works adds its bytes to them whatever the buffer and the device
do (`ByteSink.received_of_writeAll`), and writes to a device without limit work.
-/

namespace TraceGen

namespace ByteSink

/-- The bytes that a sink has taken over, in order. -/
def received (s : ByteSink) : Bytes :=
  s.content ++ s.pending

/-- A device without limit takes all. -/
theorem admitted_of_unlimited {s : ByteSink} (h : s.limit = none) (n : Nat) : s.admitted n = n := by
  rw [admitted, h]

/-- A buffer that could be emptied has passed on all its bytes. -/
theorem drain_spec {s t : ByteSink} (h : s.drain = (true, t)) :
    t.content = s.received ∧ t.pending = [] ∧ t.limit = s.limit := by
  unfold drain at h
  simp only [Prod.mk.injEq, beq_iff_eq] at h
  obtain ⟨hall, rfl⟩ := h
  rw [hall, List.take_length, List.drop_length]
  exact ⟨rfl, rfl, rfl⟩

/-- Without a limit the buffer can be emptied. -/
theorem exists_drain_of_unlimited {s : ByteSink} (h : s.limit = none) :
    ∃ t, s.drain = (true, t) := by
  refine ⟨s.drain.2, Prod.ext ?_ rfl⟩
  simp only [drain, admitted_of_unlimited h, beq_self_eq_true]

/-- Bytes that pass by an empty buffer reach the device or the buffer. -/
theorem bypass_spec {s t : ByteSink} {data : Bytes} (hempty : s.pending = [])
    (h : s.bypass data = (true, t)) : t.received = s.received ++ data ∧ t.limit = s.limit := by
  unfold bypass pushAll at h
  simp only at h
  split at h
  · cases h
    simp only [received, hempty, List.append_nil, List.append_assoc, List.take_append_drop,
      and_self]
  · simp only [Prod.mk.injEq, beq_iff_eq] at h
    obtain ⟨hall, rfl⟩ := h
    simp only [received, hempty, List.append_nil, hall, List.take_length, and_self]

/-- Without a limit bytes can pass by the buffer. -/
theorem exists_bypass_of_unlimited {s : ByteSink} (h : s.limit = none) (data : Bytes) :
    ∃ t, s.bypass data = (true, t) := by
  refine ⟨(s.bypass data).2, Prod.ext ?_ rfl⟩
  simp only [bypass, pushAll, admitted_of_unlimited h, beq_self_eq_true, Bool.not_true,
    Bool.false_and, Bool.false_eq_true, if_false]

/-- A write that works adds its bytes. -/
theorem received_of_writeAll {s t : ByteSink} {data : Bytes} (h : s.writeAll data = (true, t)) :
    t.received = s.received ++ data ∧ t.limit = s.limit := by
  unfold writeAll at h
  -- The buffer is emptied first when the bytes would not fit behind what is in it.
  by_cases hfits : s.capacity < s.pending.length + data.length
  · rw [if_pos hfits] at h
    rcases hdrain : s.drain with ⟨drained, u⟩
    rw [hdrain] at h
    cases drained with
    | false => cases h
    | true =>
      obtain ⟨hcontent, hpending, hlimit⟩ := drain_spec hdrain
      have hreceived : u.received = s.received := by
        rw [received, hcontent, hpending, List.append_nil]
      simp only [Bool.not_true, Bool.false_eq_true, if_false] at h
      split at h
      · obtain ⟨ht, htlimit⟩ := bypass_spec hpending h
        exact ⟨by rw [ht, hreceived], htlimit.trans hlimit⟩
      · cases h
        refine ⟨?_, hlimit⟩
        rw [← hreceived]
        exact (List.append_assoc ..).symm
  · rw [if_neg hfits] at h
    simp only [Bool.not_true, Bool.false_eq_true, if_false] at h
    split at h
    · rename_i hlong
      have hempty : s.pending = [] := List.length_eq_zero_iff.1 (by omega)
      exact bypass_spec hempty h
    · cases h
      exact ⟨(List.append_assoc ..).symm, rfl⟩

/-- Without a limit every write works. -/
theorem exists_writeAll_of_unlimited {s : ByteSink} (h : s.limit = none) (data : Bytes) :
    ∃ t, s.writeAll data = (true, t) := by
  -- What is in the buffer does not matter, as it can be emptied.
  obtain ⟨u, hu, hlimit⟩ : ∃ u,
      (if s.capacity < s.pending.length + data.length then s.drain else (true, s)) = (true, u) ∧
        u.limit = none := by
    split
    · obtain ⟨u, hdrain⟩ := exists_drain_of_unlimited h
      exact ⟨u, hdrain, (drain_spec hdrain).2.2.trans h⟩
    · exact ⟨s, rfl, h⟩
  unfold writeAll
  rw [hu]
  simp only [Bool.not_true, Bool.false_eq_true, if_false]
  split
  · exact exists_bypass_of_unlimited hlimit data
  · exact ⟨_, rfl⟩

/-- Closing that works passes on all bytes. -/
theorem content_of_close {s t : ByteSink} (h : s.close = (true, t)) : t.content = s.received := by
  unfold close flush shutdown at h
  rcases hdrain : s.drain with ⟨drained, u⟩
  rw [hdrain] at h
  cases drained with
  | false => cases h
  | true =>
    obtain ⟨hcontent, hpending, -⟩ := drain_spec hdrain
    simp only [Bool.true_and] at h
    by_cases hflush : u.flushWorks = true
    · rw [if_pos hflush] at h
      simp only [if_true] at h
      rcases hdrain' : ({ u with isFlushed := true } : ByteSink).drain with ⟨again, v⟩
      rw [hdrain'] at h
      cases again with
      | false => cases h
      | true =>
        have hlast : v.content = s.received := by
          rw [(drain_spec hdrain').1, received]
          simp only
          rw [hpending, hcontent, List.append_nil]
        simp only [Bool.true_and] at h
        split at h
        · cases h
          exact hlast
        · cases h
    · rw [if_neg hflush] at h
      cases h

end ByteSink

namespace RecordSink

open TraceGen.Frame

/-- A record that could be written is counted, and its written form has been taken over. -/
theorem received_of_write {w w' : RecordSink} {record : Bytes}
    (h : w.write record = (.ok (), w')) :
    w'.sink.received = w.sink.received ++ encode record ∧ w'.written = w.written + 1 := by
  unfold write at h
  rcases hheader : w.sink.writeAll (header record) with ⟨done, t⟩
  rw [hheader] at h
  cases done with
  | false => cases h
  | true =>
    simp only [Bool.not_true, Bool.false_eq_true, if_false] at h
    rcases hrecord : t.writeAll record with ⟨done, u⟩
    rw [hrecord] at h
    cases done with
    | false => cases h
    | true =>
      cases h
      refine ⟨?_, rfl⟩
      rw [(ByteSink.received_of_writeAll hrecord).1, (ByteSink.received_of_writeAll hheader).1,
        encode, List.append_assoc]

/-- Without a limit every record can be written. -/
theorem exists_write_of_unlimited {w : RecordSink} (h : w.sink.limit = none) (record : Bytes) :
    ∃ w', w.write record = (.ok (), w') ∧ w'.sink.limit = none := by
  obtain ⟨t, hheader⟩ := ByteSink.exists_writeAll_of_unlimited h (header record)
  have ht : t.limit = none := (ByteSink.received_of_writeAll hheader).2.trans h
  obtain ⟨u, hrecord⟩ := ByteSink.exists_writeAll_of_unlimited ht record
  have hu : u.limit = none := (ByteSink.received_of_writeAll hrecord).2.trans ht
  refine ⟨⟨u, w.written + 1⟩, ?_, hu⟩
  simp only [write, hheader, hrecord, Bool.not_true, Bool.false_eq_true, if_false]

/-- Records that could be written are counted, and their written form has been taken over. -/
theorem received_of_writeRecords {w w' : RecordSink} {records : List Bytes}
    (h : Sinks.writeRecords w records = (.ok (), w')) :
    w'.sink.received = w.sink.received ++ encodeAll records ∧
      w'.written = w.written + records.length := by
  induction records generalizing w with
  | nil =>
    cases h
    exact ⟨(List.append_nil _).symm, rfl⟩
  | cons record records ih =>
    rw [Sinks.writeRecords] at h
    rcases hwrite : w.write record with ⟨result, u⟩
    rw [hwrite] at h
    cases result with
    | error e => cases h
    | ok done =>
      obtain ⟨hreceived, hwritten⟩ := received_of_write hwrite
      obtain ⟨ihreceived, ihwritten⟩ := ih h
      refine ⟨?_, ?_⟩
      · rw [ihreceived, hreceived, encodeAll_cons, List.append_assoc]
      · rw [ihwritten, hwritten, List.length_cons]
        omega

/-- Without a limit all records can be written. -/
theorem exists_writeRecords_of_unlimited {w : RecordSink} (h : w.sink.limit = none)
    (records : List Bytes) : ∃ w', Sinks.writeRecords w records = (.ok (), w') := by
  induction records generalizing w with
  | nil => exact ⟨w, rfl⟩
  | cons record records ih =>
    obtain ⟨u, hwrite, hu⟩ := exists_write_of_unlimited h record
    obtain ⟨w', hmore⟩ := ih hu
    exact ⟨w', by rw [Sinks.writeRecords, hwrite]; exact hmore⟩

/-- What a new stream has been given is the written form of its records. -/
theorem received_of_start {sink : ByteSink} (hnew : sink.received = []) {w : RecordSink}
    {records : List Bytes} (h : Sinks.writeRecords (.start sink) records = (.ok (), w)) :
    w.sink.received = encodeAll records := by
  rw [(received_of_writeRecords h).1, start, hnew, List.nil_append]

/-- Closing a stream that works passes on all its bytes. -/
theorem content_of_close {w w' : RecordSink} (h : w.close = (.ok (), w')) :
    w'.sink.content = w.sink.received := by
  unfold close at h
  rcases hclose : w.sink.close with ⟨done, t⟩
  rw [hclose] at h
  cases done with
  | false => cases h
  | true =>
    cases h
    exact ByteSink.content_of_close hclose

/-- Writing records and reading them are inverse to each other, for sinks with any buffer and any
limit that have taken nothing over yet and for sources that hand out their bytes in any pieces.
Every list of records can be written where there is no limit. Records that could be written are
counted, closing the sink passes on what it was given, and if their lengths fit into eight bytes
they are read back. So are the records of two streams, be it that the second continues the first one
or that its bytes follow those of the first one. Bytes that can be read are those that writing what
was read gives. -/
theorem records_codec {sink other : ByteSink} (hsink : sink.received = [])
    (hother : other.received = []) :
    (sink.limit = none → ∀ records, ∃ w, Sinks.writeRecords (.start sink) records = (.ok (), w)) ∧
    (∀ records w, Sinks.writeRecords (.start sink) records = (.ok (), w) →
      w.written = records.length ∧
      (∀ w', w.close = (.ok (), w') → w'.sink.content = w.sink.received) ∧
      ((∀ r ∈ records, r.length < 2 ^ 64) → ∀ source : ByteSource,
        source.rest = w.sink.received → RecordSource.readAll source = .ok records)) ∧
    (∀ records more w w', Sinks.writeRecords (.start sink) records = (.ok (), w) →
      (∀ r ∈ records ++ more, r.length < 2 ^ 64) → ∀ source : ByteSource,
      (Sinks.writeRecords w more = (.ok (), w') ∧ source.rest = w'.sink.received ∨
        Sinks.writeRecords (.start other) more = (.ok (), w') ∧
          source.rest = w.sink.received ++ w'.sink.received) →
      RecordSource.readAll source = .ok (records ++ more)) ∧
    (∀ (source : ByteSource) records, RecordSource.readAll source = .ok records →
      ∀ w, Sinks.writeRecords (.start sink) records = (.ok (), w) →
        w.sink.received = source.rest) := by
  refine ⟨fun hlimit records => exists_writeRecords_of_unlimited hlimit records, ?_, ?_, ?_⟩
  · intro records w hw
    refine ⟨?_, fun w' hclose => content_of_close hclose, fun hlen source hsource => ?_⟩
    · rw [(received_of_writeRecords hw).2, start, Nat.zero_add]
    · exact RecordSource.readAll_eq_ok_iff.2
        ⟨hsource.trans (received_of_start hsink hw), hlen⟩
  · intro records more w w' hw hlen source hsource
    refine RecordSource.readAll_eq_ok_iff.2 ⟨?_, hlen⟩
    rw [encodeAll_append, ← received_of_start hsink hw]
    rcases hsource with ⟨hmore, hsource⟩ | ⟨hmore, hsource⟩
    · rw [hsource, (received_of_writeRecords hmore).1]
    · rw [hsource, received_of_start hother hmore]
  · intro source records hread w hw
    rw [received_of_start hsink hw, (RecordSource.readAll_eq_ok_iff.1 hread).1]

/-- Two records, one of them empty, behind a buffer of four bytes. -/
theorem records_codec_of_small_buffer :
    ∃ w, Sinks.writeRecords (.start { ByteSink.plain with capacity := 4 }) [[1, 2], []] =
        (.ok (), w) ∧
      w.sink.received = [2, 0, 0, 0, 0, 0, 0, 0, 1, 2, 0, 0, 0, 0, 0, 0, 0, 0] ∧
      RecordSource.readAll (.ofBytes w.sink.received) = .ok [[1, 2], []] := by
  obtain ⟨w, hw, hreceived⟩ : ∃ w,
      Sinks.writeRecords (.start { ByteSink.plain with capacity := 4 }) [[1, 2], []] =
        (.ok (), w) ∧
      w.sink.received = [2, 0, 0, 0, 0, 0, 0, 0, 1, 2, 0, 0, 0, 0, 0, 0, 0, 0] := ⟨_, rfl, rfl⟩
  obtain ⟨-, hread, -, -⟩ := @records_codec { ByteSink.plain with capacity := 4 } .plain rfl rfl
  obtain ⟨-, -, hback⟩ := hread _ _ hw
  exact ⟨w, hw, hreceived, hback (by decide) _ rfl⟩

end RecordSink

end TraceGen
