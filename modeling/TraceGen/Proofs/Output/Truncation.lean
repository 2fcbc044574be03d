import Mathlib.Order.Bounds.Defs
import TraceGen.Proofs.Output.Closing
import TraceGen.Proofs.Output.Parsing
import TraceGen.Proofs.Output.PerformanceLog

/-!
# What a device that fills up holds

`RecordSink.full_device_keeps_beginning` is about a device that takes a number of bytes and fails
from then on, and about a program that goes on writing nevertheless. The device holds the beginning
of all that should have been written. What fits whole has been written and counted, and all later
writes have failed. A reader of the device gets these records, and then learns how much is missing
of the record where the device filled up, if it filled up inside one.

`ByteSink.Capped` is the invariant: the device holds the first bytes of a stream, which grows by
every piece, whether or not writing it works. Records and performance lines have in common that each
item is one piece (`WritesPieces`), and `attemptAll_spec` is proved once for both. Nothing more fits
behind a piece that does not fit (`fitting_zero`), since no piece is empty.
-/

namespace TraceGen

open TraceGen.Frame

/-! ## A device with a limit -/

namespace ByteSink

variable {limit : Nat} {stream : Bytes} {s : ByteSink}

/-- A device that takes a number of bytes, without a buffer before it. -/
def limited (limit : Nat) : ByteSink :=
  { plain with limit := some limit }

/-- The sink has no buffer, and the device holds what it takes of a stream. -/
structure Capped (limit : Nat) (stream : Bytes) (s : ByteSink) : Prop where
  /-- The buffer has no room. -/
  unbuffered : s.capacity = 0
  /-- The buffer is empty. -/
  empty : s.pending = []
  /-- The device takes this number of bytes. -/
  limited : s.limit = some limit
  /-- It holds the beginning of the stream. -/
  content : s.content = stream.take limit

/-- Nothing has been written yet. -/
theorem capped_limited (limit : Nat) : Capped limit [] (.limited limit) :=
  ⟨rfl, rfl, rfl, List.take_nil.symm⟩

/-- Without a buffer bytes are passed to the device at once. -/
theorem writeAll_of_unbuffered (hcapacity : s.capacity = 0) (hempty : s.pending = [])
    (data : Bytes) : s.writeAll data = s.pushAll data := by
  have hbypass : s.bypass data = s.pushAll data := by
    unfold bypass
    simp [pushAll, hcapacity]
  unfold writeAll
  rw [drain_of_empty hempty, ite_self]
  simp only [Bool.not_true, Bool.false_eq_true, if_false, hcapacity, Nat.zero_le, if_true, hbypass]

/-- The stream grows by what should be written, and writing works if the device has room for it. -/
theorem Capped.writeAll (h : Capped limit stream s) (data : Bytes) :
    Capped limit (stream ++ data) (s.writeAll data).2 ∧
      ((s.writeAll data).1 = true ↔ data.length ≤ limit - stream.length) := by
  -- The device is as full as the stream makes it.
  have hroom : limit - s.content.length = limit - stream.length := by
    rw [h.content, List.length_take]
    omega
  have hadmitted : s.admitted data.length = min data.length (limit - stream.length) := by
    unfold admitted
    rw [h.limited]
    exact congrArg (min data.length) hroom
  rw [writeAll_of_unbuffered h.unbuffered h.empty]
  unfold pushAll
  simp only [hadmitted, beq_iff_eq]
  refine ⟨⟨h.unbuffered, h.empty, h.limited, ?_⟩, ?_⟩
  · calc s.content ++ data.take (min data.length (limit - stream.length))
        = stream.take limit ++ (data.take data.length).take (limit - stream.length) := by
          rw [h.content, List.take_take, Nat.min_comm]
      _ = stream.take limit ++ data.take (limit - stream.length) := by rw [List.take_length]
      _ = (stream ++ data).take limit := List.take_append.symm
  · omega

/-- What comes after the device is full changes nothing. -/
theorem Capped.append (h : Capped limit stream s) (hfull : limit ≤ stream.length) (more : Bytes) :
    Capped limit (stream ++ more) s := by
  refine ⟨h.unbuffered, h.empty, h.limited, ?_⟩
  rw [h.content, List.take_append_of_le_length hfull]

end ByteSink

/-! ## Pieces that fit -/

section Pieces

variable {room : Nat} {piece : Bytes} {pieces : List Bytes}

/-- The number of pieces that fit whole into so much room, from the first one on. -/
def fitting : Nat → List Bytes → Nat
  | _, [] => 0
  | room, piece :: pieces =>
    if piece.length ≤ room then fitting (room - piece.length) pieces + 1 else 0

/-- Nothing fits where there is no room. -/
theorem fitting_zero (h : ∀ piece ∈ pieces, piece ≠ []) : fitting 0 pieces = 0 := by
  cases pieces with
  | nil => rfl
  | cons piece pieces =>
    have hpos : 0 < piece.length := List.length_pos_iff.2 (h piece List.mem_cons_self)
    rw [fitting, if_neg (Nat.not_le.2 hpos)]

/-- It is the greatest number of pieces that take no more than the room. -/
theorem isGreatest_fitting (room : Nat) (pieces : List Bytes) :
    IsGreatest {n | n ≤ pieces.length ∧ (pieces.take n).flatten.length ≤ room}
      (fitting room pieces) := by
  induction pieces generalizing room with
  | nil =>
    refine ⟨⟨Nat.le_refl 0, Nat.zero_le room⟩, ?_⟩
    rintro n ⟨hn, -⟩
    exact hn
  | cons piece pieces ih =>
    rw [fitting]
    by_cases hfits : piece.length ≤ room
    · -- The others fit into the room that this piece leaves.
      obtain ⟨⟨hcount, hsize⟩, hgreatest⟩ := ih (room - piece.length)
      rw [if_pos hfits]
      refine ⟨⟨Nat.succ_le_succ hcount, ?_⟩, ?_⟩
      · rw [List.take_succ_cons, List.flatten_cons, List.length_append]
        omega
      · rintro n ⟨hn, hroom⟩
        cases n with
        | zero => exact Nat.zero_le _
        | succ n =>
          rw [List.take_succ_cons, List.flatten_cons, List.length_append] at hroom
          have hless : (pieces.take n).flatten.length ≤ room - piece.length := by omega
          exact Nat.succ_le_succ (hgreatest ⟨Nat.le_of_succ_le_succ hn, hless⟩)
    · -- Any more than none of the pieces would take this one with them.
      rw [if_neg hfits]
      refine ⟨⟨Nat.zero_le _, Nat.zero_le _⟩, ?_⟩
      rintro n ⟨-, hroom⟩
      cases n with
      | zero => exact Nat.le_refl 0
      | succ n =>
        rw [List.take_succ_cons, List.flatten_cons, List.length_append] at hroom
        omega

end Pieces

/-! ## The record where a stream was cut -/

namespace Frame

variable {record left : Bytes} {records : List Bytes}

/-- Some bytes of the written form of a record are there, but not all of them. -/
structure Torn (record left : Bytes) : Prop where
  /-- Some are there. -/
  nonempty : left ≠ []
  /-- They are the first ones. -/
  isPrefix : left <+: encode record
  /-- Some are missing. -/
  short : left.length < (encode record).length

/-- A torn record has announced its length if this is there. -/
theorem Torn.announced_eq (h : Torn record left) (hlen : record.length < 2 ^ 64)
    (hheader : lengthBytes ≤ left.length) : announced left = record.length := by
  have hfirst : left.take lengthBytes = (encode record).take lengthBytes := by
    rw [List.prefix_iff_eq_take.1 h.isPrefix, List.take_take, Nat.min_eq_left hheader]
  rw [announced, hfirst, ← announced, ← List.append_nil (encode record), announced_encode hlen]

/-- A torn record is not complete. -/
theorem Torn.incomplete (h : Torn record left) (hlen : record.length < 2 ^ 64) :
    Incomplete left := by
  rw [incomplete_iff]
  by_cases hheader : lengthBytes ≤ left.length
  · have hshort := h.short
    rw [encode, List.length_append, length_header] at hshort
    rwa [h.announced_eq hlen hheader]
  · omega

/-- What is missing of a torn record: bytes of the length, or bytes of the record itself. -/
theorem Torn.shortage_eq (h : Torn record left) (hlen : record.length < 2 ^ 64) :
    shortage left = if left.length < lengthBytes then .truncatedRecord lengthBytes left.length
      else .truncatedRecord record.length (left.length - lengthBytes) := by
  unfold shortage
  by_cases hheader : left.length < lengthBytes
  · rw [if_pos hheader, if_pos hheader]
  · rw [if_neg hheader, if_neg hheader, h.announced_eq hlen (Nat.le_of_not_lt hheader)]

/-- A stream that is cut has the records that fit, and then perhaps a torn one. -/
theorem exists_parsed_take (hfits : ∀ r ∈ records, r.length < 2 ^ 64) (limit : Nat) :
    ∃ left, Parsed ((encodeAll records).take limit)
        (records.take (fitting limit (records.map encode))) left ∧
      (left = [] ∨ ∃ record, records[fitting limit (records.map encode)]? = some record ∧
        record.length < 2 ^ 64 ∧ Torn record left) := by
  induction records generalizing limit with
  | nil =>
    refine ⟨[], ?_, .inl rfl⟩
    rw [encodeAll, List.flatMap_nil, List.take_nil]
    exact incomplete_nil.parsed
  | cons record records ih =>
    obtain ⟨hlen, hfits⟩ := List.forall_mem_cons.1 hfits
    rw [encodeAll_cons, List.take_append, List.map_cons, fitting]
    by_cases hwhole : (encode record).length ≤ limit
    · obtain ⟨left, hparsed, hleft⟩ := ih hfits (limit - (encode record).length)
      rw [if_pos hwhole, List.take_of_length_le hwhole]
      exact ⟨left, hparsed.cons hlen, hleft⟩
    · -- The cut goes through this record, or before it.
      have hbehind : limit - (encode record).length = 0 := by omega
      rw [if_neg hwhole, hbehind, List.take_zero, List.append_nil]
      by_cases hnone : (encode record).take limit = []
      · rw [hnone]
        exact ⟨[], incomplete_nil.parsed, .inl rfl⟩
      · have htorn : Torn record ((encode record).take limit) := by
          refine ⟨hnone, List.take_prefix _ _, ?_⟩
          rw [List.length_take]
          omega
        exact ⟨_, (htorn.incomplete hlen).parsed, .inr ⟨record, rfl, hlen, htorn⟩⟩

end Frame

/-! ## Writing on after errors -/

section Attempts

variable {σ α : Type} {limit : Nat} {stream : Bytes}
  {write : σ → α → Except SinkError Unit × σ} {state : σ → ByteSink × Nat} {piece : α → Bytes}

/-- Writes items one after the other and goes on after errors. Beside the state in the end stand all
results. -/
def attemptAll (write : σ → α → Except SinkError Unit × σ) :
    σ → List α → List (Except SinkError Unit) × σ
  | w, [] => ([], w)
  | w, item :: items =>
    ((write w item).1 :: (attemptAll write (write w item).2 items).1,
      (attemptAll write (write w item).2 items).2)

/-- An item is written as one piece: the stream grows by it, and it is counted exactly if the device
has taken all of it, which else is an error. The state is the sink and the count. -/
def WritesPieces (limit : Nat) (write : σ → α → Except SinkError Unit × σ)
    (state : σ → ByteSink × Nat) (piece : α → Bytes) : Prop :=
  ∀ stream w item, ByteSink.Capped limit stream (state w).1 →
    ByteSink.Capped limit (stream ++ piece item) (state (write w item).2).1 ∧
      if stream.length + (piece item).length ≤ limit then
        (write w item).1 = .ok () ∧ (state (write w item).2).2 = (state w).2 + 1
      else (write w item).1 = .error (.io "") ∧ (state (write w item).2).2 = (state w).2

/-- After all attempts the device holds the beginning of all pieces. Those that fit were written and
counted, and the others failed. -/
theorem attemptAll_spec (hwrite : WritesPieces limit write state piece)
    (hpiece : ∀ item, piece item ≠ []) (items : List α) {w : σ}
    (h : ByteSink.Capped limit stream (state w).1) :
    (attemptAll write w items).1 =
        List.replicate (fitting (limit - stream.length) (items.map piece)) (.ok ()) ++
          List.replicate (items.length - fitting (limit - stream.length) (items.map piece))
            (.error (.io "")) ∧
      ByteSink.Capped limit (stream ++ items.flatMap piece)
        (state (attemptAll write w items).2).1 ∧
      (state (attemptAll write w items).2).2 =
        (state w).2 + fitting (limit - stream.length) (items.map piece) := by
  induction items generalizing stream w with
  | nil =>
    refine ⟨rfl, ?_, rfl⟩
    rw [List.flatMap_nil, List.append_nil]
    exact h
  | cons item items ih =>
    obtain ⟨hcapped, hresult⟩ := hwrite stream w item h
    obtain ⟨hresults, hcapped', hcount⟩ := ih hcapped
    have hpos : 0 < (piece item).length := List.length_pos_iff.2 (hpiece item)
    have hroom : limit - (stream ++ piece item).length =
        limit - stream.length - (piece item).length := by
      rw [List.length_append]
      omega
    rw [hroom] at hresults hcount
    rw [List.append_assoc, ← List.flatMap_cons] at hcapped'
    rw [attemptAll, List.map_cons, fitting, List.length_cons]
    by_cases hfits : stream.length + (piece item).length ≤ limit
    · have hroom' : (piece item).length ≤ limit - stream.length := by omega
      rw [if_pos hfits] at hresult
      rw [if_pos hroom', Nat.add_sub_add_right, List.replicate_succ, List.cons_append, ← hresults,
        hresult.1]
      refine ⟨rfl, hcapped', ?_⟩
      rw [hcount, hresult.2]
      omega
    · -- The device is full now, so that nothing fits any more.
      have hroom' : ¬ (piece item).length ≤ limit - stream.length := by omega
      have hfull : limit - stream.length - (piece item).length = 0 := by omega
      have hnone : fitting 0 (items.map piece) = 0 := by
        refine fitting_zero ?_
        rw [List.forall_mem_map]
        exact fun item _ => hpiece item
      rw [if_neg hfits] at hresult
      rw [hfull, hnone] at hresults hcount
      rw [if_neg hroom', hresults, hresult.1, hcount, hresult.2]
      exact ⟨rfl, hcapped', rfl⟩

/-- What attempts to write to a device that holds nothing yet leave there, and how many of them are
counted. -/
theorem attemptAll_limited (hwrite : WritesPieces limit write state piece)
    (hpiece : ∀ item, piece item ≠ []) (items : List α) {w : σ}
    (h : state w = (.limited limit, 0)) :
    (state (attemptAll write w items).2).1.content = (items.flatMap piece).take limit ∧
      (state (attemptAll write w items).2).2 = fitting limit (items.map piece) ∧
      IsGreatest {n | n ≤ items.length ∧ ((items.take n).flatMap piece).length ≤ limit}
        (fitting limit (items.map piece)) ∧
      (attemptAll write w items).1 =
        List.replicate (fitting limit (items.map piece)) (.ok ()) ++
          List.replicate (items.length - fitting limit (items.map piece)) (.error (.io "")) := by
  have hstart : ByteSink.Capped limit [] (state w).1 := by
    rw [h]
    exact ByteSink.capped_limited limit
  obtain ⟨hresults, hcapped, hcount⟩ := attemptAll_spec hwrite hpiece items hstart
  rw [h] at hcount
  rw [List.length_nil, Nat.sub_zero] at hresults hcount
  refine ⟨hcapped.content, hcount.trans (Nat.zero_add _), ?_, hresults⟩
  have hgreatest := isGreatest_fitting limit (items.map piece)
  simpa only [List.length_map, ← List.map_take, ← List.flatMap_def] using hgreatest

end Attempts

/-- The written form of a record is not empty. -/
theorem Frame.encode_ne_nil (record : Bytes) : encode record ≠ [] :=
  List.append_ne_nil_of_left_ne_nil (List.cons_ne_nil _ _) _

/-- A record is written as one piece, although the length is written first. -/
theorem RecordSink.writesPieces (limit : Nat) :
    WritesPieces limit RecordSink.write (fun w => (w.sink, w.written)) encode := by
  intro stream w record h
  have hlength : (encode record).length = lengthBytes + record.length := by
    rw [encode, List.length_append, length_header]
  -- The length is written first, and the record only if that works.
  obtain ⟨hheader, hheaderFits⟩ := h.writeAll (header record)
  rw [length_header] at hheaderFits
  unfold write
  rcases hfirst : w.sink.writeAll (header record) with ⟨done, sink⟩
  rw [hfirst] at hheader hheaderFits
  cases done with
  | false =>
    -- The device filled up inside the length.
    have hfull : ¬ lengthBytes ≤ limit - stream.length := fun hfits =>
      Bool.false_ne_true (hheaderFits.2 hfits)
    have hnot : ¬ stream.length + (encode record).length ≤ limit := by omega
    have hover : limit ≤ (stream ++ header record).length := by
      rw [List.length_append, length_header]
      omega
    have hcapped := hheader.append hover record
    rw [List.append_assoc, ← encode] at hcapped
    rw [if_neg hnot]
    exact ⟨hcapped, rfl, rfl⟩
  | true =>
    have hroom : lengthBytes ≤ limit - stream.length := hheaderFits.1 rfl
    obtain ⟨hrecord, hrecordFits⟩ := hheader.writeAll record
    rw [List.append_assoc, ← encode] at hrecord
    rw [List.length_append, length_header] at hrecordFits
    simp only [Bool.not_true, Bool.false_eq_true, if_false]
    rcases hsecond : sink.writeAll record with ⟨done, sink'⟩
    simp only [hsecond] at hrecord hrecordFits ⊢
    have hpos : 0 < lengthBytes := Nat.zero_lt_succ _
    cases done with
    | false =>
      -- The device filled up inside the record.
      have hnot : ¬ stream.length + (encode record).length ≤ limit := fun hfits =>
        Bool.false_ne_true (hrecordFits.2 (by omega))
      rw [if_neg hnot]
      exact ⟨hrecord, rfl, rfl⟩
    | true =>
      have hfits : stream.length + (encode record).length ≤ limit := by
        have hless := hrecordFits.1 rfl
        omega
      rw [if_pos hfits]
      exact ⟨hrecord, rfl, rfl⟩

/-- A line is not empty. -/
theorem PerformanceRow.encode_line_ne_nil (row : PerformanceRow) : Text.encode row.line ≠ [] := by
  rw [line, Text.encode_append]
  exact List.append_ne_nil_of_right_ne_nil _ (by decide)

/-- A line is written as one piece. -/
theorem PerformanceSink.writesPieces (limit : Nat) :
    WritesPieces limit PerformanceSink.write (fun w => (w.sink, w.lines))
      (fun row => Text.encode row.line) := by
  intro stream w row h
  have hpos : 0 < (Text.encode row.line).length :=
    List.length_pos_iff.2 (PerformanceRow.encode_line_ne_nil row)
  obtain ⟨hline, hlineFits⟩ := h.writeAll (Text.encode row.line)
  unfold write
  rcases hwrite : w.sink.writeAll (Text.encode row.line) with ⟨done, sink⟩
  rw [hwrite] at hline hlineFits
  cases done with
  | false =>
    have hnot : ¬ stream.length + (Text.encode row.line).length ≤ limit := fun hfits =>
      Bool.false_ne_true (hlineFits.2 (by omega))
    rw [if_neg hnot]
    exact ⟨hline, rfl, rfl⟩
  | true =>
    have hfits : stream.length + (Text.encode row.line).length ≤ limit := by
      have hless := hlineFits.1 rfl
      omega
    rw [if_pos hfits]
    exact ⟨hline, rfl, rfl⟩

/-- A device that takes `limit` bytes holds the first ones of all that should have been written, if
a program goes on writing after errors. The records that fit whole, and no others, have been written
and counted. Reading the device gives these records, and then the end; or it gives them, says how
many bytes are missing of the next record, of which some but not all are there, and then gives the
end. The lines of a performance log are treated in the same way. -/
theorem RecordSink.full_device_keeps_beginning (limit : Nat) :
    (∀ records : List Bytes, ∃ results w,
      attemptAll RecordSink.write (.start (.limited limit)) records = (results, w) ∧
      w.sink.content = (encodeAll records).take limit ∧
      IsGreatest {n | n ≤ records.length ∧ (encodeAll (records.take n)).length ≤ limit} w.written ∧
      results = List.replicate w.written (.ok ()) ++
        List.replicate (records.length - w.written) (.error (.io "")) ∧
      ((∀ r ∈ records, r.length < 2 ^ 64) → ∃ left,
        w.sink.content = encodeAll (records.take w.written) ++ left ∧
        (left = [] ∨ ∃ record, records[w.written]? = some record ∧ Torn record left ∧
          shortage left =
            if left.length < lengthBytes then .truncatedRecord lengthBytes left.length
            else .truncatedRecord record.length (left.length - lengthBytes)) ∧
        ∀ source : ByteSource, source.rest = w.sink.content → ∀ calls,
          RecordSource.results calls source =
            (RecordSource.outcomes (records.take w.written) left).take calls ++
              List.replicate
                (calls - (RecordSource.outcomes (records.take w.written) left).length)
                (.ok none))) ∧
    (∀ rows : List PerformanceRow, ∃ results w,
      attemptAll PerformanceSink.write (.start (.limited limit)) rows = (results, w) ∧
      w.sink.content = (rows.flatMap fun row => Text.encode row.line).take limit ∧
      IsGreatest {n | n ≤ rows.length ∧
        ((rows.take n).flatMap fun row => Text.encode row.line).length ≤ limit} w.lines ∧
      results = List.replicate w.lines (.ok ()) ++
        List.replicate (rows.length - w.lines) (.error (.io ""))) := by
  constructor
  · intro records
    obtain ⟨hcontent, hcount, hgreatest, hresults⟩ := attemptAll_limited
      (RecordSink.writesPieces limit) encode_ne_nil records (w := .start (.limited limit)) rfl
    dsimp only at hcontent hcount
    rw [← hcount] at hgreatest hresults
    refine ⟨_, _, rfl, hcontent, hgreatest, hresults, fun hfits => ?_⟩
    obtain ⟨left, hparsed, hleft⟩ := exists_parsed_take hfits limit
    rw [← hcount] at hparsed hleft
    refine ⟨left, hcontent.trans hparsed.split, ?_, ?_⟩
    · rcases hleft with hnone | ⟨record, hrecord, hlen, htorn⟩
      · exact .inl hnone
      · exact .inr ⟨record, hrecord, htorn, htorn.shortage_eq hlen⟩
    · intro source hsource
      refine RecordSource.results_eq ?_
      rw [hsource, hcontent]
      exact hparsed
  · intro rows
    obtain ⟨hcontent, hcount, hgreatest, hresults⟩ := attemptAll_limited
      (PerformanceSink.writesPieces limit) PerformanceRow.encode_line_ne_nil rows
      (w := .start (.limited limit)) rfl
    dsimp only at hcontent hcount
    rw [← hcount] at hgreatest hresults
    exact ⟨_, _, rfl, hcontent, hgreatest, hresults⟩

/-- A device of 19 bytes takes a record of one byte, and of the next one the length and two bytes.
-/
theorem RecordSink.full_device_keeps_beginning_of_torn_record :
    ∃ w, attemptAll RecordSink.write (.start (.limited 19)) [[7], [1, 2, 3, 4, 5], []] =
        ([.ok (), .error (.io ""), .error (.io "")], w) ∧
      w.sink.content = RecordSource.Sample.torn ∧ w.written = 1 ∧
      RecordSource.results 3 (.ofBytes w.sink.content) =
        [.ok (some [7]), .error (.truncatedRecord 5 2), .ok none] := by
  obtain ⟨results, w, hrun, hcontent, -, hresults, hread⟩ :=
    (full_device_keeps_beginning 19).1 [[7], [1, 2, 3, 4, 5], []]
  have hcount : w.written = 1 := by
    have hw := congrArg (fun run => run.2.written) hrun
    exact hw.symm.trans (by decide)
  rw [hcount] at hresults hread
  obtain rfl : results = [.ok (), .error (.io ""), .error (.io "")] := hresults
  obtain ⟨left, hleft, -, hback⟩ := hread (by decide)
  have hknown : left = [5, 0, 0, 0, 0, 0, 0, 0, 1, 2] :=
    List.append_cancel_left (hleft.symm.trans hcontent)
  refine ⟨w, hrun, hcontent, hcount, (hback _ rfl 3).trans ?_⟩
  rw [hknown]
  rfl

end TraceGen
