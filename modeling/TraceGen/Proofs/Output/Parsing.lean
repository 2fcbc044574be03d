import TraceGen.Proofs.Output.Framing

/-!
# Reading a stream, however it is delivered

Bytes begin with some records that are complete, and then bytes may be left with which no complete
record begins (`Frame.Parsed`). There are no others: `Frame.exists_parsed` finds them,
`Frame.Parsed.isPrefix` says that no complete record follows them, and `Frame.Parsed.unique` that
they are determined by the bytes.

`RecordSource.reading_ignores_delivery` says that this is all a reader sees. Reading again and again
gives the records, then says how much is missing of the last one if bytes are left, and after that
gives nothing any more (`RecordSource.results_eq`), in whatever pieces the source hands out its
bytes. A call of `RecordSource.next` has three cases for this: the stream is at its end, begins with
a record, or begins with a part of one.
-/

namespace TraceGen

namespace Frame

variable {bytes left : Bytes} {records others : List Bytes}

/-! ## Complete records at the beginning -/

/-- No complete record stands at the beginning of the bytes. -/
def Incomplete (bytes : Bytes) : Prop :=
  ∀ record rest : Bytes, record.length < 2 ^ 64 → bytes ≠ encode record ++ rest

/-- What is missing of bytes with which no complete record begins. -/
def shortage (bytes : Bytes) : SinkError :=
  if bytes.length < lengthBytes then .truncatedRecord lengthBytes bytes.length
  else .truncatedRecord (announced bytes) (bytes.length - lengthBytes)

/-- Bytes that are long enough for the length that they announce begin with a record. -/
theorem exists_encode_of_announced (h : lengthBytes + announced bytes ≤ bytes.length) :
    ∃ record rest, record.length < 2 ^ 64 ∧ bytes = encode record ++ rest := by
  have hpos : 0 < lengthBytes := Nat.zero_lt_succ _
  have hsome : bytes ≠ [] := List.length_pos_iff.1 (by omega)
  have hlong : ¬ bytes.length < lengthBytes := by omega
  have hwhole : ¬ (bytes.drop lengthBytes).length < announced bytes := by
    rw [List.length_drop]
    omega
  have hparse : parse bytes = (.ok (some ((bytes.drop lengthBytes).take (announced bytes))),
      (bytes.drop lengthBytes).drop (announced bytes)) := by
    rw [parse, if_neg hsome, if_neg hlong]
    exact if_neg hwhole
  exact ⟨_, _, encode_of_parse hparse⟩

/-- No record is complete exactly if there are fewer bytes than the first ones ask for. -/
theorem incomplete_iff : Incomplete bytes ↔ bytes.length < lengthBytes + announced bytes := by
  constructor
  · intro h
    refine Nat.lt_of_not_le fun hlong => ?_
    obtain ⟨record, rest, hlen, hbytes⟩ := exists_encode_of_announced hlong
    exact h record rest hlen hbytes
  · rintro hshort record rest hlen rfl
    rw [announced_encode hlen, encode, List.length_append, List.length_append,
      length_header] at hshort
    omega

/-- Nothing is left of no bytes. -/
theorem incomplete_nil : Incomplete [] :=
  incomplete_iff.2 (Nat.zero_lt_succ _)

/-- Of bytes with which no complete record begins nothing is left behind what is said of them. -/
theorem Incomplete.parse_eq (h : Incomplete bytes) (hsome : bytes ≠ []) :
    parse bytes = (.error (shortage bytes), []) := by
  rw [incomplete_iff] at h
  unfold parse shortage
  rw [if_neg hsome]
  by_cases hshort : bytes.length < lengthBytes
  · rw [if_pos hshort, if_pos hshort]
  · have hcut : bytes.length - lengthBytes < announced bytes := by omega
    rw [if_neg hshort, if_neg hshort]
    simp only [List.length_drop, if_pos hcut]

/-- A stream begins with one record at most. -/
theorem encode_append_inj {record other rest rest' : Bytes} (hlen : record.length < 2 ^ 64)
    (hlen' : other.length < 2 ^ 64) (h : encode record ++ rest = encode other ++ rest') :
    record = other ∧ rest = rest' := by
  have hparse := parse_encode hlen' rest'
  rw [← h, parse_encode hlen rest] at hparse
  cases hparse
  exact ⟨rfl, rfl⟩

/-- The bytes are made of complete records and of bytes with which no complete record begins. -/
structure Parsed (bytes : Bytes) (records : List Bytes) (left : Bytes) : Prop where
  /-- The records come first. -/
  split : bytes = encodeAll records ++ left
  /-- Their lengths fit into eight bytes. -/
  fits : ∀ r ∈ records, r.length < 2 ^ 64
  /-- No further record is complete. -/
  incomplete : Incomplete left

/-- Bytes with which no complete record begins. -/
theorem Incomplete.parsed (h : Incomplete bytes) : Parsed bytes [] bytes :=
  ⟨rfl, nofun, h⟩

/-- A record before others. -/
theorem Parsed.cons {record : Bytes} (hlen : record.length < 2 ^ 64)
    (h : Parsed bytes records left) : Parsed (encode record ++ bytes) (record :: records) left := by
  refine ⟨?_, List.forall_mem_cons.2 ⟨hlen, h.fits⟩, h.incomplete⟩
  rw [h.split, encodeAll_cons, List.append_assoc]

/-- What follows the first record. -/
theorem Parsed.tail {record : Bytes} (h : Parsed bytes (record :: records) left) :
    record.length < 2 ^ 64 ∧ bytes = encode record ++ (encodeAll records ++ left) ∧
      Parsed (encodeAll records ++ left) records left := by
  obtain ⟨hlen, hfits⟩ := List.forall_mem_cons.1 h.fits
  refine ⟨hlen, ?_, rfl, hfits, h.incomplete⟩
  rw [h.split, encodeAll_cons, List.append_assoc]

/-- All bytes have complete records at their beginning, or none, and no more behind these. -/
theorem exists_parsed (bytes : Bytes) : ∃ records left, Parsed bytes records left := by
  by_cases h : Incomplete bytes
  · exact ⟨[], bytes, h.parsed⟩
  · rw [incomplete_iff, Nat.not_lt] at h
    obtain ⟨record, rest, hlen, hbytes⟩ := exists_encode_of_announced h
    have hshorter : rest.length < bytes.length := by
      rw [hbytes, encode, List.length_append, List.length_append, length_header, lengthBytes]
      omega
    obtain ⟨records, left, hrest⟩ := exists_parsed rest
    exact ⟨record :: records, left, hbytes ▸ hrest.cons hlen⟩
termination_by bytes.length

/-- There is no longer sequence of complete records. -/
theorem Parsed.isPrefix (h : Parsed bytes records left) {rest : Bytes}
    (hsplit : bytes = encodeAll others ++ rest) (hfits : ∀ r ∈ others, r.length < 2 ^ 64) :
    others <+: records := by
  induction others generalizing bytes records with
  | nil => exact List.nil_prefix
  | cons other others ih =>
    obtain ⟨hlen, hfits⟩ := List.forall_mem_cons.1 hfits
    rw [encodeAll_cons, List.append_assoc] at hsplit
    cases records with
    | nil =>
      -- Here a complete record would begin what is left.
      rw [h.split] at hsplit
      exact absurd hsplit (h.incomplete other _ hlen)
    | cons record records =>
      obtain ⟨hlen', hbytes, htail⟩ := h.tail
      obtain ⟨rfl, hrest⟩ := encode_append_inj hlen hlen' (hsplit.symm.trans hbytes)
      exact (List.prefix_cons_inj other).2 (ih htail hrest.symm hfits)

/-- The records and what is left are determined by the bytes. -/
theorem Parsed.unique {left' : Bytes} (h : Parsed bytes records left)
    (h' : Parsed bytes others left') : records = others ∧ left = left' := by
  have hrecords : records = others :=
    (h'.isPrefix h.split h.fits).eq_of_length_le (h.isPrefix h'.split h'.fits).length_le
  subst hrecords
  exact ⟨rfl, List.append_cancel_left (h.split.symm.trans h'.split)⟩

end Frame

namespace RecordSource

open TraceGen.Frame

variable {s : ByteSource} {bytes left : Bytes} {records : List Bytes}

/-! ## One call -/

/-- At the end of a stream nothing more comes. -/
theorem rest_of_end (h : s.rest = []) : (next s).2.rest = [] := by
  rw [(next_eq_parse s).2, h]
  rfl

/-- Where a stream ends inside a record, reading says what is missing and uses up what is there. -/
theorem next_of_incomplete (h : Incomplete s.rest) (hrest : s.rest ≠ []) :
    (next s).1 = .error (shortage s.rest) ∧ (next s).2.rest = [] := by
  obtain ⟨hresult, hleft⟩ := next_eq_parse s
  rw [h.parse_eq hrest] at hresult hleft
  exact ⟨hresult, hleft⟩

/-! ## Call after call -/

/-- What reading a number of times gives. -/
def results : Nat → ByteSource → List (Except SinkError (Option Bytes))
  | 0, _ => []
  | calls + 1, s => (next s).1 :: results calls (next s).2

/-- What there is to say about records and the bytes left behind them. -/
def outcomes (records : List Bytes) (left : Bytes) : List (Except SinkError (Option Bytes)) :=
  records.map (fun record => .ok (some record)) ++
    if left = [] then [] else [.error (shortage left)]

/-- At the end of a stream every call says so. -/
theorem results_of_end (h : s.rest = []) (calls : Nat) :
    results calls s = List.replicate calls (.ok none) := by
  induction calls generalizing s with
  | zero => rfl
  | succ calls ih => rw [results, next_of_end h, ih (rest_of_end h), List.replicate_succ]

/-- Reading gives the records and says what is missing of the last one, and after that it says that
nothing is left. -/
theorem results_eq (h : Parsed s.rest records left) (calls : Nat) :
    results calls s = (outcomes records left).take calls ++
      List.replicate (calls - (outcomes records left).length) (.ok none) := by
  -- Each call takes one record, and after the records one call takes what is left.
  induction records generalizing s calls with
  | nil =>
    have hrest : s.rest = left := h.split
    by_cases hleft : left = []
    · rw [results_of_end (hrest.trans hleft), outcomes, if_pos hleft]
      simp
    · cases calls with
      | zero => simp [results]
      | succ calls =>
        obtain ⟨herror, hend⟩ :=
          next_of_incomplete (s := s) (hrest ▸ h.incomplete) (hrest ▸ hleft)
        rw [results, herror, results_of_end hend, outcomes, if_neg hleft, hrest]
        simp
  | cons record records ih =>
    cases calls with
    | zero => simp [results]
    | succ calls =>
      obtain ⟨hlen, hbytes, htail⟩ := h.tail
      obtain ⟨hnext, hrest⟩ := next_encode hlen hbytes
      rw [results, hnext, ih (hrest ▸ htail) calls]
      simp [outcomes]

/-- Reading all records fails where bytes are left, and says what is missing. -/
theorem readAllWithin_eq_error {fuel : Nat} (hfuel : records.length < fuel)
    (h : Parsed s.rest records left) (hleft : left ≠ []) :
    readAllWithin fuel s = .error (shortage left) := by
  induction records generalizing fuel s with
  | nil =>
    obtain ⟨fuel, rfl⟩ := Nat.exists_eq_add_one_of_ne_zero (Nat.ne_of_gt hfuel)
    have hrest : s.rest = left := h.split
    have herror := (next_of_incomplete (s := s) (hrest ▸ h.incomplete) (hrest ▸ hleft)).1
    rw [readAllWithin_succ, herror, hrest]
  | cons record records ih =>
    obtain ⟨fuel, rfl⟩ := Nat.exists_eq_add_one_of_ne_zero (Nat.ne_zero_of_lt hfuel)
    obtain ⟨hlen, hbytes, htail⟩ := h.tail
    obtain ⟨hrecord, hrest⟩ := next_encode hlen hbytes
    rw [List.length_cons] at hfuel
    have hmore := ih (Nat.lt_of_succ_lt_succ hfuel) (hrest ▸ htail)
    rw [readAllWithin_succ, hrecord]
    simp only [hmore, Except.map]

/-- Reading all records gives them exactly if no bytes are left, and else says what is missing. -/
theorem readAll_of_parsed (h : Parsed s.rest records left) :
    (∀ found, readAll s = .ok found ↔ left = [] ∧ found = records) ∧
      (left ≠ [] → readAll s = .error (shortage left)) := by
  constructor
  · intro found
    rw [readAll_eq_ok_iff]
    constructor
    · rintro ⟨hfound, hfits⟩
      have hwhole : Parsed s.rest found [] :=
        ⟨hfound.trans (List.append_nil _).symm, hfits, incomplete_nil⟩
      obtain ⟨rfl, rfl⟩ := h.unique hwhole
      exact ⟨rfl, rfl⟩
    · rintro ⟨rfl, rfl⟩
      exact ⟨h.split.trans (List.append_nil _), h.fits⟩
  · -- There are not more records than bytes, so that the fuel is enough.
    intro hleft
    refine readAllWithin_eq_error ?_ h hleft
    have hcount := length_le_length_encodeAll records
    have hlength := congrArg List.length h.split
    rw [List.length_append] at hlength
    omega

/-- Reading sees the bytes of a stream only, and not in which pieces the source hands them out. The
bytes have a longest sequence of complete records at their beginning. Reading gives these records
one after the other. If bytes are left behind them it says once how many bytes are missing, of the
length if there are fewer than eight and else of the record, and from then on it says that the
stream has ended. Reading all records gives them exactly if no bytes are left. -/
theorem reading_ignores_delivery (bytes : Bytes) :
    ∃ records left, Parsed bytes records left ∧
      (∀ others rest, bytes = encodeAll others ++ rest → (∀ r ∈ others, r.length < 2 ^ 64) →
        others <+: records) ∧
      ∀ source : ByteSource, source.rest = bytes →
        (∀ calls, results calls source = (outcomes records left).take calls ++
          List.replicate (calls - (outcomes records left).length) (.ok none)) ∧
        (bytes = [] → (next source).1 = .ok none) ∧
        (∀ found, readAll source = .ok found ↔ left = [] ∧ found = records) ∧
        (left ≠ [] → readAll source = .error (shortage left)) := by
  obtain ⟨records, left, h⟩ := exists_parsed bytes
  refine ⟨records, left, h, fun others rest hsplit hfits => h.isPrefix hsplit hfits, ?_⟩
  rintro source rfl
  exact ⟨results_eq h, next_of_end, readAll_of_parsed h⟩

namespace Sample

/-- A record of one byte, and the length and two bytes of a record of five. -/
def torn : Bytes :=
  [1, 0, 0, 0, 0, 0, 0, 0, 7, 5, 0, 0, 0, 0, 0, 0, 0, 1, 2]

/-- These bytes in pieces of one, two and three in turn. -/
def dripping : ByteSource :=
  ⟨torn, fun i => i % 3 + 1, 0⟩

end Sample

/-- The second record lacks three of its bytes, and the stream has ended behind it. -/
theorem reading_ignores_delivery_of_small_pieces :
    Sample.dripping.rest = Sample.torn ∧
      results 4 Sample.dripping =
        [.ok (some [7]), .error (.truncatedRecord 5 2), .ok none, .ok none] ∧
      readAll Sample.dripping = .error (.truncatedRecord 5 2) := by
  obtain ⟨records, left, hparsed, -, hreads⟩ := reading_ignores_delivery Sample.torn
  have hknown : Parsed Sample.torn [[7]] [5, 0, 0, 0, 0, 0, 0, 0, 1, 2] :=
    ⟨rfl, by decide, incomplete_iff.2 (by decide)⟩
  obtain ⟨rfl, rfl⟩ := hparsed.unique hknown
  obtain ⟨hresults, -, -, hall⟩ := hreads Sample.dripping rfl
  exact ⟨rfl, hresults 4, hall (by decide)⟩

end RecordSource

end TraceGen
