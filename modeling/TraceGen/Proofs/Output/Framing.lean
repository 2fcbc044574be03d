import Mathlib.Algebra.Group.Nat.Defs
import TraceGen.Output.RecordSource

/-!
# Reading what was framed

`RecordSource.readAll_eq_ok_iff` says on which bytes reading succeeds: on the written form of
records whose lengths fit into eight bytes, and there it gives these records, however the source
hands out its bytes.

A read takes a beginning of what is left (`ByteSource.readFull_spec`), so that the reader sees the
bytes only: `RecordSource.next_eq_parse` gives one call as a function of the bytes, `Frame.parse`.
`Frame.parse_encode` and `Frame.encode_of_parse` say what one record takes, and the rest is
induction on the records for one direction and on the fuel for the other.
-/

namespace TraceGen

namespace Frame

/-! ## Lengths -/

/-- A number is written in as many bytes as are asked for. -/
@[simp] theorem length_littleEndian (n x : Nat) : (littleEndian n x).length = n := by
  induction n generalizing x with
  | zero => rfl
  | succ n ih => rw [littleEndian, List.length_cons, ih]

/-- A number that fits is read back. -/
theorem ofLittleEndian_littleEndian {n x : Nat} (h : x < 256 ^ n) :
    ofLittleEndian (littleEndian n x) = x := by
  induction n generalizing x with
  | zero =>
    rw [Nat.pow_zero, Nat.lt_one_iff] at h
    rw [h]
    rfl
  | succ n ih =>
    have hdiv : x / 256 < 256 ^ n := by
      rw [Nat.pow_succ] at h
      exact Nat.div_lt_of_lt_mul (by rwa [Nat.mul_comm] at h)
    have hbyte : (x % 256).toUInt8.toNat = x % 256 := by
      rw [Nat.toUInt8, UInt8.toNat_ofNat']
      omega
    rw [littleEndian, ofLittleEndian, ih hdiv, hbyte]
    exact Nat.mod_add_div x 256

/-- Bytes are written back. -/
theorem littleEndian_ofLittleEndian (bs : Bytes) :
    littleEndian bs.length (ofLittleEndian bs) = bs := by
  induction bs with
  | nil => rfl
  | cons b bs ih =>
    have hb : b.toNat < 256 := b.toNat_lt
    have hlow : (b.toNat + 256 * ofLittleEndian bs) % 256 = b.toNat := by omega
    have hhigh : (b.toNat + 256 * ofLittleEndian bs) / 256 = ofLittleEndian bs := by omega
    rw [List.length_cons, ofLittleEndian, littleEndian, hlow, hhigh, ih]
    simp [Nat.toUInt8]

/-- The number that bytes write fits into them. -/
theorem ofLittleEndian_lt (bs : Bytes) : ofLittleEndian bs < 256 ^ bs.length := by
  induction bs with
  | nil => decide
  | cons b bs ih =>
    have hb : b.toNat < 256 := b.toNat_lt
    rw [ofLittleEndian, List.length_cons, Nat.pow_succ]
    omega

/-- The length before a record takes eight bytes. -/
@[simp] theorem length_header (record : Bytes) : (header record).length = lengthBytes :=
  length_littleEndian _ _

/-- The written form of a record and others. -/
theorem encodeAll_cons (record : Bytes) (records : List Bytes) :
    encodeAll (record :: records) = encode record ++ encodeAll records := rfl

/-- Streams can be put one after the other. -/
theorem encodeAll_append (records others : List Bytes) :
    encodeAll (records ++ others) = encodeAll records ++ encodeAll others :=
  List.flatMap_append

/-- Each record takes a byte at least. -/
theorem length_le_length_encodeAll (records : List Bytes) :
    records.length ≤ (encodeAll records).length := by
  induction records with
  | nil => exact Nat.le_refl _
  | cons record records ih =>
    rw [encodeAll_cons, encode, List.length_append, List.length_append, length_header,
      List.length_cons, lengthBytes]
    omega

/-! ## The first record of a stream -/

/-- The length that the first bytes of a stream announce. -/
def announced (bytes : Bytes) : Nat :=
  ofLittleEndian (bytes.take lengthBytes)

/-- A record announces its length. -/
theorem announced_encode {record : Bytes} (hlen : record.length < 2 ^ 64) (rest : Bytes) :
    announced (encode record ++ rest) = record.length := by
  have hfirst : (encode record ++ rest).take lengthBytes = header record := by
    rw [encode, List.append_assoc, ← length_header record, List.take_left]
  rw [announced, hfirst]
  exact ofLittleEndian_littleEndian hlen

/-- What there is to say of the first record of some bytes, and the bytes behind it. Where a record
is cut off nothing is left behind it. -/
def parse (bytes : Bytes) : Except SinkError (Option Bytes) × Bytes :=
  if bytes = [] then (.ok none, [])
  else if bytes.length < lengthBytes then (.error (.truncatedRecord lengthBytes bytes.length), [])
  else
    let behind := bytes.drop lengthBytes
    if behind.length < announced bytes then
      (.error (.truncatedRecord (announced bytes) behind.length), [])
    else (.ok (some (behind.take (announced bytes))), behind.drop (announced bytes))

/-- The first record of some bytes is the one with which they begin. -/
theorem parse_encode {record : Bytes} (hlen : record.length < 2 ^ 64) (rest : Bytes) :
    parse (encode record ++ rest) = (.ok (some record), rest) := by
  have hbehind : (encode record ++ rest).drop lengthBytes = record ++ rest := by
    rw [encode, List.append_assoc, ← length_header record, List.drop_left]
  have hlong : lengthBytes ≤ (encode record ++ rest).length := by
    rw [encode, List.append_assoc, List.length_append, length_header]
    omega
  have hsome : encode record ++ rest ≠ [] :=
    List.length_pos_iff.1 (Nat.lt_of_lt_of_le (Nat.zero_lt_succ _) hlong)
  have hwhole : record.length ≤ (record ++ rest).length := by
    rw [List.length_append]
    omega
  rw [parse, if_neg hsome, if_neg (Nat.not_lt.2 hlong)]
  simp only [hbehind, announced_encode hlen, if_neg (Nat.not_lt.2 hwhole), List.take_left,
    List.drop_left]

/-- Bytes with a first record begin with its written form. -/
theorem encode_of_parse {bytes record rest : Bytes}
    (h : parse bytes = (.ok (some record), rest)) :
    record.length < 2 ^ 64 ∧ bytes = encode record ++ rest := by
  unfold parse at h
  split at h
  · cases h
  split at h
  · cases h
  rename_i hlong
  dsimp only at h
  split at h
  · cases h
  rename_i hwhole
  cases h
  have hfirst : (bytes.take lengthBytes).length = lengthBytes := by
    rw [List.length_take]
    omega
  have hrecord : ((bytes.drop lengthBytes).take (announced bytes)).length = announced bytes := by
    rw [List.length_take]
    omega
  -- A length is written in one way only, so the first bytes are those that would be written.
  have hheader : header ((bytes.drop lengthBytes).take (announced bytes)) =
      bytes.take lengthBytes := by
    have hback := littleEndian_ofLittleEndian (bytes.take lengthBytes)
    rwa [hfirst, ← announced, ← hrecord, ← header] at hback
  constructor
  · have hlt := ofLittleEndian_lt (bytes.take lengthBytes)
    rwa [hfirst, ← announced, ← hrecord] at hlt
  · rw [encode, hheader, List.append_assoc, List.take_append_drop, List.take_append_drop]

/-- Bytes without a first record of which nothing is missing are none. -/
theorem end_of_parse {bytes : Bytes} (h : (parse bytes).1 = .ok none) : bytes = [] := by
  unfold parse at h
  split at h
  · assumption
  split at h
  · cases h
  dsimp only at h
  split at h <;> cases h

end Frame

namespace ByteSource

/-- A read splits off a piece, which is empty at the end only. -/
theorem read_spec (s : ByteSource) {n : Nat} (hn : n ≠ 0) :
    s.rest = (s.read n).1 ++ (s.read n).2.rest ∧ (s.read n).1.length ≤ n ∧
      ((s.read n).1 = [] → s.rest = []) := by
  refine ⟨(List.take_append_drop _ _).symm, ?_, fun hempty => ?_⟩
  · simp only [read, List.length_take]
    omega
  · simp only [read, List.take_eq_nil_iff] at hempty
    rcases hempty with hzero | hrest
    · omega
    · exact hrest

/-- Reading with enough fuel takes a beginning of what is left, or all of it. -/
theorem fill_spec {fuel n : Nat} (h : n ≤ fuel) (s : ByteSource) :
    (fill fuel n s).1 = s.rest.take n ∧ (fill fuel n s).2.rest = s.rest.drop n := by
  induction fuel generalizing n s with
  | zero =>
    obtain rfl : n = 0 := Nat.le_zero.1 h
    exact ⟨rfl, rfl⟩
  | succ fuel ih =>
    rw [fill]
    by_cases hn : n = 0
    · rw [if_pos hn, hn]
      exact ⟨rfl, rfl⟩
    rw [if_neg hn]
    -- A read may give less than was asked for; with one unit of fuel less the rest is asked for.
    obtain ⟨hsplit, hlen, hend⟩ := s.read_spec hn
    rcases hread : s.read n with ⟨piece, s'⟩
    rw [hread] at hsplit hlen hend
    simp only at hsplit hlen hend ⊢
    cases piece with
    | nil =>
      have hrest : s'.rest = [] := by rw [← List.nil_append s'.rest, ← hsplit, hend rfl]
      rw [hend rfl]
      simp [hrest]
    | cons b piece =>
      obtain ⟨hmore, hleft⟩ := ih (n := n - (b :: piece).length)
        (by rw [List.length_cons]; omega) s'
      rw [hsplit, List.take_append, List.drop_append, List.take_of_length_le hlen,
        List.drop_eq_nil_of_le hlen, List.nil_append]
      exact ⟨congrArg ((b :: piece) ++ ·) hmore, hleft⟩

/-- Reading `n` bytes takes a beginning of what is left, or all of it. -/
theorem readFull_spec (s : ByteSource) (n : Nat) :
    (s.readFull n).1 = s.rest.take n ∧ (s.readFull n).2.rest = s.rest.drop n :=
  fill_spec (Nat.le_refl n) s

/-- Reading `n` bytes gives a beginning of what is left, or all of it, and leaves the rest. -/
theorem exists_readFull (s : ByteSource) (n : Nat) :
    ∃ t, s.readFull n = (s.rest.take n, t) ∧ t.rest = s.rest.drop n :=
  ⟨(s.readFull n).2, Prod.ext (s.readFull_spec n).1 rfl, (s.readFull_spec n).2⟩

end ByteSource

namespace RecordSource

open TraceGen.Frame

/-! ## One record -/

/-- Reading a record sees the bytes to come, and not in which pieces they are handed out. -/
theorem next_eq_parse (s : ByteSource) :
    (next s).1 = (parse s.rest).1 ∧ (next s).2.rest = (parse s.rest).2 := by
  obtain ⟨t, hread, ht⟩ := s.exists_readFull lengthBytes
  have hlength : (s.rest.take lengthBytes).length = min lengthBytes s.rest.length :=
    List.length_take
  unfold next parse
  simp only [hread, hlength]
  by_cases hend : s.rest = []
  · rw [hend, List.drop_nil] at ht
    rw [if_pos hend, hend]
    exact ⟨rfl, ht⟩
  have hsome : (s.rest.take lengthBytes).isEmpty = false := by
    rw [List.isEmpty_eq_false_iff, Ne, List.take_eq_nil_iff]
    exact not_or.2 ⟨by decide, hend⟩
  simp only [hsome, Bool.false_eq_true, if_false, if_neg hend]
  by_cases hshort : s.rest.length < lengthBytes
  · -- The stream ends inside the length.
    have hless : min lengthBytes s.rest.length = s.rest.length :=
      Nat.min_eq_right (Nat.le_of_lt hshort)
    rw [hless, if_pos hshort, if_pos hshort, ht, List.drop_eq_nil_of_le (Nat.le_of_lt hshort)]
    exact ⟨rfl, rfl⟩
  have hwhole : min lengthBytes s.rest.length = lengthBytes :=
    Nat.min_eq_left (Nat.le_of_not_lt hshort)
  obtain ⟨u, hread', hu⟩ := t.exists_readFull (announced s.rest)
  rw [ht] at hread' hu
  rw [hwhole, if_neg (Nat.lt_irrefl _), if_neg hshort, ← announced]
  simp only [hread', List.length_take]
  by_cases hcut : (s.rest.drop lengthBytes).length < announced s.rest
  · -- The stream ends inside the record.
    have hless := Nat.min_eq_right (Nat.le_of_lt hcut)
    rw [hless, if_neg (Nat.ne_of_lt hcut), if_pos hcut, hu,
      List.drop_eq_nil_of_le (Nat.le_of_lt hcut)]
    exact ⟨rfl, rfl⟩
  · rw [Nat.min_eq_left (Nat.le_of_not_lt hcut), if_pos rfl, if_neg hcut, hu]
    exact ⟨rfl, rfl⟩

/-- At the end of a stream there is no record. -/
theorem next_of_end {s : ByteSource} (h : s.rest = []) : (next s).1 = .ok none := by
  rw [(next_eq_parse s).1, h]
  rfl

/-- A record that was framed is read, and what follows it is left. -/
theorem next_encode {s : ByteSource} {record rest : Bytes} (hlen : record.length < 2 ^ 64)
    (h : s.rest = encode record ++ rest) :
    (next s).1 = .ok (some record) ∧ (next s).2.rest = rest := by
  obtain ⟨hresult, hleft⟩ := next_eq_parse s
  rw [h, parse_encode hlen rest] at hresult hleft
  exact ⟨hresult, hleft⟩

/-- What is read as a record was framed. -/
theorem encode_of_next {s s' : ByteSource} {record : Bytes} (h : next s = (.ok (some record), s')) :
    record.length < 2 ^ 64 ∧ s.rest = encode record ++ s'.rest := by
  obtain ⟨hresult, hleft⟩ := next_eq_parse s
  rw [h] at hresult hleft
  exact encode_of_parse (Prod.ext hresult.symm hleft.symm)

/-- Where no record is read and nothing is wrong the stream is at its end. -/
theorem end_of_next {s s' : ByteSource} (h : next s = (.ok none, s')) : s.rest = [] := by
  have hresult := (next_eq_parse s).1
  rw [h] at hresult
  exact end_of_parse hresult.symm

/-! ## All records -/

/-- One call after the other: the first decides whether there is another. -/
theorem readAllWithin_succ (fuel : Nat) (s : ByteSource) :
    readAllWithin (fuel + 1) s =
      match (next s).1 with
      | .error e => .error e
      | .ok none => .ok []
      | .ok (some record) => (readAllWithin fuel (next s).2).map (record :: ·) := by
  rw [readAllWithin]
  rcases next s with ⟨_ | _ | _, s'⟩ <;> rfl

/-- Records that were framed are read. -/
theorem readAllWithin_encodeAll {fuel : Nat} {s : ByteSource} {records : List Bytes}
    (hfuel : records.length < fuel) (hlen : ∀ r ∈ records, r.length < 2 ^ 64)
    (h : s.rest = encodeAll records) : readAllWithin fuel s = .ok records := by
  induction records generalizing fuel s with
  | nil =>
    obtain ⟨fuel, rfl⟩ := Nat.exists_eq_add_one_of_ne_zero (Nat.ne_of_gt hfuel)
    rw [readAllWithin_succ, next_of_end h]
  | cons record records ih =>
    obtain ⟨fuel, rfl⟩ := Nat.exists_eq_add_one_of_ne_zero (Nat.ne_zero_of_lt hfuel)
    obtain ⟨hnext, hrest⟩ := next_encode (hlen record List.mem_cons_self) h
    rw [List.length_cons] at hfuel
    have hmore := ih (Nat.lt_of_succ_lt_succ hfuel)
      (fun r hr => hlen r (List.mem_cons_of_mem _ hr)) hrest
    rw [readAllWithin_succ, hnext]
    simp only [hmore, Except.map]

/-- Records that are read were framed. -/
theorem encodeAll_of_readAllWithin {fuel : Nat} {s : ByteSource} {records : List Bytes}
    (hfuel : s.rest.length < fuel) (h : readAllWithin fuel s = .ok records) :
    s.rest = encodeAll records ∧ ∀ r ∈ records, r.length < 2 ^ 64 := by
  induction fuel generalizing s records with
  | zero => cases hfuel
  | succ fuel ih =>
    rw [readAllWithin] at h
    split at h
    · cases h
    · rename_i hnext
      cases h
      exact ⟨end_of_next hnext, by simp⟩
    · rename_i record s' hnext
      obtain ⟨hlen, hrest⟩ := encode_of_next hnext
      cases hmore : readAllWithin fuel s' with
      | error e =>
        rw [hmore] at h
        cases h
      | ok more =>
        rw [hmore] at h
        cases h
        -- A record takes eight bytes at least, so that the fuel outlasts the bytes.
        have hshorter : s'.rest.length < fuel := by
          rw [hrest, encode, List.length_append, List.length_append, length_header,
            lengthBytes] at hfuel
          omega
        obtain ⟨hmore, hlens⟩ := ih hshorter hmore
        rw [encodeAll_cons, ← hmore]
        exact ⟨hrest, List.forall_mem_cons.2 ⟨hlen, hlens⟩⟩

/-- Reading succeeds on the written form of records whose lengths can be written, and gives these
records. -/
theorem readAll_eq_ok_iff {s : ByteSource} {records : List Bytes} :
    readAll s = .ok records ↔ s.rest = encodeAll records ∧ ∀ r ∈ records, r.length < 2 ^ 64 := by
  constructor
  · exact encodeAll_of_readAllWithin (Nat.lt_succ_self _)
  · rintro ⟨h, hlen⟩
    refine readAllWithin_encodeAll ?_ hlen h
    rw [h]
    exact Nat.lt_succ_of_le (length_le_length_encodeAll records)

end RecordSource

end TraceGen
