/-!
# Tables over the code points

A `Table` gives every code point a value by the starts of the runs on which the value is constant.
Tables are written as texts: `Table.ofRuns` reads lengths and values, `Table.ofGaps` reads the gaps
between ranges that have the value one.
-/

namespace TraceGen.Unicode

/-- The starts of the runs in increasing order, each with its value. -/
abbrev Table := Array (Nat × Nat)

namespace Table

/-- The last entry between the places `low` and `high` whose key is at most `n`. -/
def lastBefore? {α : Type} (t : Array (Nat × α)) (n low high : Nat) : Option (Nat × α) :=
  if high ≤ low then none
  else
    let middle := (low + high) / 2
    match t[middle]? with
    | none => none
    | some entry =>
      if entry.1 ≤ n then (lastBefore? t n (middle + 1) high).or (some entry)
      else lastBefore? t n low middle
termination_by high - low

/-- The value at `n`, zero before the first run. -/
def valueAt (t : Table) (n : Nat) : Nat :=
  ((lastBefore? t n 0 t.size).map (·.2)).getD 0

/-- The state of a reader of runs: the count so far, the letters so far, the start of the next run,
and the runs read. -/
structure Reader where
  count : Nat
  letters : List Char
  start : Nat
  runs : Table

/-- Reads one character of a text of runs. -/
def Reader.step (value? : List Char → Option Nat) (r : Reader) (c : Char) : Reader :=
  if c.isDigit then { r with count := 10 * r.count + (c.toNat - 48) }
  else
    let letters := r.letters ++ [c]
    match value? letters with
    | none => { r with letters := letters }
    | some v => ⟨0, [], r.start + max r.count 1, r.runs.push (r.start, v)⟩

/-- The table of a text of runs, each an optional length and the letters of a value. -/
def ofRuns (value? : List Char → Option Nat) (text : String) : Table :=
  (text.toList.foldl (Reader.step value?) ⟨0, [], 0, #[]⟩).runs

/-- The natural that decimal digits write. -/
def readNat (ds : List Char) : Nat :=
  ds.foldl (fun n d => 10 * n + (d.toNat - 48)) 0

/-- The table that is one on ranges. Each range is written as its distance from the end of the one
before, and, after a plus sign, how many further code points it has. -/
def ofGaps (text : String) : Table :=
  let ranges := if text.isEmpty then [] else text.toList.splitOn ' '
  (ranges.foldl (fun (acc : Nat × Table) range =>
    let (gap, more) := match range.splitOn '+' with
      | [gap, more] => (readNat gap, readNat more)
      | [gap] => (readNat gap, 0)
      | _ => (0, 0)
    let start := acc.1 + gap
    (start + more + 1, (acc.2.push (start, 1)).push (start + more + 1, 0))) (0, #[])).2

end Table

end TraceGen.Unicode
