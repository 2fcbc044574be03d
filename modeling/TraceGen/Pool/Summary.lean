/-!
# Counting a run

A `Summary` counts the modules of a run and the training records that were written. `workerCount` is
the number of workers that a run has. Both are part of §4.4 of `SPEC_FULL.md`.
-/

namespace TraceGen

/-- The counters of a run. -/
structure Summary where
  /-- The modules that gave data. -/
  successful : Nat
  /-- The modules that failed. -/
  failed : Nat
  /-- All modules that were to be processed. -/
  work : Nat
  /-- The training records that were written. -/
  examples : Nat
deriving DecidableEq

namespace Summary

/-- The counters at the start of a run over a number of modules. -/
def start (work : Nat) : Summary :=
  ⟨0, 0, work, 0⟩

/-- The modules that have been accounted for. -/
def processed (s : Summary) : Nat :=
  s.successful + s.failed

/-- Counts a module that failed. -/
def addFailure (s : Summary) : Summary :=
  { s with failed := s.failed + 1 }

/-- Counts a module that gave data, and the records that were written for it. -/
def addSuccess (s : Summary) (records : Nat) : Summary :=
  { s with successful := s.successful + 1, examples := s.examples + records }

/-- The counters in words. -/
def text (s : Summary) : String :=
  String.join [s!"{s.successful} of {s.work} modules succeeded, ",
    s!"and {s.examples} training examples written"]

end Summary

/-- How many workers run: as many as asked for, but not more than the machine can run at once. No
number and the number zero ask for all of these. There is always one. -/
def workerCount (requested : Option Nat) (available : Nat) : Nat :=
  match requested with
  | none => max 1 available
  | some 0 => max 1 available
  | some n => max 1 (min n available)

end TraceGen
