/-!
# Reporting progress

Progress is reported at most once in an interval. The first chance to report is always taken. The
interval is that of §10.1 of `SPEC_FULL.md`.
-/

namespace TraceGen

/-- When progress is reported. -/
structure Progress where
  /-- The time that must lie between two reports. -/
  interval : Nat
  /-- The time of the last report. -/
  last : Option Nat
deriving DecidableEq

namespace Progress

/-- The seconds between two reports unless something else is asked for. -/
def standardInterval : Nat := 10

/-- No report yet. -/
def start (interval : Nat) : Progress :=
  ⟨interval, none⟩

/-- Whether there is a report at a time that is not before the last report. -/
def report (p : Progress) (now : Nat) : Bool × Progress :=
  match p.last with
  | none => (true, { p with last := some now })
  | some last =>
    if now - last < p.interval then (false, p) else (true, { p with last := some now })

end Progress

end TraceGen
