import TraceGen.Decimal.Layout
import TraceGen.Output.ByteSink
import TraceGen.Training.RewardStat

/-!
# Performance logs

A performance log has a line for each key of each module: the module, the key and its two baselines,
with commas between them. A `PerformanceSink` writes such lines to a sink of bytes, each at once,
and counts those that it could write. §6 of `SPEC_FULL.md` describes the lines.
-/

namespace TraceGen

/-- A line of a performance log. -/
structure PerformanceRow where
  /-- The name of the module. -/
  name : String
  /-- The key. -/
  key : String
  /-- The baselines of the key. -/
  stat : RewardStat

/-- The written form of a row. -/
def PerformanceRow.line (row : PerformanceRow) : String :=
  String.intercalate ","
    [row.name, row.key, Decimal.measured.write row.stat.defaultReward,
      Decimal.measured.write row.stat.movingAverage] ++ "\n"

/-- A sink of rows. -/
structure PerformanceSink where
  /-- Where the bytes go. -/
  sink : ByteSink
  /-- The number of lines that could be written. -/
  lines : Nat
deriving DecidableEq

namespace PerformanceSink

/-- Starts a log. -/
def start (sink : ByteSink) : PerformanceSink :=
  ⟨sink, 0⟩

/-- Writes a row. -/
def write (w : PerformanceSink) (row : PerformanceRow) : Except SinkError Unit × PerformanceSink :=
  let (done, sink) := w.sink.writeAll (Text.encode row.line)
  if done then (.ok (), ⟨sink, w.lines + 1⟩)
  else (.error (.io ""), { w with sink := sink })

/-- Ends the log. -/
def close (w : PerformanceSink) : Except SinkError Unit × PerformanceSink :=
  let (done, sink) := w.sink.close
  (if done then .ok () else .error (.io ""), { w with sink := sink })

end PerformanceSink

end TraceGen
