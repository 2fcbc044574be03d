import TraceGen.Json.Record

/-!
# Rewards

A measurement is a raw number for a key, such as the size of a function. `reward` compares it with a
baseline, and a `RewardStat` keeps two baselines of a key: what was measured without a policy, and a
moving average of what was measured with one. The formulas are those of §10.2 of `SPEC_FULL.md`.
-/

namespace TraceGen

/-- Keeps a reward finite when its baseline is zero. -/
def baselineShift : Float := 1e-5

/-- How much better a measurement is than its baseline, as a share of it: positive is better. -/
def reward (measured baseline : Float) : Float :=
  1 - measured / (baseline + baselineShift)

/-- The baselines of a key. -/
structure RewardStat where
  /-- What was measured without a policy. -/
  defaultReward : Float
  /-- The moving average of what was measured. -/
  movingAverage : Float

namespace RewardStat

/-- The baselines after a first measurement. -/
def start (measured : Float) : RewardStat :=
  ⟨measured, measured⟩

/-- Moves the average towards a measurement; `decay` is the share that the old average keeps. -/
def advance (decay measured : Float) (stat : RewardStat) : RewardStat :=
  { stat with movingAverage := stat.movingAverage * decay + measured * (1 - decay) }

/-- Reads baselines from JSON. -/
def ofText? (text : String) : Option RewardStat := do
  let document ← Json.Document.parse? text
  match ← document.record? ["default_reward", "moving_average_reward"] with
  | [some defaultReward, some movingAverage] =>
    return ⟨← defaultReward.float?, ← movingAverage.float?⟩
  | _ => none

/-- Writes baselines as JSON; a baseline that is not finite is written as null. -/
def write (stat : RewardStat) : String :=
  Json.Value.write (.object
    [("default_reward", .ofFloat stat.defaultReward),
      ("moving_average_reward", .ofFloat stat.movingAverage)])

end RewardStat

/-- The baselines of several keys. -/
abbrev RewardStats := KeyMap RewardStat

end TraceGen
