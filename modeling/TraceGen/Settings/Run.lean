import TraceGen.Decimal.Layout
import TraceGen.NameFilter
import TraceGen.Settings.Basic

/-!
# What one run does

A `RunPlan` holds everything that a run is asked for: where the corpus, the policy and the outputs
are, how much of the corpus is sampled, which names are selected, and the settings with their
problem. Its fields come from the flags of §6 of `SPEC_FULL.md`.
-/

namespace TraceGen

/-- What a run is asked for. -/
structure RunPlan where
  /-- The folder of the corpus. -/
  dataPath : Path
  /-- The policy. -/
  policyPath : Option Path
  /-- The file for training records. -/
  outputPath : Option Path
  /-- The file for baselines. -/
  performancePath : Option Path
  /-- How many workers are asked for; without a number all that the machine can run. -/
  numWorkers : Option Nat
  /-- The share of the corpus that is sampled. -/
  samplingRate : Float
  /-- Which modules are selected. -/
  moduleFilter : Option NameFilter
  /-- Which keys are selected. -/
  keyFilter : Option NameFilter
  /-- The settings. -/
  settings : Settings
  /-- The problem with the overrides of the settings. -/
  problem : Problem

namespace RunPlan

/-- Accepts a sampling rate above 0 and up to 1. -/
def checkSamplingRate (rate : Float) : Except SettingsError Float :=
  if 0 < rate ∧ rate ≤ 1 then .ok rate
  else .error (.invalidValue "sampling_rate" s!"{Decimal.plain.write rate} is not in (0, 1]")

/-- The filter of an optional pattern for the option `key`. -/
def readFilter (key : String) (pattern : Option String) :
    Except SettingsError (Option NameFilter) :=
  match NameFilter.optional? pattern with
  | some filter => .ok filter
  | none => .error (.badPattern key)

/-- How many modules of a corpus of `size` modules are sampled: the whole part of their share,
between 0 and the greatest word. -/
def sampledModules (plan : RunPlan) (size : Nat) : Nat :=
  (Decimal.ofNat size * plan.samplingRate).toUInt64.toNat

end RunPlan

end TraceGen
