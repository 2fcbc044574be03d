import TraceGen.Compile.Error
import TraceGen.NameFilter
import TraceGen.Text.Utf8
import TraceGen.Training.RewardStat

/-!
# Training data of a module

`ModuleData` holds one row for each key of a module, in the order in which the keys were reported,
and the baselines of the keys. `retainKeys` keeps the rows that a filter selects. Each of them takes
the baselines of its key with it, so that a key without baselines, or one that is reported twice,
cannot be kept. Which rows are kept is said in item 4 of §4.3 of `SPEC_FULL.md`.
-/

namespace TraceGen

/-- What was collected for one key. -/
structure DataRow where
  /-- The part of the module that was measured. -/
  key : String
  /-- The training record. -/
  record : Bytes
  /-- How much better the measurement is than that without a policy. -/
  reward : Float
  /-- The measurement. -/
  policyReward : Float

/-- What was collected for one module. -/
structure ModuleData where
  /-- One row for each key. -/
  rows : List DataRow
  /-- The baselines of the keys. -/
  stats : RewardStats
  /-- The number of the model that was used. -/
  modelId : Nat

namespace ModuleData

/-- Puts columns side by side. -/
def zipRows : List String → List Bytes → List Float → List Float → List DataRow
  | key :: keys, record :: records, reward :: rewards, policyReward :: policyRewards =>
    ⟨key, record, reward, policyReward⟩ :: zipRows keys records rewards policyRewards
  | _, _, _, _ => []

/-- Makes module data of its columns, which must have the same length. -/
def ofColumns (keys : List String) (records : List Bytes) (rewards policyRewards : List Float)
    (stats : RewardStats) (modelId : Nat) : Except CompilationError ModuleData :=
  let n := keys.length
  if records.length = n ∧ rewards.length = n ∧ policyRewards.length = n then
    .ok ⟨zipRows keys records rewards policyRewards, stats, modelId⟩
  else .error (.lengthMismatch (String.join
    [s!"{n} keys, {records.length} examples, {rewards.length} rewards, ",
      s!"{policyRewards.length} policy rewards"]))

/-- The keys in order. -/
def keys (d : ModuleData) : List String :=
  d.rows.map (·.key)

/-- The training records in order. -/
def records (d : ModuleData) : List Bytes :=
  d.rows.map (·.record)

/-- The number of rows. -/
def size (d : ModuleData) : Nat :=
  d.rows.length

/-- Whether there are no rows. -/
def isEmpty (d : ModuleData) : Bool :=
  d.rows.isEmpty

/-- Takes the baselines of keys out of a map, one after the other. -/
def claimStats : List String → RewardStats → Except CompilationError RewardStats
  | [], _ => .ok KeyMap.empty
  | key :: keys, stats =>
    match stats.get? key with
    | none => .error (.missingRewardStat key)
    | some stat => do
      let claimed ← claimStats keys (stats.erase key)
      return claimed.insert key stat

/-- Keeps the rows whose key a filter selects, with the baselines of their keys. -/
def retainKeys (d : ModuleData) (f : NameFilter) : Except CompilationError ModuleData := do
  let rows := d.rows.filter (fun row => f.selects row.key)
  let stats ← claimStats (rows.map (·.key)) d.stats
  return ⟨rows, stats, d.modelId⟩

end ModuleData

/-- What a module gives to the outputs: its training records in order and its baselines. -/
structure ModuleOutcome where
  /-- The name of the module. -/
  name : String
  /-- The training records. -/
  records : List Bytes
  /-- The baselines of the keys. -/
  stats : RewardStats

/-- The outcome of a module from its data. -/
def ModuleOutcome.ofData (name : String) (d : ModuleData) : ModuleOutcome :=
  ⟨name, d.records, d.stats⟩

end TraceGen
