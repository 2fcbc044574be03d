import TraceGen.Proofs.Compile.Collecting
import TraceGen.Proofs.Text.ByteOrder
import TraceGen.Proofs.Training.Trajectories

/-!
# The data of a module

`CompileRunner.collected_data` says what data is collected when the compiles succeed
(`CompileRunner.Sources`). Each entry of the last log becomes a row (`CompileRunner.RowOf`): its
record holds the reward over the moving average as it was before, and its reward is that over the
default. The averages of the keys of the log move, and all else stays. A log with keys that have no
baseline gives no data but names the first such key.

Keys are visited in order, each once, so that no row sees an average that another one has moved.
-/

namespace TraceGen

namespace CompileRunner

variable {r : CompileRunner} {decay : Float} {name : String} {stats stats' : RewardStats}
  {entries : List (String × Measurement)} {rows : List DataRow} {e : CompilationError}

/-! ## Rows -/

/-- A record is a trajectory, which is an object, with its field `reward` set to a number, or to
null if the number is not finite. -/
def Recorded (trajectory : Json.Value) (reward : Float) (record : Bytes) : Prop :=
  ∃ fields fields', trajectory = .object fields ∧ Entries.Sorted fields' ∧
    (∀ name, Entries.find? name fields' =
      if name = "reward" then
        some (if Decimal.isFinite reward then .number (.float reward) else .null)
      else Entries.find? name fields) ∧
    record = Text.encode (Json.Value.object fields').write

/-- A row is that of a measurement for a key under baselines. -/
structure RowOf (stats : RewardStats) (key : String) (m : Measurement) (row : DataRow) : Prop where
  /-- The row has the key. -/
  key_eq : row.key = key
  /-- The measurement is what was measured. -/
  policyReward_eq : row.policyReward = m.reward
  /-- The reward is that over the default, and the record holds that over the moving average. -/
  rewarded : ∃ stat, stats.get? key = some stat ∧
    row.reward = reward m.reward stat.defaultReward ∧
    Recorded m.trajectory (reward m.reward stat.movingAverage) row.record

/-- The record of a measurement holds its reward. -/
theorem recorded_record {m : Measurement} (hm : m.trajectory.Ordered) (stat : RewardStat) :
    Recorded m.trajectory (reward m.reward stat.movingAverage) (record m stat) := by
  obtain ⟨fields, hfields, hsorted⟩ := hm
  have hvalue (x : Float) : Json.Value.ofFloat x =
      if Decimal.isFinite x then .number (.float x) else .null := by
    unfold Json.Value.ofFloat Json.Number.ofFloat?
    by_cases hx : Decimal.isFinite x
    · rw [if_pos hx, if_pos hx]
    · rw [if_neg hx, if_neg hx]
  refine ⟨fields, Entries.put "reward" (.ofFloat (reward m.reward stat.movingAverage)) fields,
    hfields, Entries.sorted_put hsorted, fun name => ?_, ?_⟩
  · rw [Entries.find?_put, hvalue]
  · rw [record, hfields]
    rfl

/-- The row of a measurement. -/
theorem rowOf_row {key : String} {m : Measurement} {stat : RewardStat}
    (hstat : stats.get? key = some stat) (hm : m.trajectory.Ordered) :
    RowOf stats key m (row key m stat) :=
  ⟨rfl, rfl, stat, hstat, rfl, recorded_record hm stat⟩

/-- A row depends on the baselines of its key only. -/
theorem RowOf.congr {key : String} {m : Measurement} {row : DataRow} (h : RowOf stats key m row)
    (hsame : stats'.get? key = stats.get? key) : RowOf stats' key m row :=
  ⟨h.key_eq, h.policyReward_eq, hsame ▸ h.rewarded⟩

/-! ## Logs -/

/-- The baselines after a measurement, if there was one: the default stays. -/
def advanced (decay : Float) : Option Measurement → RewardStat → RewardStat
  | none, stat => stat
  | some m, stat => ⟨stat.defaultReward, stat.movingAverage * decay + m.reward * (1 - decay)⟩

/-- The rows of entries with different keys, and what becomes of the baselines. -/
theorem assembleRows_spec (h : assembleRows decay name stats entries = .ok (rows, stats'))
    (hnodup : (entries.map (·.1)).Nodup) (hordered : ∀ x ∈ entries, x.2.trajectory.Ordered) :
    List.Forall₂ (fun x row => RowOf stats x.1 x.2 row) entries rows ∧
      ∀ k, stats'.get? k = (stats.get? k).map (advanced decay (Entries.find? k entries)) := by
  induction entries generalizing stats rows with
  | nil =>
    obtain ⟨rfl, rfl⟩ := Prod.mk.inj (Except.ok.inj h)
    refine ⟨.nil, fun k => ?_⟩
    cases stats.get? k <;> rfl
  | cons x entries ih =>
    obtain ⟨key, m⟩ := x
    obtain ⟨hkey, hnodup⟩ := List.nodup_cons.1 hnodup
    obtain ⟨hm, hordered⟩ := List.forall_mem_cons.1 hordered
    rw [assembleRows] at h
    cases hstat : stats.get? key with
    | none =>
      rw [hstat] at h
      cases h
    | some stat =>
      rw [hstat] at h
      obtain ⟨⟨rest, last⟩, hrest, hrow⟩ := Except.bind_eq_ok_iff.1 h
      obtain ⟨rfl, rfl⟩ := Prod.mk.inj (Except.ok.inj hrow)
      obtain ⟨hrows, hlast⟩ := ih hrest hnodup hordered
      -- The other keys see the baselines as they were.
      have hothers : List.Forall₂ (fun x row => RowOf stats x.1 x.2 row) entries rest := by
        have hne : ∀ x ∈ entries, x.1 ≠ key := by
          intro x hx heq
          exact hkey (List.mem_map.2 ⟨x, hx, heq⟩)
        have hboth := (List.forall₂_and_left entries rest).2 ⟨hne, hrows⟩
        refine hboth.imp fun x row hrow => hrow.2.congr ?_
        rw [KeyMap.get?_insert, if_neg hrow.1]
      refine ⟨.cons (rowOf_row hstat hm) hothers, fun k => ?_⟩
      rw [hlast, KeyMap.get?_insert, Entries.find?]
      by_cases hk : k = key
      · have hnone : Entries.find? k entries = none := by
          rw [Entries.find?_eq_none_iff, hk]
          exact hkey
        rw [if_pos hk, if_pos hk.symm, hnone, hk, hstat]
        rfl
      · rw [if_neg hk, if_neg (Ne.symm hk)]

/-- A key that has no baseline, and before which in byte order all keys of the log have one. -/
structure FirstUnknown (stats : RewardStats) (log : KeyMap Measurement) (key : String) : Prop where
  /-- The key is in the log. -/
  mem : key ∈ log.keys
  /-- It has no baseline. -/
  unknown : key ∉ stats.keys
  /-- Every other key without a baseline comes behind it. -/
  least : ∀ k ∈ log.keys, k ∉ stats.keys → k = key ∨ Text.encode key < Text.encode k

/-- Rows cannot be put together because of the first entry that has no baseline. -/
theorem assembleRows_eq_error_first (h : assembleRows decay name stats entries = .error e) :
    ∃ before x after, entries = before ++ x :: after ∧ x.1 ∉ stats.keys ∧
      (∀ y ∈ before, y.1 ∈ stats.keys) ∧ e = .unknownKey name x.1 := by
  induction entries generalizing stats with
  | nil => cases h
  | cons x entries ih =>
    obtain ⟨key, m⟩ := x
    rw [assembleRows] at h
    cases hstat : stats.get? key with
    | none =>
      rw [hstat] at h
      cases h
      exact ⟨[], _, entries, rfl, KeyMap.get?_eq_none_iff.1 hstat,
        List.forall_mem_nil _, rfl⟩
    | some stat =>
      rw [hstat] at h
      rcases Except.bind_eq_error_iff.1 h with hrest | ⟨_, -, ⟨⟩⟩
      obtain ⟨before, x, after, rfl, hx, hbefore, rfl⟩ := ih hrest
      have hkey : key ∈ stats.keys := KeyMap.mem_keys_of_get? hstat
      refine ⟨(key, m) :: before, x, after, rfl, fun hmem => hx ?_, ?_, rfl⟩
      · exact KeyMap.mem_keys_insert.2 (.inr hmem)
      · refine List.forall_mem_cons.2 ⟨hkey, fun y hy => ?_⟩
        exact (KeyMap.mem_keys_insert.1 (hbefore y hy)).elim (fun heq => heq ▸ hkey) id

/-- Data cannot be put together because of the first key that has no baseline. -/
theorem firstUnknown_of_assemble {log : KeyMap Measurement} {modelId : Nat}
    (h : r.assemble name stats log modelId = .error e) :
    ∃ key, FirstUnknown stats log key ∧ e = .unknownKey name key := by
  rcases Except.bind_eq_error_iff.1 h with hrows | ⟨_, -, ⟨⟩⟩
  obtain ⟨before, x, after, hentries, hx, hbefore, rfl⟩ := assembleRows_eq_error_first hrows
  refine ⟨x.1, ⟨?_, hx, fun k hk hunknown => ?_⟩, rfl⟩
  · rw [KeyMap.keys, hentries]
    exact List.mem_map_of_mem (List.mem_append_right _ List.mem_cons_self)
  · obtain ⟨y, hy, rfl⟩ := List.mem_map.1 hk
    have hsorted := log.pairwise_encode_lt
    rw [hentries] at hy hsorted
    rcases List.mem_append.1 hy with hy | hy
    · exact absurd (hbefore y hy) hunknown
    · rcases List.mem_cons.1 hy with rfl | hy
      · exact .inl rfl
      · exact .inr ((List.pairwise_cons.1 (List.pairwise_append.1 hsorted).2.1).1 y hy)

/-! ## Compiles -/

/-- What data is put together from when all compiles succeed: the baselines, and the log of the last
compile. Without baselines a first compile without a policy gives them: each key starts with its
measurement as both. -/
inductive Sources (r : CompileRunner) (m : LoadedModule) (h : Host) :
    Option Policy → Option RewardStats → RewardStats → KeyMap Measurement → Prop
  /-- Baselines are given, and there is one compile. -/
  | given {policy stats log} (hlog : r.invocation.Yields m policy h log) :
    Sources r m h policy (some stats) stats log
  /-- There is neither a policy nor baselines, and the first compile is the last. -/
  | plain {stats log} (hlog : r.invocation.Yields m none h log)
    (hstats : ∀ k, stats.get? k = (log.get? k).map fun x => ⟨x.reward, x.reward⟩) :
    Sources r m h none none stats log
  /-- There is a policy and no baselines. -/
  | compared {p stats first log} (hboth : r.YieldsBoth m p h first log)
    (hstats : ∀ k, stats.get? k = (first.get? k).map fun x => ⟨x.reward, x.reward⟩) :
    Sources r m h (some p) none stats log

variable {m : LoadedModule} {h : Host} {policy : Option Policy} {given : Option RewardStats}
  {modelId : Nat}

/-- Maps in which the same is found are the same. -/
theorem baselines_eq {log : KeyMap Measurement}
    (hstats : ∀ k, stats.get? k = (log.get? k).map fun x => ⟨x.reward, x.reward⟩) :
    stats = baselines log := by
  refine KeyMap.ext_entries (KeyMap.entries_eq_of_mem_iff (baselines log).sorted fun k v => ?_)
  rw [hstats, KeyMap.mem_entries_iff, baselines, KeyMap.get?_map]
  rfl

/-- The data is put together from what the compiles gave. -/
theorem Sources.collect_eq {log : KeyMap Measurement} (hs : r.Sources m h policy given stats log)
    (modelId : Nat) :
    (r.collect m policy given modelId h).1 = r.assemble m.name stats log modelId := by
  cases hs with
  | given hlog =>
    unfold collect collectWith
    dsimp only
    have hcompiled := Invocation.compile_eq_ok_iff.2 hlog
    rcases hcompile : r.invocation.compile m policy h with ⟨result, h'⟩
    rw [hcompile] at hcompiled
    obtain rfl : result = .ok log := hcompiled
    rfl
  | plain hlog hstats =>
    rw [collect_none, Invocation.compile_eq_ok_iff.2 hlog, baselines_eq hstats]
    rfl
  | compared hboth hstats =>
    rw [collect_some, Invocation.compile_eq_ok_iff.2 hboth.2,
      Invocation.compile_eq_ok_iff.2 hboth.1, baselines_eq hstats]
    rfl

/-- The trajectories of the log are objects whose fields stand in order. -/
theorem Sources.ordered {log : KeyMap Measurement} (hs : r.Sources m h policy given stats log) :
    ∀ x ∈ log.entries, x.2.trajectory.Ordered := by
  have hyields : ∃ policy h, r.invocation.Yields m policy h log := by
    cases hs with
    | given hlog => exact ⟨_, _, hlog⟩
    | plain hlog => exact ⟨_, _, hlog⟩
    | compared hboth => exact ⟨_, _, hboth.2⟩
  obtain ⟨-, -, -, text, -, -, -, hparse⟩ := hyields
  intro x hx
  exact TrainingLog.ordered_of_parse hparse (KeyMap.mem_entries_iff.1 hx)

/-- What collecting gives when the compiles succeed, where `stats` are the baselines and `log` is
the log of the last compile. If some key of the log has no baseline then the first such key in byte
order is named. Otherwise there is data: its keys are those of the log in strictly increasing byte
order, each row is that of its entry (`RowOf`), and the baselines are those from before except that
the moving averages of the keys of the log have moved. -/
theorem collected_data {log : KeyMap Measurement} (hs : r.Sources m h policy given stats log)
    (modelId : Nat) :
    ((∃ k ∈ log.keys, k ∉ stats.keys) → ∃ key, FirstUnknown stats log key ∧
      (r.collect m policy given modelId h).1 = .error (.unknownKey m.name key)) ∧
    ((∀ k ∈ log.keys, k ∈ stats.keys) → ∃ d : ModuleData,
      (r.collect m policy given modelId h).1 = .ok d ∧
      d.keys = log.keys ∧ d.keys.Pairwise (Text.encode · < Text.encode ·) ∧
      d.modelId = modelId ∧
      List.Forall₂ (fun x row => RowOf stats x.1 x.2 row) log.entries d.rows ∧
      ∀ k, d.stats.get? k = (stats.get? k).map (advanced r.decay (log.get? k))) := by
  rw [hs.collect_eq]
  cases hassemble : r.assemble m.name stats log modelId with
  | error e =>
    obtain ⟨key, hfirst, rfl⟩ := firstUnknown_of_assemble hassemble
    refine ⟨fun _ => ⟨key, hfirst, rfl⟩, fun hall => ?_⟩
    exact absurd (hall key hfirst.mem) hfirst.unknown
  | ok d =>
    obtain ⟨-, hkeys, -, hall⟩ := assemble_eq_ok hassemble
    refine ⟨fun ⟨k, hk, hunknown⟩ => absurd (hall k hk) hunknown, fun _ => ?_⟩
    obtain ⟨⟨rows, stats'⟩, hrows, hd⟩ := Except.bind_eq_ok_iff.1 hassemble
    obtain rfl : (⟨rows, stats', modelId⟩ : ModuleData) = d := Except.ok.inj hd
    obtain ⟨hrow, hmoved⟩ := assembleRows_spec hrows log.nodup_keys hs.ordered
    refine ⟨_, rfl, hkeys, ?_, rfl, hrow, hmoved⟩
    rw [hkeys]
    exact List.pairwise_map.2 log.pairwise_encode_lt

/-! ## Two logs -/

/-- A compiler that was seen to end with success and to leave a log with some keys yields a log with
these keys. -/
theorem exists_yields {i : Invocation} {keys : List String} (text : String)
    (hseen : (i.observed? m policy h).map (fun o => (o.1.duration, o.1.code, o.2)) =
      some (0, some 0, some text))
    (hkeys : (TrainingLog.parse text).toOption.map KeyMap.keys = some keys) :
    ∃ log, i.Yields m policy h log ∧ log.keys = keys := by
  obtain ⟨⟨run, found⟩, hrun, heq⟩ := Option.map_eq_some_iff.1 hseen
  simp only [Prod.mk.injEq] at heq
  obtain ⟨htime, hcode, rfl⟩ := heq
  cases hparse : TrainingLog.parse text with
  | error e =>
    rw [hparse] at hkeys
    cases hkeys
  | ok log =>
    rw [hparse] at hkeys
    have hintime : run.duration ≤ i.timeout := htime ▸ Nat.zero_le i.timeout
    exact ⟨log, ⟨run, text, hrun, hintime, hcode, hparse⟩, Option.some.inj hkeys⟩

namespace Sample

/-- A line of a training log. -/
def line (key reward : String) : String :=
  "\x7b\"key\":\"" ++ key ++ "\",\"reward\":" ++ reward ++ ",\"example\":\x7b\"size\":9\x7d\x7d\n"

/-- The log of a run: the first run reports a key that the others do not. -/
def logOf (number : Nat) : String :=
  line "g" "4" ++ if number = 0 then line "f" "2" else ""

/-- A machine with a compiler that leaves these logs. -/
def machine : Host :=
  ⟨.empty, fun _ => some fun number _ => ⟨some (Text.encode (logOf number)), [], some 0, 0⟩,
    fun number => if number = 0 then "/first" else "/second", 0, []⟩

/-- A runner of this compiler. -/
def measurer : CompileRunner :=
  ⟨⟨"/compiler", 1000, ["-log=" ++ logPlaceholder], ["-policy=" ++ policyPlaceholder]⟩, 0.5⟩

/-- A module. -/
def measured : LoadedModule :=
  ⟨"m", [0], none, ["-c", modulePlaceholder]⟩

end Sample

/-- Two keys are measured without a policy and one of them with it: there is a row for this one, and
the baselines of the other one stay. Without any baselines the first of two keys is named. -/
theorem collected_data_of_two_logs :
    (∃ first log d, Sample.measurer.YieldsBoth Sample.measured ⟨"/policy", ""⟩ Sample.machine
        first log ∧
      (Sample.measurer.collect Sample.measured (some ⟨"/policy", ""⟩) none 7 Sample.machine).1 =
        .ok d ∧
      d.keys = ["g"] ∧ d.modelId = 7 ∧
      d.stats.get? "f" = (first.get? "f").map fun x => ⟨x.reward, x.reward⟩) ∧
    (Sample.measurer.collect Sample.measured none (some .empty) 7 Sample.machine).1 =
      .error (.unknownKey "m" "f") := by
  obtain ⟨first, hfirst, hkeys⟩ : ∃ log, Sample.measurer.invocation.Yields Sample.measured none
      Sample.machine log ∧ log.keys = ["f", "g"] :=
    exists_yields (Sample.logOf 0) (by decide +kernel) (by decide +kernel)
  obtain ⟨log, hlog, hkeys'⟩ : ∃ log, Sample.measurer.invocation.Yields Sample.measured
      (some ⟨"/policy", ""⟩)
      (Sample.measurer.invocation.compile Sample.measured none Sample.machine).2 log ∧
      log.keys = ["g"] :=
    exists_yields (Sample.logOf 1) (by decide +kernel) (by decide +kernel)
  have hboth : Sample.measurer.YieldsBoth Sample.measured ⟨"/policy", ""⟩ Sample.machine first
      log :=
    ⟨hfirst, hlog⟩
  constructor
  · have hstats (k : String) : (baselines first).get? k =
        (first.get? k).map fun x => ⟨x.reward, x.reward⟩ :=
      KeyMap.get?_map _ first k
    obtain ⟨d, hd, hdkeys, -, hmodel, -, hmoved⟩ :=
      (collected_data (.compared hboth hstats) 7).2 (by
        rw [keys_baselines, hkeys, hkeys']
        decide)
    have hother : log.get? "f" = none := by
      rw [KeyMap.get?_eq_none_iff, hkeys']
      decide
    refine ⟨first, log, d, hboth, hd, hdkeys.trans hkeys', hmodel, ?_⟩
    rw [hmoved, hother, hstats]
    cases first.get? "f" <;> rfl
  · have hgiven : Sample.measurer.Sources Sample.measured Sample.machine none (some .empty) .empty
        first :=
      .given hfirst
    obtain ⟨key, hunknown, herror⟩ :=
      (collected_data hgiven 7).1 ⟨"f", by rw [hkeys]; decide, by decide⟩
    -- The key is one of the two, and no key without baselines comes before it.
    have hkey : key = "f" := by
      have hleast := hunknown.least "f" (by rw [hkeys]; decide) (by decide)
      refine (hleast.resolve_right fun hlt => ?_).symm
      have hmem := hunknown.mem
      rw [hkeys, List.mem_pair] at hmem
      rcases hmem with rfl | rfl
      · exact absurd hlt (by decide)
      · exact absurd hlt (by decide)
    rw [herror, hkey]
    rfl

end CompileRunner

end TraceGen
