import TraceGen.Compile.Collection
import TraceGen.Proofs.Corpus.Inputs
import TraceGen.Proofs.Training.Retaining

/-!
# What compiles give

`Invocation.observed?` is what can be seen of a compile from outside: how the run of the compiler
went and what can be read of its training log. `Invocation.Compiled` lists the ways in which a
compile may go. So there is a run exactly if the machine provides for one
(`Invocation.launches_iff`). `Invocation.compile_eq_ok_iff` says that a compile gives exactly what
the log of a run holds that ended with success in time, and that any other run gives an error that
concerns the module only (`Invocation.isRecoverable_of_compile`).

From a log the data of a module is put together row by row. `CompileRunner.assemble_eq_ok` and
`CompileRunner.assemble_eq_error` say that this works unless the log holds a key without a baseline,
and that the data is sound.
-/

namespace TraceGen

/-- A compiler is launched exactly if it is there and can be given the arguments. -/
theorem Host.isSome_launch (h : Host) (path : Path) (args : List String) (logPath : Path) :
    (h.launch path args logPath).1.isSome = true ↔
      (∃ compiler, h.compiler? path = some compiler) ∧ ∀ arg ∈ args, '\x00' ∉ arg.toList := by
  have hpass : Host.canPass args = true ↔ ∀ arg ∈ args, '\x00' ∉ arg.toList := by
    simp [Host.canPass]
  rw [← hpass]
  unfold Host.launch
  cases h.compiler? path with
  | none => simp
  | some compiler => cases Host.canPass args <;> simp

namespace Invocation

variable {i : Invocation} {m : LoadedModule} {policy : Option Policy} {h : Host}
  {entries : KeyMap Measurement}

/-! ## One compile -/

/-- The arguments of a compile of a module in a folder. -/
def argumentsIn (i : Invocation) (m : LoadedModule) (policy : Option Policy) (folder : Path) :
    List String :=
  i.arguments (m.resolved folder) policy folder

/-- The run of the compiler in a compile, and what can be read of the training log after it; nothing
if there is no scratch folder, the inputs cannot be written or the compiler cannot be launched. -/
def observed? (i : Invocation) (m : LoadedModule) (policy : Option Policy) (h : Host) :
    Option (CompilerRun × Option String) :=
  let folder := h.scratch h.compiles
  match h.disk.addFolder? folder with
  | none => none
  | some disk =>
    match m.buildCommandLine folder disk with
    | (none, _) => none
    | (some options, disk) =>
      match { h with disk := disk, compiles := h.compiles + 1 }.launch i.compilerPath
          (i.arguments options policy folder) (Path.join folder logName) with
      | (none, _) => none
      | (some run, after) => some (run, after.disk.readText? (Path.join folder logName))

/-- The machine provides for a compile up to the launch of the compiler. -/
structure Launches (i : Invocation) (m : LoadedModule) (policy : Option Policy) (h : Host) :
    Prop where
  /-- The scratch folder can be made, and the files of the module can be written below it. -/
  inputs : ∃ d, h.disk.addFolder? (h.scratch h.compiles) = some d ∧
    m.Fits (h.scratch h.compiles) d
  /-- There is a compiler at the path. -/
  compiler : ∃ compiler, h.compiler? i.compilerPath = some compiler
  /-- No argument holds a NUL, which would end it. -/
  arguments : ∀ arg ∈ i.argumentsIn m policy (h.scratch h.compiles), '\x00' ∉ arg.toList

/-- How a compile goes: what can be seen of the run of the compiler, and the result and the machine
that it comes to. -/
inductive Compiled (i : Invocation) (m : LoadedModule) (policy : Option Policy) (h : Host) :
    Option (CompilerRun × Option String) →
      Except CompilationError (KeyMap Measurement) × Host → Prop
  /-- The scratch folder cannot be made. -/
  | noFolder (hadd : h.disk.addFolder? (h.scratch h.compiles) = none) :
    Compiled i m policy h none (.error (.io ""), { h with compiles := h.compiles + 1 })
  /-- The files of the module cannot be written. -/
  | unwritten {d d' : Disk} (hadd : h.disk.addFolder? (h.scratch h.compiles) = some d)
    (hbuild : m.buildCommandLine (h.scratch h.compiles) d = (none, d')) :
    Compiled i m policy h none (.error (.io ""),
      { h with disk := d'.remove (h.scratch h.compiles), compiles := h.compiles + 1 })
  /-- With the files in place the compiler is launched, or cannot be. -/
  | tried {d d' : Disk} {run : Option CompilerRun} {after : Host}
    (hadd : h.disk.addFolder? (h.scratch h.compiles) = some d)
    (hbuild : m.buildCommandLine (h.scratch h.compiles) d =
      (some (m.resolved (h.scratch h.compiles)), d'))
    (hlaunch : { h with disk := d', compiles := h.compiles + 1 }.launch i.compilerPath
      (i.argumentsIn m policy (h.scratch h.compiles))
      (Path.join (h.scratch h.compiles) logName) = (run, after)) :
    Compiled i m policy h
      (run.map fun run => (run, after.disk.readText? (Path.join (h.scratch h.compiles) logName)))
      (run.elim (.error (.spawn i.compilerPath "")) fun run => i.interpret m.name run
          (after.disk.readText? (Path.join (h.scratch h.compiles) logName)),
        { after with disk := after.disk.remove (h.scratch h.compiles) })

/-- Every compile goes in one of these ways. -/
theorem compiled (i : Invocation) (m : LoadedModule) (policy : Option Policy) (h : Host) :
    i.Compiled m policy h (i.observed? m policy h) (i.compile m policy h) := by
  unfold observed? compile compileIn
  dsimp only
  cases hadd : h.disk.addFolder? (h.scratch h.compiles) with
  | none => exact .noFolder hadd
  | some d =>
    dsimp only
    rcases hbuild : m.buildCommandLine (h.scratch h.compiles) d with ⟨options, d'⟩
    cases options with
    | none => exact .unwritten hadd hbuild
    | some options =>
      obtain rfl : options = m.resolved (h.scratch h.compiles) :=
        (LoadedModule.buildCommandLine_spec hbuild).2.2
      dsimp only
      rcases hlaunch : ({ h with disk := d', compiles := h.compiles + 1 } : Host).launch
        i.compilerPath (i.arguments (m.resolved (h.scratch h.compiles)) policy
          (h.scratch h.compiles))
        (Path.join (h.scratch h.compiles) logName) with ⟨run, after⟩
      cases run <;> exact .tried hadd hbuild hlaunch

/-- There is a run of the compiler exactly if the machine provides for one. -/
theorem launches_iff : i.Launches m policy h ↔ (i.observed? m policy h).isSome = true := by
  have hcompiled := i.compiled m policy h
  generalize i.observed? m policy h = seen at hcompiled ⊢
  generalize i.compile m policy h = outcome at hcompiled
  cases hcompiled with
  | noFolder hadd =>
    refine ⟨?_, nofun⟩
    rintro ⟨⟨d, hd, -⟩, -, -⟩
    cases hadd.symm.trans hd
  | unwritten hadd hbuild =>
    refine ⟨?_, nofun⟩
    rintro ⟨⟨d, hd, hfits⟩, -, -⟩
    cases hadd.symm.trans hd
    rw [LoadedModule.fits_iff, hbuild] at hfits
    cases hfits
  | @tried d d' run after hadd hbuild hlaunch =>
    have hsome := ({ h with disk := d', compiles := h.compiles + 1 } : Host).isSome_launch
      i.compilerPath (i.argumentsIn m policy (h.scratch h.compiles))
      (Path.join (h.scratch h.compiles) logName)
    rw [hlaunch] at hsome
    rw [Option.isSome_map]
    constructor
    · rintro ⟨-, hcompiler, harguments⟩
      exact hsome.2 ⟨hcompiler, harguments⟩
    · intro hrun
      obtain ⟨hcompiler, harguments⟩ := hsome.1 hrun
      exact ⟨⟨d, hadd, LoadedModule.fits_iff.2 (by rw [hbuild])⟩, hcompiler, harguments⟩

/-- Whether the compiler is launched can be computed. -/
instance (i : Invocation) (m : LoadedModule) (policy : Option Policy) (h : Host) :
    Decidable (i.Launches m policy h) :=
  decidable_of_iff _ launches_iff.symm

/-- The compiler ends with success in time, and its training log can be read and holds these
entries. -/
def Yields (i : Invocation) (m : LoadedModule) (policy : Option Policy) (h : Host)
    (entries : KeyMap Measurement) : Prop :=
  ∃ run text, i.observed? m policy h = some (run, some text) ∧ run.duration ≤ i.timeout ∧
    run.code = some 0 ∧ TrainingLog.parse text = .ok entries

/-- A compile gives what its run means, and without a run it gives nothing. -/
theorem compile_cases (i : Invocation) (m : LoadedModule) (policy : Option Policy) (h : Host) :
    (∃ run log, i.observed? m policy h = some (run, log) ∧
        (i.compile m policy h).1 = i.interpret m.name run log) ∨
      (i.observed? m policy h = none ∧ ∃ e, (i.compile m policy h).1 = .error e) := by
  have hcompiled := i.compiled m policy h
  generalize i.observed? m policy h = seen at hcompiled ⊢
  generalize i.compile m policy h = outcome at hcompiled ⊢
  cases hcompiled with
  | noFolder | unwritten => exact .inr ⟨rfl, _, rfl⟩
  | @tried d d' run after hadd hbuild hlaunch =>
    cases run with
    | none => exact .inr ⟨rfl, _, rfl⟩
    | some run => exact .inl ⟨run, _, rfl, rfl⟩

/-- A run gives entries if it ends with success in time and the log holds these entries. -/
theorem interpret_eq_ok_iff {name : String} {run : CompilerRun} {log : Option String} :
    i.interpret name run log = .ok entries ↔
      run.duration ≤ i.timeout ∧ run.code = some 0 ∧
        ∃ text, log = some text ∧ TrainingLog.parse text = .ok entries := by
  unfold interpret
  by_cases htime : i.timeout < run.duration
  · rw [if_pos htime]
    simp only [reduceCtorEq, false_iff, not_and]
    omega
  · rw [if_neg htime]
    have hle : run.duration ≤ i.timeout := by omega
    by_cases hcode : run.code = some 0
    · rw [if_neg (not_not_intro hcode)]
      cases log with
      | none => simp
      | some text => cases hparse : TrainingLog.parse text <;> simp [hle, hcode, hparse]
    · rw [if_pos hcode]
      simp [hcode]

/-- A run that does not give entries concerns its module only. -/
theorem isRecoverable_of_interpret {name : String} {run : CompilerRun} {log : Option String}
    {e : CompilationError} (herror : i.interpret name run log = .error e) :
    e.isRecoverable = true := by
  unfold interpret at herror
  split at herror
  · cases herror
    rfl
  · split at herror
    · cases herror
      rfl
    · split at herror
      · cases herror
        rfl
      · split at herror
        · cases herror
          rfl
        · cases herror

/-- A compile gives entries if the compiler leaves them. -/
theorem compile_eq_ok_iff :
    (i.compile m policy h).1 = .ok entries ↔ i.Yields m policy h entries := by
  unfold Yields
  rcases i.compile_cases m policy h with ⟨run, log, hrun, hcompile⟩ | ⟨hrun, e, hcompile⟩
  · rw [hrun, hcompile, interpret_eq_ok_iff]
    constructor
    · rintro ⟨htime, hcode, text, rfl, hparse⟩
      exact ⟨run, text, rfl, htime, hcode, hparse⟩
    · rintro ⟨_, text, ⟨⟩, htime, hcode, hparse⟩
      exact ⟨htime, hcode, text, rfl, hparse⟩
  · simp [hrun, hcompile]

/-- Once the compiler has been launched, an error of a compile concerns its module only. -/
theorem isRecoverable_of_compile (hlaunch : i.Launches m policy h) {e : CompilationError}
    (herror : (i.compile m policy h).1 = .error e) : e.isRecoverable = true := by
  rcases i.compile_cases m policy h with ⟨run, log, -, hcompile⟩ | ⟨hrun, -⟩
  · rw [hcompile] at herror
    exact isRecoverable_of_interpret herror
  · rw [launches_iff, hrun] at hlaunch
    cases hlaunch

end Invocation

namespace CompileRunner

variable {r : CompileRunner} {decay : Float} {name : String} {stats stats' : RewardStats}
  {log : KeyMap Measurement} {modelId : Nat} {d : ModuleData} {e : CompilationError}
  {m : LoadedModule} {p : Policy} {h : Host}

/-! ## The rows of a log -/

/-- The first baselines have the keys of the log. -/
theorem keys_baselines (log : KeyMap Measurement) : (baselines log).keys = log.keys :=
  KeyMap.keys_map _ log

/-- The rows of entries have the keys of the entries, which all have baselines, and no key with a
baseline comes or goes. -/
theorem assembleRows_eq_ok {rows : List DataRow} {entries : List (String × Measurement)}
    (h : assembleRows decay name stats entries = .ok (rows, stats')) :
    rows.map (·.key) = entries.map (·.1) ∧ (∀ k, k ∈ stats'.keys ↔ k ∈ stats.keys) ∧
      ∀ x ∈ entries, x.1 ∈ stats.keys := by
  induction entries generalizing stats rows with
  | nil =>
    cases h
    exact ⟨rfl, fun _ => Iff.rfl, by simp⟩
  | cons x entries ih =>
    obtain ⟨key, measured⟩ := x
    rw [assembleRows] at h
    cases hstat : stats.get? key with
    | none =>
      rw [hstat] at h
      cases h
    | some stat =>
      rw [hstat] at h
      obtain ⟨⟨rest, last⟩, hrest, hrow⟩ := Except.bind_eq_ok_iff.1 h
      cases hrow
      obtain ⟨hkeys, hsame, hcovered⟩ := ih hrest
      have hkey : key ∈ stats.keys := KeyMap.mem_keys_of_get? hstat
      -- The average of the key is moved, which adds no key as it has a baseline.
      have hmoved (k : String) :
          k ∈ (stats.insert key (stat.advance decay measured.reward)).keys ↔ k ∈ stats.keys := by
        rw [KeyMap.mem_keys_insert]
        exact or_iff_right_of_imp fun heq => heq ▸ hkey
      refine ⟨?_, fun k => (hsame k).trans (hmoved k), ?_⟩
      · rw [List.map_cons, List.map_cons, hkeys]
        rfl
      · exact List.forall_mem_cons.2 ⟨hkey, fun y hy => (hmoved _).1 (hcovered y hy)⟩

/-- Rows cannot be put together if some entry has a key without a baseline. -/
theorem assembleRows_eq_error {entries : List (String × Measurement)}
    (h : assembleRows decay name stats entries = .error e) :
    ∃ x ∈ entries, x.1 ∉ stats.keys ∧ e = .unknownKey name x.1 := by
  induction entries generalizing stats with
  | nil => cases h
  | cons x entries ih =>
    obtain ⟨key, measured⟩ := x
    rw [assembleRows] at h
    cases hstat : stats.get? key with
    | none =>
      rw [hstat] at h
      cases h
      exact ⟨_, List.mem_cons_self, KeyMap.get?_eq_none_iff.1 hstat, rfl⟩
    | some stat =>
      rw [hstat] at h
      rcases Except.bind_eq_error_iff.1 h with hrest | ⟨_, -, ⟨⟩⟩
      obtain ⟨y, hy, hnot, he⟩ := ih hrest
      refine ⟨y, List.mem_cons_of_mem _ hy, fun hmem => hnot ?_, he⟩
      exact KeyMap.mem_keys_insert.2 (.inr hmem)

/-- The data of a log has its keys, which all have baselines, and is sound. -/
theorem assemble_eq_ok (h : r.assemble name stats log modelId = .ok d) :
    d.Sound ∧ d.keys = log.keys ∧ (∀ k, k ∈ d.stats.keys ↔ k ∈ stats.keys) ∧
      ∀ k ∈ log.keys, k ∈ stats.keys := by
  obtain ⟨⟨rows, stats'⟩, hrows, hd⟩ := Except.bind_eq_ok_iff.1 h
  cases hd
  obtain ⟨hkeys, hsame, hcovered⟩ := assembleRows_eq_ok hrows
  have hall : ∀ k ∈ log.keys, k ∈ stats.keys := by
    intro k hk
    obtain ⟨x, hx, rfl⟩ := List.mem_map.1 hk
    exact hcovered x hx
  refine ⟨⟨?_, ?_⟩, hkeys, hsame, hall⟩
  · show (rows.map (·.key)).Nodup
    rw [hkeys]
    exact log.nodup_keys
  · intro k hk
    have hk : k ∈ rows.map (·.key) := hk
    rw [hkeys] at hk
    exact (hsame k).2 (hall k hk)

/-- Data cannot be put together if the log holds a key without a baseline. -/
theorem assemble_eq_error (h : r.assemble name stats log modelId = .error e) :
    ∃ k ∈ log.keys, k ∉ stats.keys ∧ e = .unknownKey name k := by
  rcases Except.bind_eq_error_iff.1 h with hrows | ⟨_, -, ⟨⟩⟩
  obtain ⟨x, hx, hnot, he⟩ := assembleRows_eq_error hrows
  exact ⟨x.1, List.mem_map_of_mem hx, hnot, he⟩

/-! ## The data of a module -/

/-- Without a policy the data is that of the first compile. -/
theorem collect_none (r : CompileRunner) (m : LoadedModule) (modelId : Nat) (h : Host) :
    (r.collect m none none modelId h).1 =
      ((r.invocation.compile m none h).1 >>= fun log =>
        r.assemble m.name (baselines log) log modelId) := by
  unfold collect
  rcases r.invocation.compile m none h with ⟨result, h'⟩
  cases result <;> rfl

/-- With a policy the first compile gives the baselines, and the second one the rows. -/
theorem collect_some (r : CompileRunner) (m : LoadedModule) (p : Policy) (modelId : Nat)
    (h : Host) :
    (r.collect m (some p) none modelId h).1 =
      ((r.invocation.compile m none h).1 >>= fun first =>
        (r.invocation.compile m (some p) (r.invocation.compile m none h).2).1 >>= fun log =>
          r.assemble m.name (baselines first) log modelId) := by
  unfold collect
  rcases r.invocation.compile m none h with ⟨result, h'⟩
  cases result with
  | error e => rfl
  | ok first =>
    unfold collectWith
    dsimp only
    rcases r.invocation.compile m (some p) h' with ⟨result, h''⟩
    cases result <;> rfl

/-- The compile without a policy leaves the entries `first`, and after it the compile with the
policy `p` leaves the entries `log`. -/
def YieldsBoth (r : CompileRunner) (m : LoadedModule) (p : Policy) (h : Host)
    (first log : KeyMap Measurement) : Prop :=
  r.invocation.Yields m none h first ∧
    r.invocation.Yields m (some p) (r.invocation.compile m none h).2 log

/-- Two compiles leave one pair of logs. -/
theorem YieldsBoth.unique {first log first' log' : KeyMap Measurement}
    (hboth : r.YieldsBoth m p h first log) (hboth' : r.YieldsBoth m p h first' log') :
    first = first' ∧ log = log' := by
  obtain ⟨hfirst, hlog⟩ := hboth
  obtain ⟨hfirst', hlog'⟩ := hboth'
  rw [← Invocation.compile_eq_ok_iff] at hfirst hlog hfirst' hlog'
  rw [hfirst] at hfirst'
  rw [hlog] at hlog'
  exact ⟨Except.ok.inj hfirst', Except.ok.inj hlog'⟩

/-- Data without a policy has the keys of the log that the compiler left, and their baselines. -/
theorem collect_none_eq_ok (hd : (r.collect m none none modelId h).1 = .ok d) :
    d.Sound ∧ ∃ log, r.invocation.Yields m none h log ∧ d.keys = log.keys ∧
      ∀ k, k ∈ d.stats.keys ↔ k ∈ log.keys := by
  rw [collect_none] at hd
  obtain ⟨log, hlog, hassemble⟩ := Except.bind_eq_ok_iff.1 hd
  obtain ⟨hsound, hkeys, hsame, -⟩ := assemble_eq_ok hassemble
  rw [keys_baselines] at hsame
  exact ⟨hsound, log, Invocation.compile_eq_ok_iff.1 hlog, hkeys, hsame⟩

/-- Once the compiler has been launched, an error without a policy concerns the module only. Then
the compiler has left no log. -/
theorem collect_none_eq_error (hlaunch : r.invocation.Launches m none h)
    (he : (r.collect m none none modelId h).1 = .error e) :
    e.isRecoverable = true ∧ ∀ log, ¬ r.invocation.Yields m none h log := by
  rw [collect_none] at he
  rcases Except.bind_eq_error_iff.1 he with hfirst | ⟨log, -, hassemble⟩
  · refine ⟨Invocation.isRecoverable_of_compile hlaunch hfirst, fun log hlog => ?_⟩
    rw [← Invocation.compile_eq_ok_iff, hfirst] at hlog
    cases hlog
  · -- The log brings its own baselines, so that each of its keys has one.
    obtain ⟨k, hk, hnot, -⟩ := assemble_eq_error hassemble
    rw [keys_baselines] at hnot
    exact absurd hk hnot

/-- Data with a policy has the keys of the second log, which the first log holds all, and the
baselines of the first one. -/
theorem collect_some_eq_ok (hd : (r.collect m (some p) none modelId h).1 = .ok d) :
    d.Sound ∧ ∃ first log, r.YieldsBoth m p h first log ∧ (∀ k ∈ log.keys, k ∈ first.keys) ∧
      d.keys = log.keys ∧ ∀ k, k ∈ d.stats.keys ↔ k ∈ first.keys := by
  rw [collect_some] at hd
  obtain ⟨first, hfirst, hrest⟩ := Except.bind_eq_ok_iff.1 hd
  obtain ⟨log, hlog, hassemble⟩ := Except.bind_eq_ok_iff.1 hrest
  obtain ⟨hsound, hkeys, hsame, hcovered⟩ := assemble_eq_ok hassemble
  rw [keys_baselines] at hsame hcovered
  exact ⟨hsound, first, log, ⟨Invocation.compile_eq_ok_iff.1 hfirst,
    Invocation.compile_eq_ok_iff.1 hlog⟩, hcovered, hkeys, hsame⟩

/-- Once the compilers have been launched, an error with a policy concerns the module only, and then
one of the compilers has left no log; or it names a key of the second log that the first one does
not hold. -/
theorem collect_some_eq_error (hlaunch : r.invocation.Launches m none h)
    (hlaunch' : ∀ first, r.invocation.Yields m none h first →
      r.invocation.Launches m (some p) (r.invocation.compile m none h).2)
    (he : (r.collect m (some p) none modelId h).1 = .error e) :
    (e.isRecoverable = true ∧ ∀ first log, ¬ r.YieldsBoth m p h first log) ∨
      ∃ first log k, r.YieldsBoth m p h first log ∧ k ∈ log.keys ∧ k ∉ first.keys ∧
        e = .unknownKey m.name k := by
  rw [collect_some] at he
  -- The first compile fails, or the second one does, or the rows cannot be put together.
  rcases Except.bind_eq_error_iff.1 he with hfirst | ⟨first, hfirst, hrest⟩
  · refine .inl ⟨Invocation.isRecoverable_of_compile hlaunch hfirst, ?_⟩
    rintro first log ⟨hyields, -⟩
    rw [← Invocation.compile_eq_ok_iff, hfirst] at hyields
    cases hyields
  · have hyields := Invocation.compile_eq_ok_iff.1 hfirst
    rcases Except.bind_eq_error_iff.1 hrest with hsecond | ⟨log, hsecond, hassemble⟩
    · refine .inl ⟨Invocation.isRecoverable_of_compile (hlaunch' first hyields) hsecond, ?_⟩
      rintro first' log ⟨-, hyields'⟩
      rw [← Invocation.compile_eq_ok_iff, hsecond] at hyields'
      cases hyields'
    · obtain ⟨k, hk, hnot, rfl⟩ := assemble_eq_error hassemble
      rw [keys_baselines] at hnot
      exact .inr ⟨first, log, k, ⟨hyields, Invocation.compile_eq_ok_iff.1 hsecond⟩, hk, hnot, rfl⟩

/-- All data that compiling gives is sound, also with baselines that were given. -/
theorem sound_of_collect {policy : Option Policy} {given : Option RewardStats}
    (hd : (r.collect m policy given modelId h).1 = .ok d) : d.Sound := by
  cases given with
  | none =>
    cases policy with
    | none => exact (collect_none_eq_ok hd).1
    | some p => exact (collect_some_eq_ok hd).1
  | some stats =>
    have hcollect : (r.collect m policy (some stats) modelId h).1 =
        ((r.invocation.compile m policy h).1 >>= fun log =>
          r.assemble m.name stats log modelId) := by
      unfold collect collectWith
      dsimp only
      rcases r.invocation.compile m policy h with ⟨result, h'⟩
      cases result <;> rfl
    rw [hcollect] at hd
    obtain ⟨log, -, hassemble⟩ := Except.bind_eq_ok_iff.1 hd
    exact (assemble_eq_ok hassemble).1

end CompileRunner

end TraceGen
