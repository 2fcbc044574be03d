import TraceGen.Program
import TraceGen.Proofs.Compile.Collecting
import TraceGen.Proofs.Pool.Faults
import TraceGen.Proofs.Pool.Refinement

/-!
# Compilers cannot end a run

`CompileRunner.compiler_faults_contained` is about workers that collect data by compiling. Once its
compiler has been launched, a module without a policy is reported as done or as failed by itself,
and it is done exactly if the compiler ends with success in time and leaves a log that can be read.
With a policy there is one way in which compiles end the whole run: both succeed, and the one with
the policy reports a key that the other one did not. So a run without a policy that a fault has
ended has met a compiler that could not be launched.

Whatever a log holds, its rows have different keys with baselines of their own (`ModuleData.Sound`),
so that neither putting the data together nor a filter of keys can fail.
-/

namespace TraceGen

/-- Each of several calls was made in some world. -/
theorem WorkerSetup.Answered.exists_world {σ : Type} {s : WorkerSetup σ} {world last : σ}
    {calls : List Collection} (h : s.Answered world calls last) {c : Collection} (hc : c ∈ calls) :
    ∃ world, c = s.call c.worker c.subject world := by
  induction calls generalizing world with
  | nil => cases hc
  | cons c' calls ih =>
    rcases List.mem_cons.1 hc with rfl | hc
    · exact ⟨world, h.1⟩
    · exact ih h.2 hc

/-- A module that was processed is no reason to stop. -/
theorem Envelope.isFatal_of_isSuccess {e : Envelope} (h : e.isSuccess = true) :
    e.isFatal = false := by
  cases e with
  | success outcome => rfl
  | failure | fatal fault => cases h

/-- A fault that ends a run whose policy is there was reported after a call. -/
theorem Pool.Run.exists_call_of_fault {σ : Type} {s : WorkerSetup σ} {p : Pool σ}
    {calls : List Collection} {n : Nat} {modules : List LoadedModule} {sinks : Sinks} {world : σ}
    (hpolicy : ∀ i < n, ∃ policy, s.policy (workerId i) = .ok policy) (hn : 0 < n)
    (h : Run s (.start n modules sinks world) calls p) {fault : WorkerFault}
    (hr : p.result? = some (.error (.workerFault fault))) :
    ∃ c ∈ calls, c.envelope s.keyFilter = .fatal fault ∧
      ∃ world, c = s.call c.worker c.subject world := by
  have hmem : .fatal fault ∈ p.envelopes := by
    rcases h.cause hn hr with ⟨fault', hcause, hmem⟩ | ⟨e, hcause⟩
    · cases hcause
      exact hmem
    · cases hcause
  obtain ⟨order, horder, hdrained⟩ := h.ledger.exists_order (by rwa [h.crew.size])
  rw [envelopes, ← hdrained, List.map_map] at hmem
  obtain ⟨c, hc, hfault⟩ := List.mem_map.1 hmem
  have hcalls : c ∈ calls := horder.subset hc
  exact ⟨c, hcalls, hfault, h.answered.exists_world hcalls⟩

namespace CompileRunner

variable {r : CompileRunner} {m : LoadedModule} {p : Policy} {h : Host} {modelId : Nat}

/-- What a worker reports for a module when it collects data by compiling. -/
def report (r : CompileRunner) (policy : Option Policy) (keyFilter : Option NameFilter) (i : Nat)
    (m : LoadedModule) (h : Host) : Envelope :=
  ((⟨r.collector, fun _ => .ok policy, keyFilter⟩ : WorkerSetup Host).call i m h).envelope keyFilter

/-- Data is reported as the filter leaves it. -/
theorem report_of_ok {policy : Option Policy} {d : ModuleData}
    (hd : (r.collect m policy none defaultModelId h).1 = .ok d) (keyFilter : Option NameFilter)
    (i : Nat) : r.report policy keyFilter i m h = .ofData keyFilter m.name d := by
  have hcall : (r.collector m policy none defaultModelId h).1 = .data d := by
    unfold collector
    rcases hcollect : r.collect m policy none defaultModelId h with ⟨result, h'⟩
    rw [hcollect] at hd
    subst hd
    rfl
  unfold report Collection.envelope WorkerSetup.call Worker.policyOf
  dsimp only
  rw [hcall]
  rfl

/-- An error is reported for what it means. -/
theorem report_of_error {policy : Option Policy} {e : CompilationError}
    (he : (r.collect m policy none defaultModelId h).1 = .error e) (keyFilter : Option NameFilter)
    (i : Nat) : r.report policy keyFilter i m h = .ofError m.name e := by
  have hcall : (r.collector m policy none defaultModelId h).1 = .failed e := by
    unfold collector
    rcases hcollect : r.collect m policy none defaultModelId h with ⟨result, h'⟩
    rw [hcollect] at he
    subst he
    rfl
  unfold report Collection.envelope WorkerSetup.call Worker.policyOf
  dsimp only
  rw [hcall]
  rfl

/-- What a worker without a policy reports once the compiler has been launched. -/
theorem report_none (hlaunch : r.invocation.Launches m none h) (keyFilter : Option NameFilter)
    (i : Nat) :
    (r.report none keyFilter i m h).isFatal = false ∧
      ((r.report none keyFilter i m h).isSuccess = true ↔
        ∃ log, r.invocation.Yields m none h log) := by
  cases hcollect : (r.collect m none none defaultModelId h).1 with
  | ok d =>
    obtain ⟨hsound, log, hlog, -⟩ := collect_none_eq_ok hcollect
    have hsuccess := Envelope.isSuccess_ofData hsound keyFilter m.name
    rw [report_of_ok hcollect]
    exact ⟨Envelope.isFatal_of_isSuccess hsuccess, fun _ => ⟨log, hlog⟩, fun _ => hsuccess⟩
  | error e =>
    obtain ⟨hrecoverable, hnot⟩ := collect_none_eq_error hlaunch hcollect
    rw [report_of_error hcollect, Envelope.ofError, if_pos hrecoverable]
    refine ⟨rfl, by rintro ⟨⟩, ?_⟩
    rintro ⟨log, hlog⟩
    exact absurd hlog (hnot log)

/-- What a worker with a policy reports once the compilers have been launched: the module is done,
or it has failed by itself, or the second log holds a new key. -/
theorem report_some_cases (hlaunch : r.invocation.Launches m none h)
    (hlaunch' : ∀ first, r.invocation.Yields m none h first →
      r.invocation.Launches m (some p) (r.invocation.compile m none h).2)
    (keyFilter : Option NameFilter) (i : Nat) :
    ((∃ first log, r.YieldsBoth m p h first log ∧ ∀ k ∈ log.keys, k ∈ first.keys) ∧
        (r.report (some p) keyFilter i m h).isSuccess = true) ∨
      ((∀ first log, ¬ r.YieldsBoth m p h first log) ∧
        r.report (some p) keyFilter i m h = .failure) ∨
      ∃ first log k, r.YieldsBoth m p h first log ∧ k ∈ log.keys ∧ k ∉ first.keys ∧
        r.report (some p) keyFilter i m h =
          .fatal (.compilation m.name (.unknownKey m.name k)) := by
  cases hcollect : (r.collect m (some p) none defaultModelId h).1 with
  | ok d =>
    obtain ⟨hsound, first, log, hboth, hcovered, -⟩ := collect_some_eq_ok hcollect
    rw [report_of_ok hcollect]
    exact .inl ⟨⟨first, log, hboth, hcovered⟩, Envelope.isSuccess_ofData hsound keyFilter m.name⟩
  | error e =>
    rw [report_of_error hcollect, Envelope.ofError]
    rcases collect_some_eq_error hlaunch hlaunch' hcollect with
      ⟨hrecoverable, hnot⟩ | ⟨first, log, k, hboth, hk, hnew, rfl⟩
    · rw [if_pos hrecoverable]
      exact .inr (.inl ⟨hnot, rfl⟩)
    · exact .inr (.inr ⟨first, log, k, hboth, hk, hnew, rfl⟩)

/-- A run without a policy that ends because of a fault has met a compiler that could not be
launched. -/
theorem exists_not_launches_of_fault {keyFilter : Option NameFilter} {n : Nat}
    {modules : List LoadedModule} {sinks : Sinks} {world : Host} {calls : List Collection}
    {q : Pool Host} {fault : WorkerFault} (hn : 0 < n)
    (hrun : Pool.Run ⟨r.collector, fun _ => .ok none, keyFilter⟩ (.start n modules sinks world)
      calls q)
    (hr : q.result? = some (.error (.workerFault fault))) :
    ∃ c ∈ calls, ∃ h, c.envelope keyFilter = r.report none keyFilter c.worker c.subject h ∧
      ¬ r.invocation.Launches c.subject none h := by
  obtain ⟨c, hc, hfault, h, hcall⟩ := hrun.exists_call_of_fault (fun _ _ => ⟨none, rfl⟩) hn hr
  have henvelope : c.envelope keyFilter = r.report none keyFilter c.worker c.subject h :=
    congrArg (Collection.envelope keyFilter) hcall
  refine ⟨c, hc, h, henvelope, fun hlaunch => ?_⟩
  have hharmless := (report_none hlaunch keyFilter c.worker).1
  rw [← henvelope, hfault] at hharmless
  cases hharmless

/-- Workers that collect data by compiling. Once the compiler has been launched without a policy, a
module is done or has failed by itself; it is done exactly if the compiler ends with success in time
and leaves a log that can be read. With a policy a module is done exactly if both compiles do so and
the second log holds no key that the first one does not hold; if it holds such a key then the worker
has to stop, for this reason and for no other. A run without a policy that ends because of a fault
has made a call in which the compiler could not be launched. -/
theorem compiler_faults_contained (r : CompileRunner) (keyFilter : Option NameFilter) :
    (∀ i m h, r.invocation.Launches m none h →
      (r.report none keyFilter i m h).isFatal = false ∧
      ((r.report none keyFilter i m h).isSuccess = true ↔
        ∃ log, r.invocation.Yields m none h log)) ∧
    (∀ i m h p, r.invocation.Launches m none h →
      (∀ first, r.invocation.Yields m none h first →
        r.invocation.Launches m (some p) (r.invocation.compile m none h).2) →
      ((r.report (some p) keyFilter i m h).isSuccess = true ↔
        ∃ first log, r.YieldsBoth m p h first log ∧ ∀ k ∈ log.keys, k ∈ first.keys) ∧
      ((r.report (some p) keyFilter i m h).isFatal = true ↔
        ∃ first log, r.YieldsBoth m p h first log ∧ ∃ k ∈ log.keys, k ∉ first.keys) ∧
      ∀ fault, r.report (some p) keyFilter i m h = .fatal fault →
        ∃ first log k, r.YieldsBoth m p h first log ∧ k ∈ log.keys ∧ k ∉ first.keys ∧
          fault = .compilation m.name (.unknownKey m.name k)) ∧
    ∀ n modules sinks world calls q fault, 0 < n →
      Pool.Run ⟨r.collector, fun _ => .ok none, keyFilter⟩ (.start n modules sinks world) calls q →
      q.result? = some (.error (.workerFault fault)) →
      ∃ c ∈ calls, ∃ h, c.envelope keyFilter = r.report none keyFilter c.worker c.subject h ∧
        ¬ r.invocation.Launches c.subject none h := by
  refine ⟨fun i m h hlaunch => report_none hlaunch keyFilter i,
    fun i m h p hlaunch hlaunch' => ?_,
    fun n modules sinks world calls q fault hn => exists_not_launches_of_fault hn⟩
  -- The three cases exclude each other, as two compiles leave one pair of logs.
  rcases report_some_cases hlaunch hlaunch' keyFilter i with
    ⟨⟨first, log, hboth, hcovered⟩, hreport⟩ | ⟨hnot, hreport⟩ |
      ⟨first, log, k, hboth, hk, hnew, hreport⟩
  · have hharmless := Envelope.isFatal_of_isSuccess hreport
    refine ⟨⟨fun _ => ⟨first, log, hboth, hcovered⟩, fun _ => hreport⟩, ?_, ?_⟩
    · rw [hharmless]
      refine ⟨by rintro ⟨⟩, ?_⟩
      rintro ⟨first', log', hboth', k, hk, hnew⟩
      obtain ⟨rfl, rfl⟩ := hboth.unique hboth'
      exact absurd (hcovered k hk) hnew
    · intro fault hfault
      rw [hfault] at hharmless
      cases hharmless
  · rw [hreport]
    refine ⟨⟨by rintro ⟨⟩, ?_⟩, ⟨by rintro ⟨⟩, ?_⟩, by rintro fault ⟨⟩⟩
    · rintro ⟨first, log, hboth, -⟩
      exact absurd hboth (hnot first log)
    · rintro ⟨first, log, hboth, -⟩
      exact absurd hboth (hnot first log)
  · rw [hreport]
    refine ⟨⟨by rintro ⟨⟩, ?_⟩, ⟨fun _ => ⟨first, log, hboth, k, hk, hnew⟩, fun _ => rfl⟩, ?_⟩
    · rintro ⟨first', log', hboth', hcovered⟩
      obtain ⟨rfl, rfl⟩ := hboth.unique hboth'
      exact absurd (hcovered k hk) hnew
    · rintro fault ⟨⟩
      exact ⟨first, log, k, hboth, hk, hnew, rfl⟩

/-! ## A compiler that is killed -/

namespace Sample

/-- A compiler that leaves an empty log, and ends with success the first time only. -/
def compiler : Compiler := fun number _ =>
  ⟨some [], [], if number = 0 then some 0 else none, 0⟩

/-- A machine with this compiler. -/
def host : Host :=
  ⟨.empty, fun _ => some compiler, fun number => if number = 0 then "/first" else "/second", 0, []⟩

/-- A runner of this compiler. -/
def runner : CompileRunner :=
  ⟨⟨"/compiler", 1000, ["-log=" ++ logPlaceholder], ["-policy=" ++ policyPlaceholder]⟩, 0⟩

/-- A module with its index. -/
def loaded : LoadedModule :=
  ⟨"a", [0], some [1], ["-c", modulePlaceholder]⟩

/-- A policy. -/
def policy : Policy :=
  ⟨"/policy", ""⟩

/-- The fault that has ended a run, if one has. -/
def faultOf (q : Pool Host) : Option WorkerFault :=
  match q.result? with
  | some (.error (.workerFault fault)) => some fault
  | _ => none

end Sample

/-- A compiler that leaves an empty log and ends with success, but is killed when it is given a
policy; and a run on a machine without a compiler. -/
theorem compiler_faults_contained_of_killed_compiler :
    (Sample.runner.report none (some ⟨"x", .empty⟩) 0 Sample.loaded Sample.host).isSuccess = true ∧
    Sample.runner.report (some Sample.policy) none 0 Sample.loaded Sample.host = .failure ∧
    ∃ calls q, Pool.Run ⟨Sample.runner.collector, fun _ => .ok none, none⟩
        (.start 1 [Sample.loaded] .absent { Sample.host with compiler? := fun _ => none }) calls q ∧
      q.result? = some (.error (.workerFault (.compilation "a" (.spawn "/compiler" "")))) ∧
      ∃ c ∈ calls, ∃ h, c.envelope none = Sample.runner.report none none c.worker c.subject h ∧
        ¬ Sample.runner.invocation.Launches c.subject none h := by
  let i := Sample.runner.invocation
  let next : Host := (i.compile Sample.loaded none Sample.host).2
  let seen (o : CompilerRun × Option String) : Nat × Option Int × Option String :=
    (o.1.duration, o.1.code, o.2)
  have hfirst : (i.observed? Sample.loaded none Sample.host).map seen =
      some (0, some 0, some "") := by
    decide +kernel
  have hsecond : (i.observed? Sample.loaded (some Sample.policy) next).map seen =
      some (0, none, some "") := by
    decide +kernel
  obtain ⟨⟨run, log⟩, hrun, hseen⟩ := Option.map_eq_some_iff.1 hfirst
  obtain ⟨⟨run', log'⟩, hrun', hseen'⟩ := Option.map_eq_some_iff.1 hsecond
  simp only [seen, Prod.mk.injEq] at hseen hseen'
  obtain ⟨htime, hcode, rfl⟩ := hseen
  have hlaunch : i.Launches Sample.loaded none Sample.host := by
    rw [Invocation.launches_iff, hrun]
    rfl
  have hlaunch' : i.Launches Sample.loaded (some Sample.policy) next := by
    rw [Invocation.launches_iff, hrun']
    rfl
  have hyields : i.Yields Sample.loaded none Sample.host .empty :=
    ⟨run, "", hrun, by rw [htime]; decide, hcode, rfl⟩
  have hkilled (log : KeyMap Measurement) :
      ¬ i.Yields Sample.loaded (some Sample.policy) next log := by
    rintro ⟨again, text, hagain, -, hzero, -⟩
    obtain ⟨rfl, -⟩ := Prod.mk.inj (Option.some.inj (hrun'.symm.trans hagain))
    cases hseen'.2.1.symm.trans hzero
  -- Neither a good end of both compiles nor a new key can be, as the second compile is killed.
  obtain ⟨-, hpolicy, -⟩ := compiler_faults_contained Sample.runner none
  obtain ⟨hdone, hfatal, -⟩ := hpolicy 0 Sample.loaded Sample.host Sample.policy hlaunch
    fun _ _ => hlaunch'
  have hfailure : Sample.runner.report (some Sample.policy) none 0 Sample.loaded Sample.host =
      .failure := by
    cases hreport : Sample.runner.report (some Sample.policy) none 0 Sample.loaded Sample.host with
    | failure => rfl
    | success outcome =>
      rw [hreport] at hdone
      obtain ⟨first, log, ⟨-, hlog⟩, -⟩ := hdone.1 rfl
      exact absurd hlog (hkilled log)
    | fatal fault =>
      rw [hreport] at hfatal
      obtain ⟨first, log, ⟨-, hlog⟩, -⟩ := hfatal.1 rfl
      exact absurd hlog (hkilled log)
  obtain ⟨hnone, -, -⟩ := compiler_faults_contained Sample.runner (some ⟨"x", .empty⟩)
  have hsuccess := (hnone 0 Sample.loaded Sample.host hlaunch).2.2 ⟨_, hyields⟩
  -- Without a compiler the run ends by the fault of its only module.
  let schedule : List Actor := List.replicate 4 (.worker 0) ++ [.supervisor, .supervisor]
  have hend : ((Pool.start 1 [Sample.loaded] .absent
      { Sample.host with compiler? := fun _ => none }).play
        ⟨Sample.runner.collector, fun _ => .ok none, none⟩ schedule).map (Sample.faultOf ·.2) =
      some (some (.compilation "a" (.spawn "/compiler" ""))) := by
    decide +kernel
  obtain ⟨⟨calls, q⟩, hplay, hfault⟩ := Option.map_eq_some_iff.1 hend
  have hr : q.result? =
      some (.error (.workerFault (.compilation "a" (.spawn "/compiler" "")))) := by
    unfold Sample.faultOf at hfault
    split at hfault
    · rename_i fault hresult
      rw [hresult, Option.some.inj hfault]
    · cases hfault
  have hrun := Pool.run_iff_exists_play.2 ⟨schedule, hplay⟩
  obtain ⟨-, -, hpool⟩ := compiler_faults_contained Sample.runner none
  exact ⟨hsuccess, hfailure, calls, q, hrun, hr, hpool _ _ _ _ _ _ _ (by decide) hrun hr⟩

end CompileRunner

end TraceGen
