import TraceGen.Proofs.Pool.Conservation

/-!
# What a fault does to a run

`Pool.fault_aborts` says when a fault that a worker reports ends the run badly: always, unless the
run has no modules. Without modules the supervisor receives nothing, so that the report of a policy
that cannot be loaded is never read and the run ends well if the outputs can be closed.

That the supervisor cannot have ended a run with modules well while a fault is on its way is counted
out by the ledger: a good end has room for the parcels of the modules only (`Run.settled`), and
where no worker can load its policy no module is ever taken (`Ledger.equipped`). A policy that some
workers can load and others cannot is another matter, as the report of one that starts late comes
after the last module.
-/

namespace TraceGen

namespace Pool

variable {σ : Type} {s : WorkerSetup σ} {p q : Pool σ} {calls more : List Collection} {n : Nat}
  {modules : List LoadedModule} {sinks : Sinks} {world : σ}

/-- A run that ends badly has received a fault, or an output failed. -/
theorem Run.cause (h : Run s (.start n modules sinks world) calls p) (hn : 0 < n)
    {cause : PoolError} (hr : p.result? = some (.error cause)) :
    (∃ fault, cause = .workerFault fault ∧ .fatal fault ∈ p.envelopes) ∨ ∃ e, cause = .sink e :=
  Sequential.run_error (h.run_eq hn hr).1

/-- A run with modules in which a fault was reported does not end well, provided that the policy can
be loaded by every worker or by none. -/
theorem Run.not_ok_of_fault (h : Run s (.start n modules sinks world) calls p) (hn : 0 < n)
    (hload : (∀ i < n, ∃ policy, s.policy (workerId i) = .ok policy) ∨
      ∀ i < n, ∃ e, s.policy (workerId i) = .error e)
    (hmodules : modules ≠ []) (hfault : ∃ parcel ∈ p.sent, parcel.envelope.isFatal = true)
    (summary : Summary) : p.result? ≠ some (.ok summary) := by
  intro hr
  obtain ⟨parcel, hmem, hfatal⟩ := hfault
  have hend := h.settled hn hr
  have hparcel : parcel ∈ p.parcels := List.mem_append_right _ hmem
  -- A fault of a module would have been received, and where a policy cannot be loaded by one worker
  -- none of them makes a call.
  cases ho : parcel.origin with
  | some m =>
    have hin : parcel ∈ p.drained := by
      rw [← hend.exhaustive]
      exact List.mem_filter.2 ⟨hparcel, by rw [ho]; rfl⟩
    rw [hend.harmless parcel hin] at hfatal
    cases hfatal
  | none =>
    obtain ⟨i, hi, e, he, -⟩ := h.ledger.orphaned parcel hparcel ho
    rw [h.crew.size] at hi
    rcases hload with hloaded | hunloaded
    · obtain ⟨policy, hok⟩ := hloaded i hi
      cases hok.symm.trans he
    · refine hmodules (List.nil_perm.1 ?_)
      have hcalls : calls = [] := by
        refine List.eq_nil_iff_forall_not_mem.2 fun c hc => ?_
        obtain ⟨hlt, policy, hok⟩ := h.ledger.equipped c hc
        rw [h.crew.size] at hlt
        obtain ⟨e, he⟩ := hunloaded c.worker hlt
        cases hok.symm.trans he
      have hsubjects := hend.subjects
      rwa [hcalls] at hsubjects

/-- A supervisor who follows the reference receives no more than one parcel for each module. -/
theorem Step.length_drained_le {work : Nat} (hs : Step s p calls q) (hf : Follows work sinks p)
    (hle : p.drained.length ≤ work) : q.drained.length ≤ work := by
  cases hs with
  | work => exact hle
  | supervise hq =>
    cases hq with
    | complete | strand | giveUp | spoil | close | join => exact hle
    | receive hs hk =>
      rw [integrate_drained, received, List.length_append, List.length_singleton]
      cases hf with
      | draining hs' hd =>
        obtain ⟨rfl, rfl⟩ := Supervision.draining.inj (hs.symm.trans hs')
        rw [(Sequential.takeAll_ok hd).2.1] at hk
        exact Nat.lt_of_le_of_ne hle hk
      | aborting hs' | finalizing hs' | joining hs' | finished hs' => cases hs.symm.trans hs'

/-- The supervisor receives at most one parcel for each module. -/
theorem Run.length_drained_le (h : Run s (.start n modules sinks world) calls p) (hn : 0 < n) :
    p.drained.length ≤ modules.length := by
  induction h with
  | start => exact Nat.zero_le _
  | next hrun hr ih => exact (step_iff.2 ⟨_, hr, rfl⟩).length_drained_le (hrun.follows hn) ih

/-- A run without modules closes its outputs, whatever its workers report. -/
theorem Run.result_of_no_modules (h : Run s (.start n [] sinks world) calls p) (hn : 0 < n)
    {result : Except PoolError Summary} (hr : p.result? = some result) :
    result = (sinks.close.1.mapError .sink).map fun _ => .start 0 := by
  have hdrained : p.drained = [] :=
    List.length_eq_zero_iff.1 (Nat.le_zero.1 (h.length_drained_le hn))
  have hrun := (h.run_eq hn hr).1
  rw [envelopes, hdrained, List.map_nil] at hrun
  rcases hclose : sinks.close with ⟨closed, sinks'⟩
  have hconclude : Sequential.conclude (.ok (.start 0, sinks)) = (result, p.sinks) := hrun
  simp only [Sequential.conclude, hclose] at hconclude
  cases closed with
  | error e => exact (congrArg Prod.fst hconclude).symm
  | ok u => exact (congrArg Prod.fst hconclude).symm

/-- A run in which a worker reports a fault at some time, in any order of actions of any number of
workers, with a policy that all of them can load or none. If it has modules then it neither ends
well before nor after that; it has an end, when it has ended it is aborted, and then the supervisor
has received a fault and reports it, or an output has failed. If it has no modules then it ends by
closing its outputs and takes no notice of the fault. -/
theorem fault_aborts (hn : 0 < n)
    (hload : (∀ i < n, ∃ policy, s.policy (workerId i) = .ok policy) ∨
      ∀ i < n, ∃ e, s.policy (workerId i) = .error e)
    (h : Run s (.start n modules sinks world) calls p)
    (hlater : Run s p more q) (hfault : ∃ parcel ∈ q.sent, parcel.envelope.isFatal = true) :
    (modules ≠ [] →
      (∀ summary, p.result? ≠ some (.ok summary)) ∧ p.state ≠ .done ∧
      (∀ actors last, p.play s actors = some last → actors.length ≤ p.weight) ∧
      ((∀ a, p.step s a = none) → ∃ cause, p.result? = some (.error cause)) ∧
      ∀ cause, p.result? = some (.error cause) → p.state = .aborted ∧
        ((∃ fault, cause = .workerFault fault ∧ .fatal fault ∈ p.envelopes) ∨
          ∃ e, cause = .sink e)) ∧
    (modules = [] → ∀ result, p.result? = some result →
      result = (sinks.close.1.mapError .sink).map fun _ => .start 0) := by
  refine ⟨fun hmodules => ?_, ?_⟩
  · -- An end is final, so that a good end before the fault would also be one after it.
    have hbad : ∀ summary, p.result? ≠ some (.ok summary) := fun summary hr =>
      (h.trans hlater).not_ok_of_fault hn hload hmodules hfault summary (hlater.result?_eq hr)
    refine ⟨hbad, fun hdone => ?_, fun actors last hplay => ?_, fun hquiet => ?_,
      fun cause hr => ?_⟩
    · obtain ⟨summary, hr⟩ := h.exists_summary_of_done hdone
      exact hbad summary hr
    · exact Nat.le_of_add_right_le (length_le_weight_of_play hplay)
    · obtain ⟨result, hr⟩ := h.exists_result hquiet
      cases result with
      | ok summary => exact absurd hr (hbad summary)
      | error cause => exact ⟨cause, hr⟩
    · exact ⟨(h.state_of_result? hr).2.2 ⟨cause, rfl⟩, h.cause hn hr⟩
  · rintro rfl result hr
    exact h.result_of_no_modules hn hr

/-- A single module whose collector breaks down. -/
theorem fault_aborts_of_panic :
    ∃ calls p, Run (Sample.setup (.ok none)) (.start 1 [Sample.loaded "a" [0, 0]] .absent ())
        calls p ∧ (∃ parcel ∈ p.sent, parcel.envelope.isFatal = true) ∧ p.state = .aborted ∧
      p.result? =
        some (.error (.workerFault (.panicked "worker-0" "unknown panic payload"))) := by
  let schedule : List Actor := List.replicate 4 (.worker 0) ++ [.supervisor, .supervisor]
  obtain ⟨calls, p, hplay, hsent, hr⟩ : ∃ calls p,
      (Pool.start 1 [Sample.loaded "a" [0, 0]] .absent ()).play (Sample.setup (.ok none))
        schedule = some (calls, p) ∧ (∃ parcel ∈ p.sent, parcel.envelope.isFatal = true) ∧
      p.result? =
        some (.error (.workerFault (.panicked "worker-0" "unknown panic payload"))) :=
    ⟨_, _, rfl, ⟨_, List.mem_cons_self, rfl⟩, rfl⟩
  have hrun := run_iff_exists_play.2 ⟨schedule, hplay⟩
  obtain ⟨hmodules, -⟩ := fault_aborts (by decide) (.inl fun _ _ => ⟨none, rfl⟩) hrun .start hsent
  obtain ⟨-, -, -, -, haborted⟩ := hmodules (by decide)
  exact ⟨calls, p, hrun, hsent, (haborted _ hr).1, hr⟩

/-- A worker that starts late and cannot load the policy any more reports so after the last module:
the run ends well. -/
example :
    let setup : WorkerSetup Unit := ⟨Sample.collector,
      fun id => if id = workerId 0 then .ok none else .error (.notFound "nope"), none⟩
    let schedule : List Actor := List.replicate 5 (.worker 0) ++ List.replicate 2 (.worker 1) ++
      List.replicate 4 .supervisor
    ((Pool.start 2 [Sample.loaded "a" []] .absent ()).play setup schedule).map
      (fun r => (r.2.state, r.2.sent.map (·.envelope.isFatal))) = some (.done, [true, false]) := by
  decide +kernel

/-- Without modules a run ends well although its worker reports that the policy is missing. -/
theorem done_despite_missing_policy :
    ∃ calls p, Run (Sample.setup (.error (.notFound "nope"))) (.start 1 [] .absent ()) calls p ∧
      (∃ parcel ∈ p.sent, parcel.envelope = .fatal (.policy (.notFound "nope"))) ∧
      p.result? = some (.ok (.start 0)) ∧ p.state = .done := by
  let schedule : List Actor := [.worker 0, .worker 0, .supervisor, .supervisor, .supervisor]
  exact ⟨_, _, run_iff_exists_play.2 ⟨schedule, rfl⟩, ⟨_, List.mem_cons_self, rfl⟩, rfl, rfl⟩

end Pool

end TraceGen
