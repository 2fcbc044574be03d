import TraceGen.Proofs.Pool.Sequential

/-!
# The supervisor follows the reference

`Pool.Follows` says where the supervisor stands: where `Sequential.run` stands after the envelopes
that have been received. `Run.follows` shows that every run of at least one worker keeps it.

The supervisor waits for one envelope for each module, and a worker that reports that its policy
cannot be loaded sends one that belongs to no module. That the supervisor never waits in vain
(`Ledger.not_stranded`) therefore rests on the ledger and on the reasons for which workers stop:
when all have stopped and nothing is on its way, either a fault has been received, or the queue is
empty and every module has been accounted for. `Run.exists_result` adds that a run in which nobody
can act has ended.
-/

namespace TraceGen

/-- There is always a worker, as statements about runs ask for. -/
theorem workerCount_pos (requested : Option Nat) (available : Nat) :
    0 < workerCount requested available := by
  unfold workerCount
  split <;> exact Nat.le_max_left _ _

namespace Pool

variable {σ : Type} {s : WorkerSetup σ} {p q : Pool σ} {calls : List Collection} {n : Nat}
  {modules : List LoadedModule}

/-- The envelopes that the supervisor has received. -/
def envelopes (p : Pool σ) : List Envelope :=
  p.drained.map (·.envelope)

/-- The supervisor acts on an envelope as the reference takes it. -/
theorem integrate_of_take_ok {k : Nat} {summary summary' : Summary} {sinks' : Sinks} {e : Envelope}
    (h : Sequential.take (summary, p.sinks) e = .ok (summary', sinks')) :
    p.integrate k summary e =
      { p with sinks := sinks', supervision := .draining (k + 1) summary' } := by
  cases e with
  | fatal fault => cases h
  | failure =>
    cases h
    rfl
  | success outcome =>
    simp only [Sequential.take] at h
    simp only [integrate, Sequential.writeOutcome_eq]
    rcases hput : Sequential.putAll p.sinks (Sequential.entries outcome) with ⟨result, sinks⟩
    rw [hput] at h
    cases result with
    | error cause => cases h
    | ok u =>
      cases h
      rfl

/-- The supervisor gives up where the reference stops. -/
theorem integrate_of_take_error {k : Nat} {summary : Summary} {cause : PoolError} {sinks' : Sinks}
    {e : Envelope} (h : Sequential.take (summary, p.sinks) e = .error (cause, sinks')) :
    p.integrate k summary e = ({ p with sinks := sinks' } : Pool σ).abort cause := by
  cases e with
  | fatal fault =>
    cases h
    rfl
  | failure => cases h
  | success outcome =>
    simp only [Sequential.take] at h
    simp only [integrate, Sequential.writeOutcome_eq]
    rcases hput : Sequential.putAll p.sinks (Sequential.entries outcome) with ⟨result, sinks⟩
    rw [hput] at h
    cases result with
    | error e =>
      cases h
      rfl
    | ok u => cases h

/-! ## Nobody waits in vain -/

/-- Without senders all workers have stopped. -/
theorem Crew.isStopped_of_senders (h : Crew n p) (hs : p.shared.channel.senders = 0) :
    ∀ w ∈ p.workers, w.isStopped = true := by
  intro w hw
  rw [h.senders, List.countP_eq_zero] at hs
  simpa using hs w hw

/-- A worker that has stopped has taken no module and puts no parcel. -/
theorem eq_stopped_of_isStopped {w : Phase} (h : w.isStopped = true) : w = .stopped := by
  cases w <;> first | rfl | cases h

/-- When all workers have stopped all parcels have been sent. -/
theorem parcels_of_stopped (h : ∀ w ∈ p.workers, w.isStopped = true) : p.parcels = p.sent := by
  have hnone : p.workers.filterMap Phase.parcel? = [] := by
    refine List.filterMap_eq_nil_iff.2 fun w hw => ?_
    rw [eq_stopped_of_isStopped (h w hw)]
    rfl
  rw [parcels, hnone, List.nil_append]

/-- When all workers have stopped every module that was taken has had its call. -/
theorem uncollected_of_stopped (h : ∀ w ∈ p.workers, w.isStopped = true) : p.uncollected = [] := by
  refine List.filterMap_eq_nil_iff.2 fun w hw => ?_
  rw [eq_stopped_of_isStopped (h w hw)]
  rfl

/-- A parcel that reports no fault accounts for a module. -/
theorem Ledger.origin_isSome (h : Ledger s modules calls p) {parcel : Parcel}
    (hmem : parcel ∈ p.parcels) (hf : parcel.envelope.isFatal = false) :
    parcel.origin.isSome = true := by
  cases ho : parcel.origin with
  | some m => rfl
  | none =>
    obtain ⟨i, -, e, -, he⟩ := h.orphaned parcel hmem ho
    rw [he] at hf
    cases hf

/-- The parcels that the supervisor has received are a part of all parcels, in their order. -/
theorem drained_sublist_parcels (p : Pool σ) : p.drained.Sublist p.parcels := by
  have hsent : p.drained.Sublist p.sent :=
    (List.sublist_append_right _ _).trans (List.sublist_append_left _ _)
  exact hsent.trans (List.sublist_append_right _ _)

/-- A parcel that the supervisor has received accounts for a module unless it reports a fault. -/
theorem Ledger.origin_isSome_of_drained (h : Ledger s modules calls p)
    (hf : ∀ parcel ∈ p.drained, parcel.envelope.isFatal = false) :
    ∀ parcel ∈ p.drained, parcel.origin.isSome = true := fun parcel hmem =>
  h.origin_isSome ((drained_sublist_parcels p).subset hmem) (hf parcel hmem)

/-- A supervisor to whom nobody can send any more has received a fault or an envelope for every
module. -/
theorem Ledger.not_stranded (h : Ledger s modules calls p) (hc : Crew n p) (hn : 0 < n)
    (hr : p.result? = none) (hi : p.shared.channel.items = [])
    (hs : p.shared.channel.senders = 0)
    (hf : ∀ parcel ∈ p.drained, parcel.envelope.isFatal = false) :
    p.drained.length = modules.length := by
  have hstopped := hc.isStopped_of_senders hs
  -- There is a worker, and as no fault was received it stopped because no module was left.
  have hqueue : p.shared.queue = [] := by
    obtain ⟨w, hw⟩ : ∃ w, w ∈ p.workers :=
      List.exists_mem_of_length_pos (by rw [hc.size]; exact hn)
    rcases hc.stopped hr w hw (hstopped w hw) with hqueue | ⟨parcel, hmem, hfatal⟩
    · exact hqueue
    · rw [hi, List.nil_append] at hmem
      rw [hf parcel hmem] at hfatal
      cases hfatal
  have hsent : p.sent = p.drained := by
    rw [sent, hi, hc.unrefused hr, List.append_nil, List.nil_append]
  have hparcels : p.parcels = p.drained := (parcels_of_stopped hstopped).trans hsent
  have hall : p.drained.filter (·.origin.isSome) = p.drained :=
    List.filter_eq_self.2 (h.origin_isSome_of_drained hf)
  -- One parcel for each call, and one call for each module.
  have hcalls := h.called.length_eq
  have htaken := h.taken.length_eq
  rw [hparcels, hall, List.length_map] at hcalls
  rw [hqueue, uncollected_of_stopped hstopped, List.length_append, List.length_map] at htaken
  rw [hcalls, htaken]
  exact (Nat.zero_add _).symm

/-! ## Where the supervisor stands -/

/-- The supervisor stands where the reference stands after the envelopes received. -/
inductive Follows (work : Nat) (sinks : Sinks) (p : Pool σ) : Prop where
  /-- It goes on where the reference goes on. -/
  | draining {summary : Summary} (hs : p.supervision = .draining p.drained.length summary)
      (hd : Sequential.takeAll work sinks p.envelopes = .ok (summary, p.sinks))
  /-- It gives up for the reason for which the reference stops. -/
  | aborting {cause : PoolError} (hs : p.supervision = .aborting cause)
      (hd : Sequential.takeAll work sinks p.envelopes = .error (cause, p.sinks))
  /-- It has received all envelopes, none of which stops the reference. -/
  | finalizing {summary : Summary} (hs : p.supervision = .finalizing summary)
      (hd : Sequential.takeAll work sinks p.envelopes = .ok (summary, p.sinks))
      (hn : p.drained.length = work)
  /-- It has also closed the outputs. -/
  | joining {summary : Summary} (hs : p.supervision = .joining summary)
      (hd : Sequential.run work sinks p.envelopes = (.ok summary, p.sinks))
      (hn : p.drained.length = work)
  /-- The run has ended as the reference ends. -/
  | finished {result : Except PoolError Summary} (hs : p.supervision = .finished result)
      (hd : Sequential.run work sinks p.envelopes = (result, p.sinks))
      (hn : ∀ summary, result = .ok summary →
        p.drained.length = work ∧ p.workers.all Phase.isStopped = true)

/-- None of the envelopes after which the reference goes on reports a fault. -/
theorem not_fatal_of_takeAll {work : Nat} {sinks : Sinks} {st : Summary × Sinks}
    (h : Sequential.takeAll work sinks p.envelopes = .ok st) :
    ∀ parcel ∈ p.drained, parcel.envelope.isFatal = false := fun _ hmem =>
  (Sequential.takeAll_ok h).1 _ (List.mem_map_of_mem hmem)

/-- Where the supervisor stands does not depend on the workers while it waits for them. -/
theorem Follows.work {work i : Nat} {sinks : Sinks} {phase phase' : Phase} {sh' : Shared σ}
    (h : Follows work sinks p) (hi : p.workers[i]? = some phase)
    (ha : Worker.Action s i phase p.shared calls phase' sh') :
    Follows work sinks { p with workers := p.workers.set i phase', shared := sh' } := by
  cases h with
  | draining hs hd => exact .draining hs hd
  | aborting hs hd => exact .aborting hs hd
  | finalizing hs hd hn => exact .finalizing hs hd hn
  | joining hs hd hn => exact .joining hs hd hn
  | finished hs hd hn =>
    refine .finished hs hd fun summary hresult => ?_
    -- After a good end all workers have stopped, so that this one cannot have acted.
    have hstopped := List.all_eq_true.1 (hn summary hresult).2 phase (List.mem_of_getElem? hi)
    rw [ha.isStopped_eq] at hstopped
    cases hstopped

/-- The supervisor follows the reference, provided that it does not wait in vain. -/
theorem Follows.supervise {work : Nat} {sinks : Sinks} (h : Follows work sinks p)
    (hq : Supervised p q)
    (hstrand : p.result? = none → p.shared.channel.items = [] → p.shared.channel.senders = 0 →
      (∀ parcel ∈ p.drained, parcel.envelope.isFatal = false) → p.drained.length = work) :
    Follows work sinks q := by
  cases h with
  | @draining summary hs hd =>
    have hwork : summary.work = work := (Sequential.takeAll_ok hd).2.1
    cases hq with
    | complete hs' =>
      obtain ⟨hk, rfl⟩ := Supervision.draining.inj (hs.symm.trans hs')
      exact .finalizing rfl hd (hk.trans hwork)
    | @receive k summary' parcel rest hs' hk hi =>
      obtain ⟨rfl, rfl⟩ := Supervision.draining.inj (hs.symm.trans hs')
      have hsnoc : Sequential.takeAll work sinks (p.received parcel rest).envelopes =
          Sequential.take (summary, (p.received parcel rest).sinks) parcel.envelope := by
        refine Eq.trans ?_ (Sequential.takeAll_snoc hd parcel.envelope)
        simp only [envelopes, received, List.map_append, List.map_cons, List.map_nil]
      cases htake : Sequential.take (summary, (p.received parcel rest).sinks) parcel.envelope with
      | error stop =>
        rw [integrate_of_take_error htake]
        exact .aborting rfl (hsnoc.trans htake)
      | ok st =>
        rw [integrate_of_take_ok htake]
        refine .draining ?_ (hsnoc.trans htake)
        simp only [received, List.length_append, List.length_singleton]
    | strand hs' hk hi hc =>
      -- The reference has no counterpart of this, and it cannot happen.
      obtain ⟨rfl, rfl⟩ := Supervision.draining.inj (hs.symm.trans hs')
      have hr : p.result? = none := by rw [result?, hs]; rfl
      exact absurd ((hstrand hr hi hc (not_fatal_of_takeAll hd)).trans hwork.symm) hk
    | giveUp hs' | spoil hs' | close hs' | join hs' => cases hs.symm.trans hs'
  | aborting hs hd =>
    cases hq with
    | giveUp hs' =>
      cases hs.symm.trans hs'
      refine .finished rfl ?_ (by rintro _ ⟨⟩)
      show Sequential.conclude (Sequential.takeAll work sinks p.envelopes) = _
      rw [hd]
      rfl
    | complete hs' | receive hs' | strand hs' | spoil hs' | close hs' | join hs' =>
      cases hs.symm.trans hs'
  | finalizing hs hd hn =>
    have hrun : Sequential.run work sinks p.envelopes = Sequential.conclude (.ok (_, p.sinks)) :=
      congrArg Sequential.conclude hd
    rcases hclose : p.sinks.close with ⟨result, closed⟩
    simp only [Sequential.conclude, hclose] at hrun
    cases hq with
    | spoil hs' hc =>
      cases hs.symm.trans hs'
      rw [hclose] at hc ⊢
      subst hc
      exact .finished rfl hrun (by rintro _ ⟨⟩)
    | close hs' hc =>
      cases hs.symm.trans hs'
      rw [hclose] at hc ⊢
      subst hc
      exact .joining rfl hrun hn
    | complete hs' | receive hs' | strand hs' | giveUp hs' | join hs' => cases hs.symm.trans hs'
  | joining hs hd hn =>
    cases hq with
    | join hs' hw =>
      cases hs.symm.trans hs'
      exact .finished rfl hd fun _ _ => ⟨hn, hw⟩
    | complete hs' | receive hs' | strand hs' | giveUp hs' | spoil hs' | close hs' =>
      cases hs.symm.trans hs'
  | finished hs hd hn =>
    cases hq with
    | complete hs' | receive hs' | strand hs' | giveUp hs' | spoil hs' | close hs' | join hs' =>
      cases hs.symm.trans hs'

/-! ## Every run -/

/-- In every run of at least one worker the supervisor follows the reference. -/
theorem Run.follows {sinks : Sinks} {world : σ} (h : Run s (.start n modules sinks world) calls p)
    (hn : 0 < n) : Follows modules.length sinks p := by
  refine (h.invariant (I := fun calls p =>
    Ledger s modules calls p ∧ Crew n p ∧ Follows modules.length sinks p) ?_ ?_).2.2
  · exact ⟨Ledger.start s n modules sinks world, Crew.start n modules sinks world,
      .draining rfl rfl⟩
  · rintro calls more q r ⟨hledger, hcrew, hfollows⟩ hstep
    refine ⟨hledger.step hstep, hcrew.step hstep, ?_⟩
    cases hstep with
    | work hi ha => exact hfollows.work hi ha
    | supervise hr =>
      exact hfollows.supervise hr fun hopen hitems hsenders hfatal =>
        hledger.not_stranded hcrew hn hopen hitems hsenders hfatal

/-- A run that has ended has ended as the reference ends. After a good end it has received a parcel
for each module. -/
theorem Run.run_eq {sinks : Sinks} {world : σ} {result : Except PoolError Summary}
    (h : Run s (.start n modules sinks world) calls p) (hn : 0 < n)
    (hr : p.result? = some result) :
    Sequential.run modules.length sinks p.envelopes = (result, p.sinks) ∧
      ∀ summary, result = .ok summary → p.drained.length = modules.length := by
  cases h.follows hn with
  | finished hs hd hlen =>
    rw [result?, hs] at hr
    cases hr
    exact ⟨hd, fun summary hresult => (hlen summary hresult).1⟩
  | draining hs | aborting hs | finalizing hs | joining hs =>
    rw [result?, hs] at hr
    cases hr

/-- A run in which nobody can act any more has ended. -/
theorem Run.exists_result {sinks : Sinks} {world : σ}
    (h : Run s (.start n modules sinks world) calls p) (hquiet : ∀ a, p.step s a = none) :
    ∃ result, p.result? = some result := by
  have hstopped : ∀ w ∈ p.workers, w.isStopped = true := by
    intro w hw
    obtain ⟨i, hi⟩ := List.mem_iff_getElem?.1 hw
    have hnone := hquiet (.worker i)
    simp only [step, work, hi] at hnone
    split at hnone
    · rename_i hstep
      rw [Worker.step_eq_none_iff.1 hstep]
      rfl
    · cases hnone
  have hsenders : p.shared.channel.senders = 0 := by
    rw [h.crew.senders, List.countP_eq_zero]
    intro w hw
    rw [hstopped w hw]
    decide
  have hsupervisor := hquiet .supervisor
  -- Without senders the supervisor can act at every stage but the last.
  simp only [step, supervise] at hsupervisor
  split at hsupervisor
  · split at hsupervisor
    · cases hsupervisor
    · simp only [drain, Channel.receive, hsenders, if_true] at hsupervisor
      split at hsupervisor
      · cases hsupervisor
      · rename_i hreceive
        split at hreceive <;> cases hreceive
      · cases hsupervisor
  · cases hsupervisor
  · split at hsupervisor <;> cases hsupervisor
  · rw [if_pos (List.all_eq_true.2 hstopped)] at hsupervisor
    cases hsupervisor
  · rename_i result hs
    exact ⟨result, by rw [result?, hs]; rfl⟩

end Pool

end TraceGen
