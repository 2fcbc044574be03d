import TraceGen.Proofs.Pool.Supervision

/-!
# No module is lost and none is collected twice

`Pool.modules_conserved` is the balance of a run. At any time every module of the run is in one
place: in the queue, held by a worker, or accounted for by a parcel that was put. A run that ends
well has received one envelope for each module, and its summary counts the calls of the collector by
how they came out.

The balance at the end (`Ledger.settled`) is a matter of lengths. There are at most as many calls as
modules and at most as many parcels with a module as calls; a supervisor who has received as many
parcels as there are modules leaves no room for anything else.
-/

namespace TraceGen

namespace Pool

variable {σ : Type} {s : WorkerSetup σ} {p q : Pool σ} {calls : List Collection} {n : Nat}
  {modules : List LoadedModule}

/-- What workers hold is what they have not collected yet and what they are about to account for. -/
theorem held_perm (p : Pool σ) :
    p.held.Perm
      (p.uncollected ++ (p.workers.filterMap Phase.parcel?).filterMap (·.origin)) := by
  unfold held uncollected
  induction p.workers with
  | nil => exact .refl _
  | cons w workers ih =>
    cases w with
    | starting | idle | reporting | stopped =>
      simpa [Phase.held?, Phase.uncollected?, Phase.parcel?]
    | holding m => simpa [Phase.held?, Phase.uncollected?, Phase.parcel?]
    | delivering m e =>
      simp only [List.filterMap_cons, Phase.held?, Phase.uncollected?, Phase.parcel?]
      exact (ih.cons m).trans List.perm_middle.symm

/-- Each call accounts for its module. -/
theorem filterMap_origin_map_parcel (keyFilter : Option NameFilter) (calls : List Collection) :
    (calls.map (·.parcel keyFilter)).filterMap (·.origin) = calls.map (·.subject) := by
  rw [List.filterMap_map]
  exact congrFun List.filterMap_eq_map' calls

/-- The modules of parcels are those of the parcels that have one. -/
theorem filterMap_origin_filter (parcels : List Parcel) :
    (parcels.filter (·.origin.isSome)).filterMap (·.origin) = parcels.filterMap (·.origin) := by
  rw [List.filterMap_filter]
  refine List.filterMap_congr fun parcel _ => ?_
  cases parcel.origin <;> rfl

/-- Every module is in the queue, held by a worker, or accounted for by a parcel that was put. -/
theorem Ledger.places (h : Ledger s modules calls p) :
    modules.Perm (p.shared.queue ++ p.held ++ p.sent.filterMap (·.origin)) := by
  have hcalls := h.called.filterMap (·.origin)
  rw [filterMap_origin_map_parcel, filterMap_origin_filter, parcels,
    List.filterMap_append] at hcalls
  have htaken := h.taken.trans (hcalls.symm.append_left (p.shared.queue ++ p.uncollected))
  refine htaken.trans ?_
  rw [← List.append_assoc, List.append_assoc p.shared.queue]
  exact ((held_perm p).symm.append_left _).append_right _

/-- With a policy that is absent or that every worker loads every parcel accounts for a module. -/
theorem Ledger.origin_isSome_of_policy (h : Ledger s modules calls p)
    (hpolicy : ∀ i < p.workers.length, ∃ policy, s.policy (workerId i) = .ok policy) :
    ∀ parcel ∈ p.parcels, parcel.origin.isSome = true := by
  intro parcel hmem
  cases ho : parcel.origin with
  | some m => rfl
  | none =>
    obtain ⟨i, hi, e, he, -⟩ := h.orphaned parcel hmem ho
    obtain ⟨policy, hload⟩ := hpolicy i hi
    cases hload.symm.trans he

/-- When the supervisor has received as many envelopes as there are modules, each for a module,
these are the envelopes of all calls, and every module has had its call. -/
theorem Ledger.settled (h : Ledger s modules calls p) (hlen : p.drained.length = modules.length)
    (horigin : ∀ parcel ∈ p.drained, parcel.origin.isSome = true) :
    p.parcels.filter (·.origin.isSome) = p.drained ∧
      p.drained.Perm (calls.map (·.parcel s.keyFilter)) ∧
      (calls.map (·.subject)).Perm modules := by
  -- There are no more parcels with a module than calls and no more calls than modules, while the
  -- received ones alone are as many as the modules: each of these is an equality.
  have hcalls := h.called.length_eq
  have htaken := h.taken.length_eq
  rw [List.length_append, List.length_append, List.length_map] at htaken
  rw [List.length_map] at hcalls
  have hdrained : p.drained = p.parcels.filter (·.origin.isSome) := by
    have hfilter := (drained_sublist_parcels p).filter (·.origin.isSome)
    rw [List.filter_eq_self.2 horigin] at hfilter
    exact hfilter.eq_of_length_le (by omega)
  refine ⟨hdrained.symm, hdrained ▸ h.called, ?_⟩
  have hempty : p.shared.queue ++ p.uncollected = [] := by
    rw [← List.length_eq_zero_iff, List.length_append]
    rw [← hdrained] at hcalls
    omega
  have htaken := h.taken
  rw [hempty, List.nil_append] at htaken
  exact htaken.symm

/-- The books of a run with `modules` and `calls` that has ended well. -/
structure Settled (s : WorkerSetup σ) (modules : List LoadedModule) (calls : List Collection)
    (p : Pool σ) (summary : Summary) : Prop where
  /-- As many parcels were received as there are modules. -/
  complete : p.drained.length = modules.length
  /-- None of them reports a fault. -/
  harmless : ∀ parcel ∈ p.drained, parcel.envelope.isFatal = false
  /-- No other parcel accounts for a module. -/
  exhaustive : p.parcels.filter (·.origin.isSome) = p.drained
  /-- They are those of the calls. -/
  drained : p.drained.Perm (calls.map (·.parcel s.keyFilter))
  /-- Every module has had its call. -/
  subjects : (calls.map (·.subject)).Perm modules
  /-- The number of modules is in the summary. -/
  work : summary.work = modules.length
  /-- So is the number of those that gave data. -/
  successful : summary.successful = p.envelopes.countP Envelope.isSuccess
  /-- So is the number of those that failed. -/
  failed : summary.failed = p.envelopes.countP Envelope.isFailure

/-- A run that ends well has received an envelope of each call and one for each module, none of
which reports a fault. -/
theorem Run.settled {sinks : Sinks} {world : σ} {summary : Summary}
    (h : Run s (.start n modules sinks world) calls p) (hn : 0 < n)
    (hr : p.result? = some (.ok summary)) : Settled s modules calls p summary := by
  obtain ⟨hrun, hlen⟩ := h.run_eq hn hr
  obtain ⟨sinks', htake⟩ := Sequential.exists_takeAll_of_run hrun
  have hfatal := not_fatal_of_takeAll htake
  obtain ⟨-, hwork, hsuccessful, hfailed⟩ := Sequential.takeAll_ok htake
  obtain ⟨hexhaustive, hdrained, hsubjects⟩ :=
    h.ledger.settled (hlen summary rfl) (h.ledger.origin_isSome_of_drained hfatal)
  exact ⟨hlen summary rfl, hfatal, hexhaustive, hdrained, hsubjects, hwork, hsuccessful, hfailed⟩

/-- The envelopes received can be counted over the calls. -/
theorem countP_envelopes (hd : p.drained.Perm (calls.map (·.parcel s.keyFilter)))
    (f : Envelope → Bool) :
    p.envelopes.countP f = calls.countP fun c => f (c.envelope s.keyFilter) := by
  rw [envelopes, (hd.map _).countP_eq f, List.map_map, List.countP_map]
  rfl

/-- The modules of a run, in any order of actions of any number of workers. At any time each is in
exactly one place, every parcel that was put accounts for one of them, and none has had more calls
than it stands in the list. The calls are those that the collector answered on the way to the
present world. When the run has ended well, as many parcels were received as there are modules, each
module has had its call, and the summary counts the calls by how they came out. Each worker loads a
policy at its start, which may differ from that of another worker, or there is none. -/
theorem modules_conserved (hpolicy : ∀ i < n, ∃ policy, s.policy (workerId i) = .ok policy)
    (hn : 0 < n) {sinks : Sinks} {world : σ} (h : Run s (.start n modules sinks world) calls p) :
    modules.Perm (p.shared.queue ++ p.held ++ p.sent.filterMap (·.origin)) ∧
      (∀ parcel ∈ p.sent, parcel.origin.isSome = true) ∧
      modules.Perm (p.shared.queue ++ p.uncollected ++ calls.map (·.subject)) ∧
      p.parcels.Perm (calls.map (·.parcel s.keyFilter)) ∧
      s.Answered world calls p.shared.world ∧
      ∀ summary, p.result? = some (.ok summary) →
        p.drained.length = summary.work ∧ summary.work = modules.length ∧
          (calls.map (·.subject)).Perm modules ∧
          summary.successful = calls.countP (fun c => (c.envelope s.keyFilter).isSuccess) ∧
          summary.failed = calls.countP (fun c => (c.envelope s.keyFilter).isFailure) ∧
          summary.successful + summary.failed = summary.work := by
  have horigin := h.ledger.origin_isSome_of_policy (by rwa [h.crew.size])
  have hparcels := h.ledger.called
  rw [List.filter_eq_self.2 horigin] at hparcels
  refine ⟨h.ledger.places, fun parcel hmem => horigin parcel (List.mem_append_right _ hmem),
    h.ledger.taken, hparcels, h.answered, fun summary hr => ?_⟩
  have hend := h.settled hn hr
  have hharmless : ∀ e ∈ p.envelopes, e.isFatal = false := by
    intro e he
    obtain ⟨parcel, hmem, rfl⟩ := List.mem_map.1 he
    exact hend.harmless parcel hmem
  refine ⟨hend.complete.trans hend.work.symm, hend.work, hend.subjects, ?_, ?_, ?_⟩
  · rw [hend.successful, countP_envelopes hend.drained]
  · rw [hend.failed, countP_envelopes hend.drained]
  · rw [hend.successful, hend.failed, hend.work, ← hend.complete,
      Envelope.countP_add_countP hharmless, envelopes, List.length_map]

/-- Two workers and three modules of which one fails: the first worker takes two of them. -/
theorem modules_conserved_of_two_workers :
    ∃ calls p, Run (Sample.setup (.ok none)) (.start 2 Sample.modules .absent ()) calls p ∧
      p.result? = some (.ok ⟨2, 1, 3, 0⟩) ∧ (calls.map (·.subject)).Perm Sample.modules ∧
      calls.countP (fun c => (c.envelope none).isSuccess) = 2 := by
  obtain ⟨calls, p, hplay, hr⟩ : ∃ calls p,
      (Pool.start 2 Sample.modules .absent ()).play (Sample.setup (.ok none)) Sample.schedule =
        some (calls, p) ∧ p.result? = some (.ok ⟨2, 1, 3, 0⟩) := ⟨_, _, rfl, rfl⟩
  have hrun := run_iff_exists_play.2 ⟨Sample.schedule, hplay⟩
  obtain ⟨-, -, -, -, -, hend⟩ :=
    modules_conserved (s := Sample.setup (.ok none)) (fun _ _ => ⟨none, rfl⟩) (by decide) hrun
  obtain ⟨-, -, hsubjects, hsuccessful, -, -⟩ := hend _ hr
  exact ⟨calls, p, hrun, hr, hsubjects, hsuccessful.symm⟩

end Pool

end TraceGen
