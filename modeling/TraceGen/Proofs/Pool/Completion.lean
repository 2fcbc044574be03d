import TraceGen.Proofs.Pool.Faults

/-!
# Every run comes to its end

`Pool.never_stranded` says that a supervisor who waits for an envelope does not wait in vain: an
envelope is in the channel, or a worker has not stopped and can act. As every action takes weight
away, a run is finite, and as somebody can act until the supervisor has ended the run, every run
that is carried on has an end.

A supervisor waits in vain only when all senders are gone. `Run.senders_ne_zero` excludes this by
the books: `Ledger.not_stranded` says that without senders each module has been accounted for, and
then the supervisor does not wait.
-/

namespace TraceGen

namespace Pool

variable {σ : Type} {s : WorkerSetup σ} {p : Pool σ} {calls : List Collection} {n : Nat}
  {modules : List LoadedModule} {sinks : Sinks} {world : σ}

/-! ## Somebody can act -/

/-- A worker that has not stopped can act. -/
theorem exists_step_of_awake {i : Nat} {phase : Phase} (hi : p.workers[i]? = some phase)
    (hawake : phase.isStopped = false) : ∃ q, p.step s (.worker i) = some q := by
  cases hstep : Worker.step s (workerId i) phase p.shared with
  | none =>
    rw [Worker.step_eq_none_iff.1 hstep] at hawake
    cases hawake
  | some next =>
    refine ⟨{ p with workers := p.workers.set i next.1, shared := next.2 }, ?_⟩
    simp only [step, work, hi, hstep]

/-- While there are senders some worker has not stopped. -/
theorem Crew.exists_awake (h : Crew n p) (hs : p.shared.channel.senders ≠ 0) :
    ∃ (i : Nat) (phase : Phase), p.workers[i]? = some phase ∧ phase.isStopped = false := by
  have hpos : 0 < p.workers.countP fun w => !w.isStopped := by
    rw [← h.senders]
    exact Nat.pos_of_ne_zero hs
  obtain ⟨w, hw, hawake⟩ := List.countP_pos_iff.1 hpos
  obtain ⟨i, hi⟩ := List.mem_iff_getElem?.1 hw
  exact ⟨i, w, hi, by simpa using hawake⟩

/-- A supervisor who waits while no envelope is on its way can still be sent one. -/
theorem Run.senders_ne_zero (h : Run s (.start n modules sinks world) calls p) (hn : 0 < n)
    {k : Nat} {summary : Summary} (hs : p.supervision = .draining k summary)
    (hk : k ≠ summary.work) (hi : p.shared.channel.items = []) :
    p.shared.channel.senders ≠ 0 := by
  intro hsenders
  have hopen : p.result? = none := by
    rw [result?, hs]
    rfl
  cases h.follows hn with
  | draining hs' hd =>
    -- Without senders every module is accounted for, so that there is nothing left to wait for.
    obtain ⟨rfl, rfl⟩ := Supervision.draining.inj (hs.symm.trans hs')
    have hall : p.drained.length = modules.length :=
      h.ledger.not_stranded h.crew hn hopen hi hsenders (not_fatal_of_takeAll hd)
    have hwork : summary.work = modules.length := (Sequential.takeAll_ok hd).2.1
    exact hk (hall.trans hwork.symm)
  | aborting hs' | finalizing hs' | joining hs' | finished hs' => cases hs.symm.trans hs'

/-- While the supervisor waits an envelope is there, or a worker can act. -/
theorem Run.exists_worker_of_waiting (h : Run s (.start n modules sinks world) calls p)
    (hn : 0 < n) {k : Nat} {summary : Summary} (hs : p.supervision = .draining k summary)
    (hk : k ≠ summary.work) :
    p.shared.channel.items ≠ [] ∨
      ∃ i phase q, p.workers[i]? = some phase ∧ phase.isStopped = false ∧
        p.step s (.worker i) = some q := by
  by_cases hi : p.shared.channel.items = []
  · right
    have hsenders := h.senders_ne_zero hn hs hk hi
    obtain ⟨i, phase, hphase, hawake⟩ := h.crew.exists_awake hsenders
    obtain ⟨q, hq⟩ := exists_step_of_awake (s := s) hphase hawake
    exact ⟨i, phase, q, hphase, hawake, hq⟩
  · left
    exact hi

/-- The supervisor never gives up because nobody can send. -/
theorem Run.ne_resultsClosed (h : Run s (.start n modules sinks world) calls p) (hn : 0 < n)
    (received expected : Nat) :
    p.supervision ≠ .aborting (.resultsClosed received expected) ∧
      p.result? ≠ some (.error (.resultsClosed received expected)) := by
  constructor
  · intro hs
    cases h.follows hn with
    | aborting hs' hd =>
      cases hs.symm.trans hs'
      rcases Sequential.foldlM_take_error hd with ⟨fault, hcause, -⟩ | ⟨e, hcause⟩ <;> cases hcause
    | draining hs' | finalizing hs' | joining hs' | finished hs' => cases hs.symm.trans hs'
  · intro hr
    rcases h.cause hn hr with ⟨fault, hcause, -⟩ | ⟨e, hcause⟩ <;> cases hcause

/-! ## The length of a run -/

/-- What a run weighs at its start. -/
theorem weight_start (n : Nat) (modules : List LoadedModule) (sinks : Sinks) (world : σ) :
    (Pool.start n modules sinks world).weight = 4 * modules.length + 3 * n + 3 := by
  have hworkers : (List.replicate n Phase.starting).foldr (·.weight + ·) 0 = 3 * n := by
    induction n with
    | zero => rfl
    | succ n ih =>
      rw [List.replicate_succ, List.foldr_cons, ih, Phase.weight]
      omega
  have hshared : (Pool.start n modules sinks world).shared.weight = 4 * modules.length := rfl
  have hsupervision : (Pool.start n modules sinks world).supervision.weight = 3 := rfl
  rw [weight, hshared, hsupervision]
  exact congrArg (4 * modules.length + · + 3) hworkers

/-- There are no more calls than modules. -/
theorem Ledger.length_calls_le (h : Ledger s modules calls p) : calls.length ≤ modules.length := by
  have hlen := h.taken.length_eq
  rw [List.length_append, List.length_map] at hlen
  omega

/-! ## The end of a run -/

/-- The supervisor and the workers can act, and nobody else. -/
theorem step_eq_none_of_next? (h : p.next? s = none) (a : Actor) : p.step s a = none := by
  have hall : ∀ a ∈ p.actors, p.step s a = none := List.findSome?_eq_none_iff.1 h
  cases a with
  | supervisor => exact hall _ List.mem_cons_self
  | worker i =>
    by_cases hi : i < p.workers.length
    · refine hall _ (List.mem_cons_of_mem _ ?_)
      exact List.mem_map_of_mem (List.mem_range.2 hi)
    · have hnone : p.workers[i]? = none := List.getElem?_eq_none (Nat.le_of_not_lt hi)
      show p.work s i = none
      rw [work, hnone]

/-- Letting the actors act until nobody can is a run. -/
theorem exists_run (s : WorkerSetup σ) (p : Pool σ) :
    ∃ calls, Run s p calls (p.run s) ∧ ∀ a, (p.run s).step s a = none := by
  fun_induction run s p with
  | case1 p hnone => exact ⟨[], .start, step_eq_none_of_next? hnone⟩
  | case2 p q hnext ih =>
    obtain ⟨calls, hrun, hquiet⟩ := ih
    obtain ⟨a, -, ha⟩ := List.exists_of_findSome?_eq_some hnext
    exact ⟨_, (Run.next .start ha).trans hrun, hquiet⟩

/-- A run of as many workers as are resolved from a request, in any order of actions, with any
policy and any collector, whose calls answer or break down. Whenever the supervisor waits for an
envelope, one is in the channel or a worker has not stopped and can act, so that the run is never
given up because nobody can send. A run has a bounded number of actions and at most one call for
each module, somebody can act until it has ended, and then its stage says whether it ended well. -/
theorem never_stranded (requested : Option Nat) (available : Nat)
    (h : Run s (.start (workerCount requested available) modules sinks world) calls p) :
    (∀ k summary, p.supervision = .draining k summary → k ≠ summary.work →
      p.shared.channel.items ≠ [] ∨
        ∃ i phase q, p.workers[i]? = some phase ∧ phase.isStopped = false ∧
          p.step s (.worker i) = some q) ∧
    (∀ received expected, p.supervision ≠ .aborting (.resultsClosed received expected) ∧
      p.result? ≠ some (.error (.resultsClosed received expected))) ∧
    (∀ actors last,
      (Pool.start (workerCount requested available) modules sinks world).play s actors =
        some last →
      actors.length ≤ 4 * modules.length + 3 * workerCount requested available + 3) ∧
    calls.length ≤ modules.length ∧
    (p.result? = none → ∃ a q, p.step s a = some q) ∧
    ∀ result, p.result? = some result →
      (p.state = .done ↔ ∃ summary, result = .ok summary) ∧
      (p.state = .aborted ↔ ∃ cause, result = .error cause) := by
  have hn : 0 < workerCount requested available := workerCount_pos requested available
  refine ⟨fun k summary hs hk => h.exists_worker_of_waiting hn hs hk,
    fun received expected => h.ne_resultsClosed hn received expected,
    fun actors last hplay => ?_, h.ledger.length_calls_le, fun hopen => ?_,
    fun result hr => h.state_of_result? hr⟩
  · have hle := length_le_weight_of_play hplay
    rw [weight_start] at hle
    omega
  · by_contra hquiet
    have hnone (a : Actor) : p.step s a = none :=
      Option.eq_none_iff_forall_not_mem.2 fun q hq => hquiet ⟨a, q, hq⟩
    obtain ⟨result, hr⟩ := h.exists_result hnone
    rw [hopen] at hr
    cases hr

/-- Two workers and three modules, when the supervisor has received one envelope, no other one is on
its way, and the workers hold the modules that are left. -/
theorem never_stranded_between_envelopes :
    ∃ calls p, Run (Sample.setup (.ok none))
        (.start (workerCount (some 2) 4) Sample.modules .absent ()) calls p ∧
      p.supervision = .draining 1 ⟨0, 1, 3, 0⟩ ∧ p.shared.channel.items = [] ∧
      (∃ i phase q, p.workers[i]? = some phase ∧ phase.isStopped = false ∧
        p.step (Sample.setup (.ok none)) (.worker i) = some q) ∧
      calls.length ≤ 3 := by
  obtain ⟨calls, p, hplay, hs, hi⟩ : ∃ calls p,
      (Pool.start (workerCount (some 2) 4) Sample.modules .absent ()).play
        (Sample.setup (.ok none)) (Sample.schedule.take 8) = some (calls, p) ∧
      p.supervision = .draining 1 ⟨0, 1, 3, 0⟩ ∧ p.shared.channel.items = [] :=
    ⟨_, _, rfl, rfl, rfl⟩
  have hrun := run_iff_exists_play.2 ⟨_, hplay⟩
  obtain ⟨hwaiting, -, -, hcalls, -, -⟩ := never_stranded (some 2) 4 hrun
  rcases hwaiting 1 _ hs (by decide) with hitems | hworker
  · exact absurd hi hitems
  · exact ⟨calls, p, hrun, hs, hi, hworker, hcalls⟩

end Pool

end TraceGen
