import TraceGen.Proofs.Pool.Completion

/-!
# Workers that the supervisor has left

When a run has ended the supervisor receives nothing more, and the workers that have not stopped yet
learn this only from the parcel that they put next. `Pool.stragglers_stop` says what they still do:
each makes at most one call of the collector, and its next parcel is refused, which stops it.

What a worker has left to do is counted by its phase (`Phase.remaining`, `Phase.callsLeft`), and
each of its actions counts down while nobody receives (`Worker.Action.countdown`). As nobody else
acts on its phase, the counts bound every order of actions (`Left.play`).

The bound on all calls of a run comes from the ledger. Each call has its parcel, and a parcel that
was not accepted belongs to a worker that has not stopped, as it is about to be put, or to one that
has stopped, as it was refused.
-/

namespace TraceGen

namespace Phase

/-- An upper bound on the actions of a worker while nobody receives. -/
def remaining : Phase → Nat
  | .starting => 4
  | .idle => 3
  | .holding _ => 2
  | .delivering _ _ => 1
  | .reporting _ => 1
  | .stopped => 0

/-- An upper bound on the calls of a worker while nobody receives. -/
def callsLeft : Phase → Nat
  | .starting => 1
  | .idle => 1
  | .holding _ => 1
  | .delivering _ _ => 0
  | .reporting _ => 0
  | .stopped => 0

/-- Whether a worker has to report a fault or has stopped. -/
def isLast : Phase → Bool
  | .delivering _ e => e.isFatal
  | .reporting _ => true
  | .stopped => true
  | .starting | .idle | .holding _ => false

/-- A worker acts four times more at most. -/
theorem remaining_le (phase : Phase) : phase.remaining ≤ 4 := by
  cases phase <;> simp [remaining]

/-- A worker calls the collector once more at most. -/
theorem callsLeft_le (phase : Phase) : phase.callsLeft ≤ 1 := by
  cases phase <;> simp [callsLeft]

/-- A worker that calls nobody any more has one action left. -/
theorem remaining_of_callsLeft {phase : Phase} (h : phase.callsLeft = 0) : phase.remaining ≤ 1 := by
  cases phase with
  | starting | idle | holding => cases h
  | delivering | reporting | stopped => simp [remaining]

/-- A worker without actions has stopped. -/
theorem eq_stopped_of_remaining {phase : Phase} (h : phase.remaining = 0) : phase = .stopped := by
  cases phase with
  | starting | idle | holding | delivering | reporting => cases h
  | stopped => rfl

/-- A worker that is about to put a parcel has done everything else. -/
theorem countdown_of_parcel {phase : Phase} {parcel : Parcel} (hp : phase.parcel? = some parcel) :
    phase.remaining = 1 ∧ phase.callsLeft = 0 := by
  cases phase with
  | starting | idle | holding | stopped => cases hp
  | delivering | reporting => exact ⟨rfl, rfl⟩

/-- The last thing that a worker does is to report a fault. -/
theorem isFatal_of_isLast {phase : Phase} {parcel : Parcel} (h : phase.isLast = true)
    (hp : phase.parcel? = some parcel) : parcel.envelope.isFatal = true := by
  cases phase with
  | starting | idle | holding | stopped => cases hp
  | delivering m e =>
    cases hp
    exact h
  | reporting e =>
    cases hp
    rfl

end Phase

namespace Worker

variable {σ : Type} {s : WorkerSetup σ} {i : Nat} {phase phase' : Phase} {sh sh' : Shared σ}
  {calls : List Collection}

/-- While nobody receives, a worker counts down its actions and its calls, and puts nothing. -/
theorem Action.countdown (h : Action s i phase sh calls phase' sh')
    (hl : sh.channel.isListening = false) :
    phase'.remaining < phase.remaining ∧ calls.length + phase'.callsLeft ≤ phase.callsLeft ∧
      sh'.channel.items = sh.channel.items ∧ sh'.channel.isListening = false := by
  cases h with
  | ready | unready | exhaust | take | collect =>
    exact ⟨by simp [Phase.remaining], by simp [Phase.callsLeft], rfl, hl⟩
  | refuse hp =>
    obtain ⟨hremaining, hcalls⟩ := Phase.countdown_of_parcel hp
    exact ⟨by rw [hremaining]; decide, by rw [hcalls]; decide, rfl, hl⟩
  | fault hp hl' | deliver hp hl' =>
    rw [hl] at hl'
    cases hl'

/-- All calls that an action makes are made by its worker. -/
theorem Action.worker_eq (h : Action s i phase sh calls phase' sh') :
    ∀ c ∈ calls, c.worker = i := by
  cases h with
  | ready | unready | exhaust | take | refuse | fault | deliver => exact fun _ => nofun
  | collect => exact fun c hc => by rw [List.mem_singleton.1 hc]; rfl

/-- A worker that has to report a fault does this and stops. -/
theorem Action.of_isLast (h : Action s i phase sh calls phase' sh') (hlast : phase.isLast = true) :
    calls = [] ∧ phase' = .stopped := by
  cases h with
  | ready | unready | exhaust | take | collect => cases hlast
  | refuse | fault => exact ⟨rfl, rfl⟩
  | deliver hp hl hf =>
    rw [Phase.isFatal_of_isLast hlast hp] at hf
    cases hf

end Worker

namespace Pool

variable {σ : Type} {s : WorkerSetup σ} {p q : Pool σ} {calls more : List Collection}
  {actors : List Actor} {n : Nat} {modules : List LoadedModule} {sinks : Sinks} {world : σ}

/-- What the worker with a number is about to do. -/
def phaseOf (p : Pool σ) (i : Nat) : Phase :=
  p.workers[i]?.getD .stopped

/-- The parcels that were put into the channel. -/
def accepted (p : Pool σ) : List Parcel :=
  p.shared.channel.items ++ p.drained

/-- A worker that acts changes its own phase. -/
theorem phaseOf_set {i : Nat} {phase : Phase} (phase' : Phase) (sh' : Shared σ)
    (hi : p.workers[i]? = some phase) (j : Nat) :
    phaseOf { p with workers := p.workers.set i phase', shared := sh' } j =
      if i = j then phase' else p.phaseOf j := by
  obtain ⟨hlt, -⟩ := List.getElem?_eq_some_iff.1 hi
  unfold phaseOf
  rw [List.getElem?_set, if_pos hlt]
  split <;> rfl

/-! ## Counting down -/

/-- The supervisor has ended the run, and nobody receives. -/
structure Left (p : Pool σ) : Prop where
  /-- Nothing can be put into the channel. -/
  listening : p.shared.channel.isListening = false
  /-- The supervisor does not act any more. -/
  finished : ∃ result, p.supervision = .finished result

/-- The supervisor hangs up when it ends the run. -/
theorem Crew.left (h : Crew n p) (hl : p.shared.channel.isListening = false) : Left p := by
  refine ⟨hl, ?_⟩
  have hclosed := h.listening.symm.trans hl
  unfold result? Supervision.result? at hclosed
  split at hclosed
  · exact ⟨_, ‹_›⟩
  · cases hclosed

/-- What an action changes once the supervisor has left. -/
theorem Left.step {a : Actor} (h : Left p) (hq : p.step s a = some q) :
    Left q ∧ q.accepted = p.accepted ∧ ∀ i,
      (q.phaseOf i).remaining + [a].count (.worker i) ≤ (p.phaseOf i).remaining ∧
      (p.callsOf s a).countP (·.worker = i) + (q.phaseOf i).callsLeft ≤
        (p.phaseOf i).callsLeft := by
  obtain ⟨result, hfinished⟩ := h.finished
  cases a with
  | supervisor =>
    simp only [Pool.step, supervise, hfinished, reduceCtorEq] at hq
  | worker j =>
    obtain ⟨phase, phase', sh', hj, ha, rfl⟩ := exists_action_of_step hq
    obtain ⟨hremaining, hcalls, hitems, hlistening⟩ := ha.countdown h.listening
    refine ⟨⟨hlistening, result, hfinished⟩, by rw [accepted, hitems]; rfl, fun i => ?_⟩
    rw [phaseOf_set phase' sh' hj]
    by_cases hij : j = i
    · subst hij
      have hphase : p.phaseOf j = phase := by rw [phaseOf, hj]; rfl
      have hcount := List.countP_le_length (p := (·.worker = j)) (l := p.callsOf s (.worker j))
      rw [if_pos rfl, hphase, List.count_singleton_self]
      omega
    · have hnone : (p.callsOf s (.worker j)).countP (·.worker = i) = 0 := by
        refine List.countP_eq_zero.2 fun c hc => ?_
        rw [ha.worker_eq c hc]
        exact fun heq => hij (of_decide_eq_true heq)
      rw [if_neg hij, hnone, List.count_singleton, if_neg (by simpa using hij)]
      omega

/-- What a run changes once the supervisor has left. -/
theorem Left.play (h : Left p) (hplay : p.play s actors = some (calls, q)) :
    Left q ∧ q.accepted = p.accepted ∧ ∀ i,
      (q.phaseOf i).remaining + actors.count (.worker i) ≤ (p.phaseOf i).remaining ∧
      calls.countP (·.worker = i) + (q.phaseOf i).callsLeft ≤ (p.phaseOf i).callsLeft := by
  induction actors generalizing p calls with
  | nil =>
    cases hplay
    exact ⟨h, rfl, fun i => ⟨Nat.le_refl _, Nat.le_of_eq (Nat.zero_add _)⟩⟩
  | cons a actors ih =>
    obtain ⟨t, later, ha, hrest, rfl⟩ := play_cons_eq_some_iff.1 hplay
    obtain ⟨hleft, haccepted, hfirst⟩ := h.step ha
    obtain ⟨hleft, haccepted', hlater⟩ := ih hleft hrest
    refine ⟨hleft, haccepted'.trans haccepted, fun i => ?_⟩
    have hfirst := hfirst i
    have hlater := hlater i
    rw [← List.singleton_append, List.count_append, List.countP_append]
    omega

/-! ## Faults are final -/

/-- Workers whose calls broke down make no calls any more. -/
structure Final (s : WorkerSetup σ) (calls : List Collection) (p : Pool σ) : Prop where
  /-- They have made none. -/
  pairwise : calls.Pairwise fun c later =>
    (c.envelope s.keyFilter).isFatal = true → later.worker ≠ c.worker
  /-- They will make none. -/
  last : ∀ c ∈ calls, (c.envelope s.keyFilter).isFatal = true →
    (p.phaseOf c.worker).isLast = true

/-- Every action keeps faults final. -/
theorem Final.step (h : Final s calls p) (hs : Step s p more q) : Final s (calls ++ more) q := by
  cases hs with
  | supervise hq =>
    rw [List.append_nil]
    refine ⟨h.pairwise, fun c hc hfatal => ?_⟩
    rw [phaseOf, hq.parcels_perm.2.1]
    exact h.last c hc hfatal
  | @work i phase phase' sh' more hi ha =>
    have hphase : p.phaseOf i = phase := by rw [phaseOf, hi]; rfl
    -- A worker with a fault stops, so that all of them are still at their end.
    have hlast : ∀ c ∈ calls, (c.envelope s.keyFilter).isFatal = true →
        (phaseOf { p with workers := p.workers.set i phase', shared := sh' } c.worker).isLast =
          true := by
      intro c hc hfatal
      have hc := h.last c hc hfatal
      rw [phaseOf_set phase' sh' hi]
      split
      · rename_i hworker
        rw [← hworker, hphase] at hc
        rw [(ha.of_isLast hc).2]
        rfl
      · exact hc
    cases ha with
    | ready | unready | exhaust | take | refuse | fault | deliver =>
      rw [List.append_nil]
      exact ⟨h.pairwise, hlast⟩
    | @collect m =>
      refine ⟨List.pairwise_append.2 ⟨h.pairwise, List.pairwise_singleton _ _, ?_⟩, ?_⟩
      · intro c hc later hlater hfatal heq
        have hc := h.last c hc hfatal
        rw [← heq, List.mem_singleton.1 hlater] at hc
        rw [show p.phaseOf (s.call i m p.shared.world).worker = _ from hphase] at hc
        cases hc
      · intro c hc hfatal
        rcases List.mem_append.1 hc with hc | hc
        · exact hlast c hc hfatal
        · rw [List.mem_singleton.1 hc] at hfatal ⊢
          have hself := phaseOf_set
            (.delivering m ((s.call i m p.shared.world).envelope s.keyFilter))
            { p.shared with world := s.worldAfter i m p.shared.world } hi i
          rw [if_pos rfl] at hself
          exact (congrArg Phase.isLast hself).trans hfatal

/-- Every run keeps faults final. -/
theorem Run.final (h : Run s (.start n modules sinks world) calls p) : Final s calls p :=
  h.invariant (I := Final s) ⟨.nil, fun _ => nofun⟩ Final.step

/-! ## The number of calls -/

/-- Each refused parcel has stopped its worker. -/
theorem Step.refused_le (h : Step s p calls q)
    (hle : p.shared.refused.length + p.workers.countP (fun w => !w.isStopped) ≤ n) :
    q.shared.refused.length + q.workers.countP (fun w => !w.isStopped) ≤ n := by
  cases h with
  | supervise hq =>
    have hrefused : q.shared.refused = p.shared.refused := by
      cases hq with
      | complete | strand | giveUp | spoil | close | join => rfl
      | receive =>
        rw [integrate_shared]
        rfl
    rwa [hq.parcels_perm.2.1, hrefused]
  | @work i phase phase' sh' calls hi ha =>
    have hcount := countP_set_awake phase' hi ha.isStopped_eq
    have hawake : (p.workers.set i phase').countP (fun w => !w.isStopped) ≤
        p.workers.countP (fun w => !w.isStopped) := by
      have hone : (if phase'.isStopped then 0 else 1) ≤ 1 := by split <;> decide
      omega
    cases ha with
    | @refuse _ parcel =>
      have hstops : (p.workers.set i .stopped).countP (fun w => !w.isStopped) + 1 =
          p.workers.countP (fun w => !w.isStopped) := hcount
      show (p.shared.refused ++ [parcel]).length +
        (p.workers.set i .stopped).countP (fun w => !w.isStopped) ≤ n
      rw [List.length_append, List.length_singleton]
      omega
    | ready | unready | exhaust | take | collect | fault | deliver =>
      exact Nat.le_trans (Nat.add_le_add_left hawake _) hle

/-- Each refused parcel has stopped its worker. -/
theorem Run.refused_le (h : Run s (.start n modules sinks world) calls p) :
    p.shared.refused.length + p.workers.countP (fun w => !w.isStopped) ≤ n := by
  refine h.invariant (I := fun _ p => p.shared.refused.length +
    p.workers.countP (fun w => !w.isStopped) ≤ n) ?_ fun hle hs => hs.refused_le hle
  show 0 + (List.replicate n Phase.starting).countP _ ≤ n
  rw [Nat.zero_add]
  exact Nat.le_trans List.countP_le_length (Nat.le_of_eq List.length_replicate)

/-- A parcel that is about to be put has a worker that has not stopped. -/
theorem length_pending_le (workers : List Phase) :
    (workers.filterMap Phase.parcel?).length ≤ workers.countP (fun w => !w.isStopped) := by
  rw [List.length_filterMap_eq_countP]
  refine List.countP_mono_left fun phase _ hparcel => ?_
  cases phase with
  | starting | idle | holding | delivering | reporting => rfl
  | stopped => cases hparcel

/-- There are no more calls than parcels that were accepted and workers. -/
theorem Run.length_calls_le_accepted (h : Run s (.start n modules sinks world) calls p) :
    calls.length ≤ p.accepted.length + n := by
  have hpending := length_pending_le p.workers
  have hrefused := h.refused_le
  calc calls.length = (p.parcels.filter (·.origin.isSome)).length := by
        rw [h.ledger.called.length_eq, List.length_map]
    _ ≤ p.parcels.length := List.length_filter_le _ _
    _ = (p.workers.filterMap Phase.parcel?).length + p.accepted.length +
        p.shared.refused.length := by
        rw [parcels, sent, accepted, List.length_append, List.length_append, Nat.add_assoc]
    _ ≤ p.accepted.length + n := by omega

/-! ## The end of the workers -/

/-- What was popped from the queue are the modules that workers hold uncollected and those that
were collected. All others are in the queue. -/
theorem Ledger.exists_popped (h : Ledger s modules calls p) :
    ∃ popped, modules = popped ++ p.shared.queue ∧
      popped.Perm (p.uncollected ++ calls.map (·.subject)) := by
  obtain ⟨popped, rfl⟩ := h.queued
  refine ⟨popped, rfl, ?_⟩
  have htaken := h.taken
  rw [List.append_assoc] at htaken
  exact (List.perm_append_left_iff _).1 (List.perm_append_comm.trans htaken)

/-- Workers stop soon after the supervisor has dropped the receiver, in any order of actions of any
number of workers, wherever each of them is at that time. From then on nothing is put into the
channel, and each worker makes at most one call of the collector. After that call its next action
stops it. It acts four times at most and can act unless it has stopped, so that it does stop. A
worker whose call broke down, and so has to report a fault, never makes a call after that one, and
no worker makes one without its policy. The modules that were not popped are in the queue, in
order; those that were popped have had their call or are held by a worker. All in all there are at
most as many calls as envelopes that the channel accepted and workers. -/
theorem stragglers_stop (h : Run s (.start n modules sinks world) calls p)
    (hdropped : p.shared.channel.isListening = false)
    (hlater : p.play s actors = some (more, q)) :
    q.accepted = p.accepted ∧
    (∀ i, more.countP (·.worker = i) ≤ 1 ∧ actors.count (.worker i) ≤ 4) ∧
    (∀ c ∈ more, ∀ r, q.step s (.worker c.worker) = some r → r.phaseOf c.worker = .stopped) ∧
    (∀ i, q.phaseOf i = .stopped ∨ ∃ r, q.step s (.worker i) = some r) ∧
    ((calls ++ more).Pairwise fun c later =>
      (c.envelope s.keyFilter).isFatal = true → later.worker ≠ c.worker) ∧
    (∀ c ∈ calls ++ more, ∃ policy, s.policy (workerId c.worker) = .ok policy) ∧
    (∃ popped, modules = popped ++ q.shared.queue ∧
      popped.Perm (q.uncollected ++ (calls ++ more).map (·.subject))) ∧
    (calls ++ more).length ≤ q.accepted.length + n := by
  have hrun := h.trans (run_iff_exists_play.2 ⟨actors, hlater⟩)
  obtain ⟨hleft, haccepted, hcount⟩ := (h.crew.left hdropped).play hlater
  refine ⟨haccepted, fun i => ?_, fun c hc r hr => ?_, fun i => ?_, hrun.final.pairwise,
    fun c hc => (hrun.ledger.equipped c hc).2, hrun.ledger.exists_popped,
    hrun.length_calls_le_accepted⟩
  · have hcalls := (p.phaseOf i).callsLeft_le
    have hactions := (p.phaseOf i).remaining_le
    have hcount := hcount i
    omega
  · -- The call was the only one that the worker had left.
    obtain ⟨-, hcalls⟩ := hcount c.worker
    have hone := (p.phaseOf c.worker).callsLeft_le
    have hpos : 0 < more.countP (·.worker = c.worker) :=
      List.countP_pos_iff.2 ⟨c, hc, decide_eq_true rfl⟩
    have hnone : (q.phaseOf c.worker).callsLeft = 0 := by omega
    have hlast := Phase.remaining_of_callsLeft hnone
    obtain ⟨-, -, hnext⟩ := hleft.step hr
    obtain ⟨hless, -⟩ := hnext c.worker
    rw [List.count_singleton_self] at hless
    exact Phase.eq_stopped_of_remaining (by omega)
  · cases hi : q.workers[i]? with
    | none =>
      left
      rw [phaseOf, hi]
      rfl
    | some phase =>
      cases hawake : phase.isStopped with
      | true =>
        left
        rw [phaseOf, hi]
        exact eq_stopped_of_isStopped hawake
      | false => exact .inr (exists_step_of_awake hi hawake)

/-- Two workers and three modules of which the first breaks the collector down. The run is aborted
while the second worker has not begun: it makes one call, whose parcel is refused, and the third
module stays in the queue. -/
theorem stragglers_stop_of_late_worker :
    ∃ calls more p q,
      Run (Sample.setup (.ok none))
        (.start 2 [Sample.loaded "a" [0, 0], Sample.loaded "b" [], Sample.loaded "c" []] .absent ())
        calls p ∧
      p.shared.channel.isListening = false ∧
      p.play (Sample.setup (.ok none)) (List.replicate 4 (.worker 1)) = some (more, q) ∧
      more.length = 1 ∧ q.shared.queue = [Sample.loaded "c" []] ∧ q.phaseOf 1 = .stopped ∧
      more.countP (·.worker = 1) ≤ 1 ∧ (calls ++ more).length ≤ q.accepted.length + 2 := by
  let modules := [Sample.loaded "a" [0, 0], Sample.loaded "b" [], Sample.loaded "c" []]
  let schedule : List Actor := List.replicate 4 (.worker 0) ++ [.supervisor, .supervisor]
  obtain ⟨calls, more, p, q, hplay, hdropped, hlater, hmore, hqueue, hstopped⟩ :
      ∃ calls more p q,
        (Pool.start 2 modules .absent ()).play (Sample.setup (.ok none)) schedule =
          some (calls, p) ∧
        p.shared.channel.isListening = false ∧
        p.play (Sample.setup (.ok none)) (List.replicate 4 (.worker 1)) = some (more, q) ∧
        more.length = 1 ∧ q.shared.queue = [Sample.loaded "c" []] ∧ q.phaseOf 1 = .stopped :=
    ⟨_, _, _, _, rfl, rfl, rfl, rfl, rfl, rfl⟩
  have hrun := run_iff_exists_play.2 ⟨schedule, hplay⟩
  obtain ⟨-, hcount, -, -, -, -, -, hlength⟩ := stragglers_stop hrun hdropped hlater
  exact ⟨calls, more, p, q, hrun, hdropped, hlater, hmore, hqueue, hstopped, (hcount 1).1, hlength⟩

end Pool

end TraceGen
