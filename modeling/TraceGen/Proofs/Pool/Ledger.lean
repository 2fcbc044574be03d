import Mathlib.Data.List.Perm.Subperm
import TraceGen.Proofs.Pool.Run

/-!
# What becomes of the modules of a run

Every module that a pool is started with is in the queue, or was taken by a worker that has not
called the collector for it yet, or has had its call; and every call has its parcel, which some
worker is about to put or which was put. `Pool.Ledger` is this bookkeeping, `Run.ledger` shows that
each run keeps it. A parcel without a module reports a policy that cannot be loaded, and a worker
that cannot load its policy makes no calls.

The bookkeeping is a matter of multiplicities: `Step.queue_perm` and `Step.parcels_perm` say what
one action adds and moves, and lists that are equal up to order are compared by counting.
-/

namespace TraceGen

/-- Replacing an element replaces what it contributes to a filtered list. -/
theorem List.perm_filterMap_set {α β : Type} (f : α → Option β) {l : List α} {i : Nat} {a : α}
    (b : α) (h : l[i]? = some a) :
    ((f a).toList ++ (l.set i b).filterMap f).Perm ((f b).toList ++ l.filterMap f) := by
  induction l generalizing i with
  | nil => simp at h
  | cons c l ih =>
    cases i with
    | zero =>
      simp only [List.getElem?_cons_zero, Option.some.injEq] at h
      subst h
      rw [List.set_cons_zero]
      cases hc : f c <;> cases hb : f b <;> simp [hc, hb, List.Perm.swap]
    | succ i =>
      simp only [List.getElem?_cons_succ] at h
      have hl := ih h
      rw [List.set_cons_succ]
      -- What the head contributes stands before the rest on both sides and can be moved out.
      cases hc : f c with
      | none => simpa [hc] using hl
      | some d =>
        simp only [List.filterMap_cons, hc]
        exact List.perm_middle.trans ((hl.cons d).trans List.perm_middle.symm)

/-- A worker that is about to put a parcel has had its call. -/
theorem Phase.uncollected?_of_parcel {phase : Phase} {parcel : Parcel}
    (hp : phase.parcel? = some parcel) : phase.uncollected? = none := by
  cases phase with
  | holding m => cases hp
  | starting | idle | delivering m e | reporting e | stopped => rfl

/-- A worker holds the module that its parcel accounts for. -/
theorem Phase.held?_of_parcel {phase : Phase} {parcel : Parcel}
    (hp : phase.parcel? = some parcel) : phase.held? = parcel.origin := by
  cases phase <;> cases hp <;> rfl

namespace Pool

variable {σ : Type}

/-- The modules that were taken and whose data has not been collected yet. -/
def uncollected (p : Pool σ) : List LoadedModule :=
  p.workers.filterMap Phase.uncollected?

/-- The modules that workers hold. -/
def held (p : Pool σ) : List LoadedModule :=
  p.workers.filterMap Phase.held?

/-- The parcels that workers have put or tried to put: those in the channel, those that the
supervisor has received and those that nobody received. -/
def sent (p : Pool σ) : List Parcel :=
  p.shared.channel.items ++ p.drained ++ p.shared.refused

/-- All parcels: those that workers are about to put, and those that they sent. -/
def parcels (p : Pool σ) : List Parcel :=
  p.workers.filterMap Phase.parcel? ++ p.sent

/-! ## What one action does -/

variable {s : WorkerSetup σ} {p q : Pool σ} {calls : List Collection}

/-- Acting of the supervisor moves parcels at most. -/
theorem Supervised.parcels_perm (h : Supervised p q) :
    q.shared.queue = p.shared.queue ∧ q.workers = p.workers ∧ q.parcels.Perm p.parcels := by
  cases h with
  | complete | strand | giveUp | spoil | close | join => exact ⟨rfl, rfl, .refl _⟩
  | @receive n summary parcel rest hs hn hi =>
    refine ⟨by rw [integrate_shared]; rfl, by rw [integrate_workers]; rfl, ?_⟩
    unfold parcels sent
    rw [integrate_shared, integrate_workers, integrate_drained, hi]
    simp only [received]
    refine .append_left _ (.append_right _ ?_)
    rw [← List.append_assoc, List.cons_append]
    exact List.perm_append_singleton _ _

/-- An action takes from the queue what it gives to a worker, and what it collects it takes from
those that are not collected. -/
theorem Step.queue_perm (h : Step s p calls q) :
    (p.shared.queue ++ p.uncollected).Perm
      (q.shared.queue ++ q.uncollected ++ calls.map (·.subject)) := by
  cases h with
  | supervise hq =>
    obtain ⟨hqueue, hworkers, -⟩ := hq.parcels_perm
    unfold uncollected
    rw [hqueue, hworkers, List.map_nil, List.append_nil]
  | @work i phase phase' sh' calls hi ha =>
    have hset := List.perm_filterMap_set Phase.uncollected? phase' hi
    -- Only one worker acts, so that counting a module leaves an equation between its two phases.
    refine List.perm_iff_count.2 fun m => ?_
    have hcount := hset.count_eq m
    simp only [uncollected, List.count_append] at hcount ⊢
    cases ha with
    | ready | unready | exhaust =>
      simp only [Phase.uncollected?, Option.toList_none, List.count_nil, List.map_nil] at hcount ⊢
      omega
    | take h =>
      simp only [Phase.uncollected?, Option.toList_none, Option.toList_some, List.count_nil,
        List.count_cons, List.map_nil, h] at hcount ⊢
      omega
    | collect =>
      simp only [Phase.uncollected?, Option.toList_none, Option.toList_some, List.count_nil,
        List.count_cons, List.map_cons, List.map_nil, WorkerSetup.call] at hcount ⊢
      omega
    | refuse hp | fault hp | deliver hp =>
      rw [Phase.uncollected?_of_parcel hp] at hcount
      simp only [Phase.uncollected?, Option.toList_none, List.count_nil, List.map_nil] at hcount ⊢
      omega

/-- The queue only loses modules at its front. -/
theorem Step.queue_suffix (h : Step s p calls q) : q.shared.queue <:+ p.shared.queue := by
  cases h with
  | supervise hq => simp only [hq.parcels_perm.1, List.suffix_refl]
  | work hi ha =>
    cases ha with
    | take h => rw [h]; exact List.suffix_cons _ _
    | ready | unready | exhaust | collect | refuse | fault | deliver => exact List.suffix_refl _

/-- An action adds the parcels of its calls and at most the reports of a policy that cannot be
loaded; all other parcels stay, wherever they are then. -/
theorem Step.parcels_perm (h : Step s p calls q) :
    ∃ orphans : List Parcel,
      q.parcels.Perm (p.parcels ++ calls.map (·.parcel s.keyFilter) ++ orphans) ∧
        ∀ o ∈ orphans, ∃ i < p.workers.length, ∃ e, s.policy (workerId i) = .error e ∧
          o = ⟨none, .fatal (.policy e)⟩ := by
  classical
  cases h with
  | supervise hq => exact ⟨[], by simpa using hq.parcels_perm.2.2, by simp⟩
  | @work i phase phase' sh' calls hi ha =>
    have hset := List.perm_filterMap_set Phase.parcel? phase' hi
    -- The parcels of an action, and what it does to the phase of its worker, are counted for each
    -- parcel `x`.
    have counted {orphans : List Parcel} {sh : Shared σ} (x : Parcel)
        (hc : (phase.parcel?.toList ++ (calls.map (·.parcel s.keyFilter) ++ orphans)
            ++ p.sent).count x = (phase'.parcel?.toList
            ++ (sh.channel.items ++ p.drained ++ sh.refused)).count x) :
        (({ p with workers := p.workers.set i phase', shared := sh } : Pool σ).parcels).count x =
          (p.parcels ++ calls.map (·.parcel s.keyFilter) ++ orphans).count x := by
      have hcount := hset.count_eq x
      simp only [parcels, sent, List.count_append] at hcount hc ⊢
      omega
    cases ha with
    | ready h | exhaust h | take h =>
      refine ⟨[], List.perm_iff_count.2 fun x => counted x ?_, by simp⟩
      rfl
    | @unready e _ h =>
      refine ⟨[⟨none, .fatal (.policy e)⟩], List.perm_iff_count.2 fun x => counted x ?_,
        fun o ho => ⟨i, (List.getElem?_eq_some_iff.1 hi).1, e, h, List.mem_singleton.1 ho⟩⟩
      rfl
    | collect =>
      refine ⟨[], List.perm_iff_count.2 fun x => counted x ?_, by simp⟩
      rfl
    | refuse hp | fault hp | deliver hp =>
      refine ⟨[], List.perm_iff_count.2 fun x => counted x ?_, by simp⟩
      rw [hp]
      simp only [sent, Phase.parcel?, Option.toList_some, Option.toList_none, List.map_nil,
        List.count_append, List.count_nil, Channel.dropSender]
      omega

/-- No worker comes or goes. -/
theorem Step.length_workers (h : Step s p calls q) : q.workers.length = p.workers.length := by
  cases h with
  | supervise hq => rw [hq.parcels_perm.2.1]
  | work => exact List.length_set ..

/-- Calls are made by the worker that acts. -/
theorem worker_of_action {i : Nat} {phase phase' : Phase} {sh sh' : Shared σ}
    (h : Worker.Action s i phase sh calls phase' sh') : ∀ c ∈ calls, c.worker = i := by
  cases h with
  | collect => exact List.forall_mem_singleton.2 rfl
  | ready | unready | exhaust | take | refuse | fault | deliver => exact List.forall_mem_nil _

/-- Calls are made by workers of the pool. -/
theorem Step.worker_lt (h : Step s p calls q) : ∀ c ∈ calls, c.worker < p.workers.length := by
  cases h with
  | supervise => exact List.forall_mem_nil _
  | work hi ha =>
    intro c hc
    rw [worker_of_action ha c hc]
    exact (List.getElem?_eq_some_iff.1 hi).1

/-- A worker that cannot load its policy makes no call and comes to no other phase than reporting
that and having stopped. -/
theorem Step.barred (h : Step s p calls q) {i : Nat} {e : PolicyError}
    (he : s.policy (workerId i) = .error e)
    (hp : ∀ w, p.workers[i]? = some w → w = .starting ∨ w = .reporting e ∨ w = .stopped) :
    (∀ c ∈ calls, c.worker ≠ i) ∧
      ∀ w, q.workers[i]? = some w → w = .starting ∨ w = .reporting e ∨ w = .stopped := by
  cases h with
  | supervise hq =>
    rw [hq.parcels_perm.2.1]
    exact ⟨List.forall_mem_nil _, hp⟩
  | @work j phase phase' sh' calls hj ha =>
    by_cases hji : j = i
    · subst hji
      have hphase := hp phase hj
      have hset (hnew : phase' = .starting ∨ phase' = .reporting e ∨ phase' = .stopped) :
          ∀ w, (p.workers.set j phase')[j]? = some w →
            w = .starting ∨ w = .reporting e ∨ w = .stopped := by
        intro w hw
        rw [List.getElem?_set_self (List.getElem?_eq_some_iff.1 hj).1] at hw
        cases hw
        exact hnew
      cases ha with
      | ready h => rw [he] at h; cases h
      | unready h =>
        rw [he] at h
        cases h
        exact ⟨List.forall_mem_nil _, hset (.inr (.inl rfl))⟩
      | exhaust | take | collect => simp at hphase
      | refuse | fault => exact ⟨List.forall_mem_nil _, hset (.inr (.inr rfl))⟩
      | deliver hparcel hl hf =>
        -- The only parcel of a worker without its policy reports a fault.
        rcases hphase with rfl | rfl | rfl
        · cases hparcel
        · cases hparcel
          cases hf
        · cases hparcel
    · refine ⟨fun c hc => by rw [worker_of_action ha c hc]; exact hji, fun w hw => hp w ?_⟩
      rwa [List.getElem?_set_ne hji] at hw

/-! ## The ledger -/

/-- The books of a run that was started with `modules` and has made `calls`. -/
structure Ledger (s : WorkerSetup σ) (modules : List LoadedModule) (calls : List Collection)
    (p : Pool σ) : Prop where
  /-- A module is in the queue, or it was taken and has no call yet, or it has had its call. -/
  taken : modules.Perm (p.shared.queue ++ p.uncollected ++ calls.map (·.subject))
  /-- Modules are taken in order. -/
  queued : p.shared.queue <:+ modules
  /-- The parcels that account for a module are those of the calls. -/
  called : (p.parcels.filter (·.origin.isSome)).Perm (calls.map (·.parcel s.keyFilter))
  /-- Every other parcel reports that a worker cannot load its policy. -/
  orphaned : ∀ parcel ∈ p.parcels, parcel.origin = none →
    ∃ i < p.workers.length, ∃ e, s.policy (workerId i) = .error e ∧
      parcel.envelope = .fatal (.policy e)
  /-- Without its policy no worker takes a module. -/
  barred : ∀ i e w, s.policy (workerId i) = .error e → p.workers[i]? = some w →
    w = .starting ∨ w = .reporting e ∨ w = .stopped
  /-- Each call was made by a worker with its policy. -/
  equipped : ∀ c ∈ calls, c.worker < p.workers.length ∧
    ∃ policy, s.policy (workerId c.worker) = .ok policy

/-- At the start all modules are in the queue, and there are neither calls nor parcels. -/
theorem Ledger.start (s : WorkerSetup σ) (n : Nat) (modules : List LoadedModule) (sinks : Sinks)
    (world : σ) : Ledger s modules [] (.start n modules sinks world) := by
  have huncollected : (Pool.start n modules sinks world).uncollected = [] := by
    simp [uncollected, List.filterMap_replicate, Phase.uncollected?]
  have hparcels : (Pool.start n modules sinks world).parcels = [] := by
    simp [parcels, sent, Channel.start, List.filterMap_replicate, Phase.parcel?]
  refine ⟨?_, List.suffix_refl _, ?_, ?_, ?_, List.forall_mem_nil _⟩
  · rw [huncollected]
    simp
  · rw [hparcels]
    simp
  · rw [hparcels]
    simp
  · intro i e w _ hw
    exact .inl (List.mem_replicate.1 (List.mem_of_getElem? hw)).2

/-- Every action keeps the books. -/
theorem Ledger.step {modules : List LoadedModule} {more : List Collection}
    (h : Ledger s modules calls p) (hs : Step s p more q) : Ledger s modules (calls ++ more) q := by
  obtain ⟨orphans, hparcels, horphans⟩ := hs.parcels_perm
  refine ⟨?_, hs.queue_suffix.trans h.queued, ?_, ?_, ?_, ?_⟩
  · rw [List.map_append]
    refine h.taken.trans ((hs.queue_perm.append_right _).trans ?_)
    rw [List.append_assoc]
    exact .append_left _ List.perm_append_comm
  · have hmore : (more.map (·.parcel s.keyFilter)).filter (·.origin.isSome) =
        more.map (·.parcel s.keyFilter) := by
      refine List.filter_eq_self.2 fun parcel hmem => ?_
      obtain ⟨c, -, rfl⟩ := List.mem_map.1 hmem
      rfl
    have hnone : orphans.filter (·.origin.isSome) = [] := by
      refine List.filter_eq_nil_iff.2 fun o ho => ?_
      obtain ⟨i, -, e, -, rfl⟩ := horphans o ho
      simp
    rw [List.map_append]
    refine (hparcels.filter _).trans ?_
    rw [List.filter_append, List.filter_append, hmore, hnone, List.append_nil]
    exact h.called.append_right _
  · intro parcel hmem hnone
    rw [hs.length_workers]
    rcases List.mem_append.1 (hparcels.mem_iff.1 hmem) with hmem | hmem
    · rcases List.mem_append.1 hmem with hmem | hmem
      · exact h.orphaned parcel hmem hnone
      · obtain ⟨c, -, rfl⟩ := List.mem_map.1 hmem
        cases hnone
    · obtain ⟨i, hi, e, he, rfl⟩ := horphans parcel hmem
      exact ⟨i, hi, e, he, rfl⟩
  · exact fun i e w he => (hs.barred he fun w => h.barred i e w he).2 w
  · intro c hc
    rw [hs.length_workers]
    rcases List.mem_append.1 hc with hc | hc
    · exact h.equipped c hc
    · refine ⟨hs.worker_lt c hc, ?_⟩
      cases hpolicy : s.policy (workerId c.worker) with
      | ok policy => exact ⟨policy, rfl⟩
      | error e =>
        exact absurd rfl ((hs.barred hpolicy fun w => h.barred c.worker e w hpolicy).1 c hc)

/-- Every run keeps the books. -/
theorem Run.ledger {n : Nat} {modules : List LoadedModule} {sinks : Sinks} {world : σ}
    (h : Run s (.start n modules sinks world) calls p) : Ledger s modules calls p :=
  h.invariant (I := Ledger s modules) (Ledger.start s n modules sinks world) Ledger.step

/-! ## The crew -/

/-- What holds of the workers of a run with `n` workers while the supervisor receives. -/
structure Crew (n : Nat) (p : Pool σ) : Prop where
  /-- Nobody is lost. -/
  size : p.workers.length = n
  /-- Each worker that has not stopped is a sender. -/
  senders : p.shared.channel.senders = p.workers.countP (fun w => !w.isStopped)
  /-- The supervisor hangs up when the run ends. -/
  listening : p.shared.channel.isListening = p.result?.isNone
  /-- Until then no parcel is refused. -/
  unrefused : p.result? = none → p.shared.refused = []
  /-- Until then a worker stops only when no module is left or after it reported a fault. -/
  stopped : p.result? = none → ∀ w ∈ p.workers, w.isStopped = true →
    p.shared.queue = [] ∨
      ∃ parcel ∈ p.shared.channel.items ++ p.drained, parcel.envelope.isFatal = true

/-- At the start all workers are senders. -/
theorem Crew.start (n : Nat) (modules : List LoadedModule) (sinks : Sinks) (world : σ) :
    Crew n (Pool.start n modules sinks world) := by
  refine ⟨?_, ?_, rfl, fun _ => rfl, ?_⟩
  · simp
  · simp [Channel.start, Phase.isStopped, List.countP_replicate]
  · intro _ w hw hstopped
    rw [(List.mem_replicate.1 hw).2] at hstopped
    cases hstopped

/-- Replacing a worker that has not stopped changes how many have not by the difference. -/
theorem countP_set_awake {workers : List Phase} {i : Nat} {phase : Phase} (phase' : Phase)
    (hi : workers[i]? = some phase) (hp : phase.isStopped = false) :
    (workers.set i phase').countP (fun w => !w.isStopped) + 1 =
      workers.countP (fun w => !w.isStopped) + (if phase'.isStopped then 0 else 1) := by
  obtain ⟨hlt, rfl⟩ := List.getElem?_eq_some_iff.1 hi
  have hpos : 0 < workers.countP (fun w => !w.isStopped) :=
    List.countP_pos_iff.2 ⟨workers[i], List.getElem_mem hlt, by rw [hp]; rfl⟩
  rw [List.countP_set hlt, hp]
  cases phase'.isStopped <;> simp <;> omega

/-- Whatever happens to the workers and to what they share, only the stopping of one needs a
reason. -/
theorem Crew.work {n i : Nat} {phase phase' : Phase} {sh' : Shared σ} (h : Crew n p)
    (hi : p.workers[i]? = some phase) (ha : Worker.Action s i phase p.shared calls phase' sh') :
    Crew n { p with workers := p.workers.set i phase', shared := sh' } := by
  have hcount := countP_set_awake phase' hi ha.isStopped_eq
  have hsenders := h.senders
  -- The workers that had stopped before keep their reason if the queue and the parcels do.
  have hkeep {sh : Shared σ} (hq : p.shared.queue = [] → sh.queue = [])
      (hitems : ∀ parcel ∈ p.shared.channel.items, parcel ∈ sh.channel.items)
      (hr : p.result? = none)
      (hnew : phase'.isStopped = true → sh.queue = [] ∨
        ∃ parcel ∈ sh.channel.items ++ p.drained, parcel.envelope.isFatal = true) :
      ∀ w ∈ p.workers.set i phase', w.isStopped = true → sh.queue = [] ∨
        ∃ parcel ∈ sh.channel.items ++ p.drained, parcel.envelope.isFatal = true := by
    intro w hw hstopped
    rcases List.mem_or_eq_of_mem_set hw with hw | rfl
    · refine (h.stopped hr w hw hstopped).imp hq ?_
      rintro ⟨parcel, hmem, hfatal⟩
      refine ⟨parcel, List.mem_append.2 ((List.mem_append.1 hmem).imp_left (hitems parcel)), hfatal⟩
    · exact hnew hstopped
  refine ⟨(List.length_set ..).trans h.size, ?_, ?_, ?_, ?_⟩
  · show sh'.channel.senders = _
    rw [ha.senders_eq]
    cases hstopped : phase'.isStopped <;>
      simp only [hstopped, Bool.false_eq_true, if_false, if_true] at hcount ⊢ <;> omega
  · cases ha <;> exact h.listening
  · intro hr
    have hopen : p.result? = none := hr
    cases ha with
    | refuse hp hl =>
      rw [h.listening, hopen] at hl
      cases hl
    | ready | unready | exhaust | take | collect | fault | deliver => exact h.unrefused hopen
  · intro hr
    have hopen : p.result? = none := hr
    cases ha with
    | ready | unready | collect => exact hkeep id (fun _ => id) hopen (by rintro ⟨⟩)
    | exhaust hq => exact hkeep id (fun _ => id) hopen fun _ => .inl hq
    | take hq => exact hkeep (by rw [hq]; rintro ⟨⟩) (fun _ => id) hopen (by rintro ⟨⟩)
    | refuse hp hl =>
      rw [h.listening, hopen] at hl
      cases hl
    | @fault _ parcel _ hp hl hf =>
      refine hkeep id (fun _ => List.mem_append_left _) hopen fun _ => .inr ⟨parcel, ?_, hf⟩
      exact List.mem_append_left _ (List.mem_append_right _ (List.mem_singleton_self _))
    | deliver hp hl hf =>
      exact hkeep id (fun _ => List.mem_append_left _) hopen (by rintro ⟨⟩)

/-- The supervisor takes nobody away, and it moves parcels only to those it has received. -/
theorem Crew.supervise {n : Nat} (h : Crew n p) (hq : Supervised p q) : Crew n q := by
  have hworkers := hq.parcels_perm.2.1
  cases hq with
  | complete hs | strand hs | close hs =>
    have hr : p.result? = none := by rw [result?, hs]; rfl
    exact ⟨h.size, h.senders, h.listening.trans (by rw [hr]; rfl), fun _ => h.unrefused hr,
      fun _ => h.stopped hr⟩
  | giveUp | spoil | join =>
    refine ⟨h.size, h.senders, rfl, ?_, ?_⟩ <;>
      · intro hr
        cases hr
  | @receive k summary parcel rest hs hn hi =>
    have hr : p.result? = none := by rw [result?, hs]; rfl
    refine ⟨by rw [hworkers]; exact h.size, ?_, ?_, ?_, ?_⟩
    · rw [hworkers, integrate_shared]
      exact h.senders
    · rw [integrate_shared, integrate_result?]
      exact h.listening.trans (by rw [hr])
    · intro _
      rw [integrate_shared]
      exact h.unrefused hr
    · intro _ w hw hstopped
      rw [hworkers] at hw
      rw [integrate_shared, integrate_drained]
      refine (h.stopped hr w hw hstopped).imp id ?_
      rintro ⟨fatal, hmem, hfatal⟩
      refine ⟨fatal, ?_, hfatal⟩
      rw [hi] at hmem
      simp only [received, List.mem_append, List.mem_cons, List.not_mem_nil, or_false] at hmem ⊢
      tauto

/-- Every action keeps the crew. -/
theorem Crew.step {n : Nat} (h : Crew n p) (hs : Step s p calls q) : Crew n q := by
  cases hs with
  | supervise hq => exact h.supervise hq
  | work hi ha => exact h.work hi ha

/-- Every run keeps the crew. -/
theorem Run.crew {n : Nat} {modules : List LoadedModule} {sinks : Sinks} {world : σ}
    (h : Run s (.start n modules sinks world) calls p) : Crew n p :=
  h.invariant (I := fun _ => Crew n) (Crew.start n modules sinks world) Crew.step

end Pool

end TraceGen
