import TraceGen.Pool.Supervisor

/-!
# The actions of a pool, one by one

`Pool.step` says what an actor does next. Here the same is said by rules, with one rule for each
thing that can happen: `Worker.Action` for a worker and `Pool.Supervised` for the supervisor.
`Worker.step_eq_some_iff` and `Pool.supervise_eq_some_iff` show that the rules say exactly what the
functions do, so that every invariant of a run is proved by cases on a rule and opens no function
again.

The rules of a worker carry the calls of the collector that the action makes. A call is recorded as
a `Collection`: who made it, for which module, and the answer.
-/

namespace TraceGen

/-- A call of the collector. -/
structure Collection where
  /-- The number of the worker that made it. -/
  worker : Nat
  /-- The module whose data was asked for. -/
  subject : LoadedModule
  /-- The answer. -/
  answer : Collected

/-- What the worker reports after a call. -/
def Collection.envelope (keyFilter : Option NameFilter) (c : Collection) : Envelope :=
  .ofCollected keyFilter (Pool.workerId c.worker) c.subject.name c.answer

/-- What the worker reports after a call, with the module that it accounts for. -/
def Collection.parcel (keyFilter : Option NameFilter) (c : Collection) : Parcel :=
  ⟨some c.subject, c.envelope keyFilter⟩

namespace WorkerSetup

variable {σ : Type}

/-- The call that worker `i` makes for the module `m` in a world. -/
def call (s : WorkerSetup σ) (i : Nat) (m : LoadedModule) (world : σ) : Collection :=
  ⟨i, m, (s.collector m (Worker.policyOf s (Pool.workerId i)) none defaultModelId world).1⟩

/-- The world after the call that worker `i` makes for the module `m`. -/
def worldAfter (s : WorkerSetup σ) (i : Nat) (m : LoadedModule) (world : σ) : σ :=
  (s.collector m (Worker.policyOf s (Pool.workerId i)) none defaultModelId world).2

end WorkerSetup

namespace Phase

/-- The module that has been taken and whose data has not been collected yet. -/
def uncollected? : Phase → Option LoadedModule
  | .holding m => some m
  | _ => none

/-- The parcel that is about to be put. -/
def parcel? : Phase → Option Parcel
  | .delivering m e => some ⟨some m, e⟩
  | .reporting e => some ⟨none, .fatal (.policy e)⟩
  | _ => none

/-- The module that a worker holds: taken, and not yet accounted for by a parcel that was put. -/
def held? : Phase → Option LoadedModule
  | .holding m => some m
  | .delivering m _ => some m
  | _ => none

end Phase

namespace Worker

variable {σ : Type}

/-- What worker `i` can do: from a phase and what the workers share, with the calls that it makes,
to the next phase and what they share then. -/
inductive Action (s : WorkerSetup σ) (i : Nat) :
    Phase → Shared σ → List Collection → Phase → Shared σ → Prop where
  /-- The policy is there. -/
  | ready {policy : Option Policy} {sh : Shared σ} (h : s.policy (Pool.workerId i) = .ok policy) :
    Action s i .starting sh [] .idle sh
  /-- The policy cannot be loaded. -/
  | unready {e : PolicyError} {sh : Shared σ} (h : s.policy (Pool.workerId i) = .error e) :
    Action s i .starting sh [] (.reporting e) sh
  /-- No module is left. -/
  | exhaust {sh : Shared σ} (h : sh.queue = []) :
    Action s i .idle sh [] .stopped { sh with channel := sh.channel.dropSender }
  /-- The first module of the queue is taken. -/
  | take {m : LoadedModule} {queue : List LoadedModule} {sh : Shared σ}
      (h : sh.queue = m :: queue) :
    Action s i .idle sh [] (.holding m) { sh with queue := queue }
  /-- The collector is called. -/
  | collect {m : LoadedModule} {sh : Shared σ} :
    Action s i (.holding m) sh [s.call i m sh.world]
      (.delivering m ((s.call i m sh.world).envelope s.keyFilter))
      { sh with world := s.worldAfter i m sh.world }
  /-- A parcel cannot be put because nobody receives it. -/
  | refuse {phase : Phase} {parcel : Parcel} {sh : Shared σ} (hp : phase.parcel? = some parcel)
      (hl : sh.channel.isListening = false) :
    Action s i phase sh [] .stopped
      { sh with refused := sh.refused ++ [parcel], channel := sh.channel.dropSender }
  /-- A parcel that reports a fault is put. -/
  | fault {phase : Phase} {parcel : Parcel} {sh : Shared σ} (hp : phase.parcel? = some parcel)
      (hl : sh.channel.isListening = true) (hf : parcel.envelope.isFatal = true) :
    Action s i phase sh [] .stopped
      { sh with channel :=
        ({ sh.channel with items := sh.channel.items ++ [parcel] } : Channel Parcel).dropSender }
  /-- Any other parcel is put. -/
  | deliver {phase : Phase} {parcel : Parcel} {sh : Shared σ} (hp : phase.parcel? = some parcel)
      (hl : sh.channel.isListening = true) (hf : parcel.envelope.isFatal = false) :
    Action s i phase sh [] .idle
      { sh with channel := { sh.channel with items := sh.channel.items ++ [parcel] } }

variable {s : WorkerSetup σ} {i : Nat}

/-- Putting a parcel is one of the last three rules. -/
theorem action_of_deliver {phase : Phase} {parcel : Parcel} (hp : phase.parcel? = some parcel)
    (sh : Shared σ) : Action s i phase sh [] (deliver parcel sh).1 (deliver parcel sh).2 := by
  unfold deliver Channel.put?
  by_cases hl : sh.channel.isListening = true
  · rw [if_pos hl]
    by_cases hf : parcel.envelope.isFatal = true
    · simp only [hf, if_true]
      exact .fault hp hl hf
    · rw [Bool.not_eq_true] at hf
      simp only [hf, Bool.false_eq_true, if_false]
      exact .deliver hp hl hf
  · rw [if_neg hl]
    rw [Bool.not_eq_true] at hl
    exact .refuse hp hl

/-- A parcel that is about to be put is put by the next action. -/
theorem step_of_parcel {id : String} {phase : Phase} {parcel : Parcel}
    (hp : phase.parcel? = some parcel) (sh : Shared σ) :
    step s id phase sh = some (deliver parcel sh) := by
  cases phase <;> simp only [Phase.parcel?, reduceCtorEq, Option.some.injEq] at hp <;>
    subst hp <;> rfl

/-- A worker that acts has not stopped. -/
theorem Action.isStopped_eq {phase phase' : Phase} {sh sh' : Shared σ} {calls : List Collection}
    (h : Action s i phase sh calls phase' sh') : phase.isStopped = false := by
  cases h with
  | ready | unready | exhaust | take | collect => rfl
  | refuse hp | fault hp | deliver hp =>
    cases phase with
    | stopped => cases hp
    | starting | idle | holding m | delivering m e | reporting e => rfl

/-- A worker is a sender until it stops. -/
theorem Action.senders_eq {phase phase' : Phase} {sh sh' : Shared σ} {calls : List Collection}
    (h : Action s i phase sh calls phase' sh') :
    sh'.channel.senders = sh.channel.senders - (if phase'.isStopped then 1 else 0) := by
  cases h <;> rfl

/-- The rules say exactly what a worker does. -/
theorem step_eq_some_iff {phase phase' : Phase} {sh sh' : Shared σ} :
    step s (Pool.workerId i) phase sh = some (phase', sh') ↔
      ∃ calls, Action s i phase sh calls phase' sh' := by
  constructor
  · intro h
    cases phase with
    | starting =>
      simp only [step] at h
      split at h
      · rename_i policy hpolicy
        cases h
        exact ⟨[], .ready hpolicy⟩
      · rename_i e he
        cases h
        exact ⟨[], .unready he⟩
    | idle =>
      simp only [step] at h
      split at h
      · rename_i hq
        cases h
        exact ⟨[], .exhaust hq⟩
      · rename_i m queue hq
        cases h
        exact ⟨[], .take hq⟩
    | holding m =>
      cases h
      exact ⟨_, .collect⟩
    | delivering m e =>
      have hd : Action s i (.delivering m e) sh [] _ _ := action_of_deliver rfl sh
      rw [Option.some.inj h] at hd
      exact ⟨[], hd⟩
    | reporting e =>
      have hd : Action s i (.reporting e) sh [] _ _ := action_of_deliver rfl sh
      rw [Option.some.inj h] at hd
      exact ⟨[], hd⟩
    | stopped => cases h
  · rintro ⟨calls, h⟩
    cases h with
    | ready h => simp only [step, h]
    | unready h => simp only [step, h]
    | exhaust h => simp only [step, h, stop]
    | take h => simp only [step, h]
    | collect => rfl
    | refuse hp hl => simp [step_of_parcel hp, deliver, Channel.put?, hl, stop]
    | fault hp hl hf => simp [step_of_parcel hp, deliver, Channel.put?, hl, hf, stop]
    | deliver hp hl hf => simp [step_of_parcel hp, deliver, Channel.put?, hl, hf]

end Worker

namespace Pool

variable {σ : Type}

/-- The pool after the supervisor has taken the first parcel off the channel. -/
def received (p : Pool σ) (parcel : Parcel) (rest : List Parcel) : Pool σ :=
  { p with
    shared := { p.shared with channel := { p.shared.channel with items := rest } }
    drained := p.drained ++ [parcel] }

/-- What the supervisor can do. -/
inductive Supervised (p : Pool σ) : Pool σ → Prop where
  /-- Every module has been accounted for. -/
  | complete {summary : Summary} (hs : p.supervision = .draining summary.work summary) :
    Supervised p { p with supervision := .finalizing summary, state := .finalizing }
  /-- A parcel is received and acted on. -/
  | receive {n : Nat} {summary : Summary} {parcel : Parcel} {rest : List Parcel}
      (hs : p.supervision = .draining n summary) (hn : n ≠ summary.work)
      (hi : p.shared.channel.items = parcel :: rest) :
    Supervised p ((p.received parcel rest).integrate n summary parcel.envelope)
  /-- Nothing can come any more. -/
  | strand {n : Nat} {summary : Summary} (hs : p.supervision = .draining n summary)
      (hn : n ≠ summary.work) (hi : p.shared.channel.items = [])
      (hc : p.shared.channel.senders = 0) :
    Supervised p (p.abort (.resultsClosed n summary.work))
  /-- The run is given up. -/
  | giveUp {e : PoolError} (hs : p.supervision = .aborting e) :
    Supervised p ({ p with sinks := p.sinks.close.2 }.finish (.error e))
  /-- An output cannot be closed. -/
  | spoil {summary : Summary} {e : SinkError} (hs : p.supervision = .finalizing summary)
      (hc : p.sinks.close.1 = .error e) :
    Supervised p ({ p with sinks := p.sinks.close.2 }.finish (.error (.sink e)))
  /-- The outputs are closed. -/
  | close {summary : Summary} (hs : p.supervision = .finalizing summary)
      (hc : p.sinks.close.1 = .ok ()) :
    Supervised p { p with sinks := p.sinks.close.2, supervision := .joining summary }
  /-- All workers have stopped. -/
  | join {summary : Summary} (hs : p.supervision = .joining summary)
      (hw : p.workers.all Phase.isStopped = true) :
    Supervised p (p.finish (.ok summary))

/-- The rules say exactly what the supervisor does. -/
theorem supervise_eq_some_iff {p q : Pool σ} : p.supervise = some q ↔ Supervised p q := by
  constructor
  · intro h
    unfold supervise at h
    split at h
    · rename_i n summary hs
      split at h
      · rename_i hn
        cases h
        exact .complete (hn ▸ hs)
      · rename_i hn
        unfold drain Channel.receive at h
        cases hi : p.shared.channel.items with
        | nil =>
          simp only [hi] at h
          by_cases hc : p.shared.channel.senders = 0
          · simp only [hc, if_true, Option.some.injEq] at h
            exact h ▸ .strand hs hn hi hc
          · simp only [hc, if_false, reduceCtorEq] at h
        | cons parcel rest =>
          simp only [hi, Option.some.injEq] at h
          exact h ▸ .receive hs hn hi
    · rename_i e hs
      cases h
      exact .giveUp hs
    · rename_i summary hs
      split at h
      · rename_i e sinks hc
        cases h
        have := Supervised.spoil hs (congrArg Prod.fst hc)
        rwa [hc] at this
      · rename_i sinks hc
        cases h
        have := Supervised.close hs (congrArg Prod.fst hc)
        rwa [hc] at this
    · rename_i summary hs
      split at h
      · rename_i hw
        cases h
        exact .join hs hw
      · cases h
    · cases h
  · intro h
    cases h with
    | complete hs => simp [supervise, hs]
    | receive hs hn hi => simp [supervise, hs, hn, drain, Channel.receive, hi, received]
    | strand hs hn hi hc => simp [supervise, hs, hn, drain, Channel.receive, hi, hc]
    | giveUp hs => simp [supervise, hs]
    | spoil hs hc =>
      rcases hclose : p.sinks.close with ⟨result, sinks⟩
      rw [hclose] at hc
      subst hc
      simp [supervise, hs, hclose]
    | close hs hc =>
      rcases hclose : p.sinks.close with ⟨result, sinks⟩
      rw [hclose] at hc
      subst hc
      simp [supervise, hs, hclose]
    | join hs hw => simp [supervise, hs, hw]

/-! ## Acting on an envelope -/

section Integrate

variable (p : Pool σ) (n : Nat) (summary : Summary) (e : Envelope)

/-- Acting on an envelope leaves alone what the workers share. -/
@[simp] theorem integrate_shared : (p.integrate n summary e).shared = p.shared := by
  cases e with
  | fatal | failure => rfl
  | success outcome =>
    simp only [integrate]
    split <;> rfl

/-- Acting on an envelope leaves the workers alone. -/
@[simp] theorem integrate_workers : (p.integrate n summary e).workers = p.workers := by
  cases e with
  | fatal | failure => rfl
  | success outcome =>
    simp only [integrate]
    split <;> rfl

/-- Acting on an envelope receives nothing further. -/
@[simp] theorem integrate_drained : (p.integrate n summary e).drained = p.drained := by
  cases e with
  | fatal | failure => rfl
  | success outcome =>
    simp only [integrate]
    split <;> rfl

/-- A run does not end while an envelope is acted on. -/
@[simp] theorem integrate_result? : (p.integrate n summary e).result? = none := by
  cases e with
  | fatal | failure => rfl
  | success outcome =>
    simp only [integrate]
    split <;> rfl

end Integrate

/-! ## The actions of a pool -/

/-- The calls of the collector that the next action of an actor makes. -/
def callsOf (s : WorkerSetup σ) (p : Pool σ) : Actor → List Collection
  | .supervisor => []
  | .worker i =>
    match p.workers[i]? with
    | some (.holding m) => [s.call i m p.shared.world]
    | _ => []

/-- What can happen in a pool, with the calls that are made. -/
inductive Step (s : WorkerSetup σ) (p : Pool σ) : List Collection → Pool σ → Prop where
  /-- A worker acts. -/
  | work {i : Nat} {phase phase' : Phase} {sh' : Shared σ} {calls : List Collection}
      (hi : p.workers[i]? = some phase) (ha : Worker.Action s i phase p.shared calls phase' sh') :
    Step s p calls { p with workers := p.workers.set i phase', shared := sh' }
  /-- The supervisor acts. -/
  | supervise {q : Pool σ} (hq : Supervised p q) : Step s p [] q

/-- The calls that a rule carries are those that the phase of the worker calls for. -/
theorem callsOf_eq {s : WorkerSetup σ} {p : Pool σ} {i : Nat} {phase phase' : Phase}
    {sh' : Shared σ} {calls : List Collection} (hi : p.workers[i]? = some phase)
    (ha : Worker.Action s i phase p.shared calls phase' sh') : p.callsOf s (.worker i) = calls := by
  cases ha with
  | ready | unready | exhaust | take | collect => simp only [callsOf, hi]
  | refuse hp hl | fault hp hl hf | deliver hp hl hf =>
    cases phase <;> simp only [Phase.parcel?, reduceCtorEq] at hp <;> simp only [callsOf, hi]

/-- A worker that acts goes by a rule, with the calls that its phase calls for. -/
theorem exists_action_of_step {s : WorkerSetup σ} {p q : Pool σ} {i : Nat}
    (h : p.step s (.worker i) = some q) :
    ∃ phase phase' sh', p.workers[i]? = some phase ∧
      Worker.Action s i phase p.shared (p.callsOf s (.worker i)) phase' sh' ∧
      q = { p with workers := p.workers.set i phase', shared := sh' } := by
  simp only [step, work] at h
  split at h
  · cases h
  · rename_i phase hi
    split at h
    · cases h
    · rename_i phase' sh' hstep
      cases h
      obtain ⟨calls, ha⟩ := Worker.step_eq_some_iff.1 hstep
      rw [callsOf_eq hi ha]
      exact ⟨phase, phase', sh', hi, ha, rfl⟩

/-- The rules say exactly what the actors of a pool do. -/
theorem step_iff {s : WorkerSetup σ} {p q : Pool σ} {calls : List Collection} :
    Step s p calls q ↔ ∃ a, p.step s a = some q ∧ p.callsOf s a = calls := by
  constructor
  · intro h
    cases h with
    | supervise hq => exact ⟨.supervisor, supervise_eq_some_iff.2 hq, rfl⟩
    | @work i phase phase' sh' calls hi ha =>
      refine ⟨.worker i, ?_, callsOf_eq hi ha⟩
      simp only [step, work, hi, Worker.step_eq_some_iff.2 ⟨calls, ha⟩]
  · rintro ⟨a, hq, rfl⟩
    cases a with
    | supervisor => exact .supervise (supervise_eq_some_iff.1 hq)
    | worker i =>
      obtain ⟨phase, phase', sh', hi, ha, rfl⟩ := exists_action_of_step hq
      exact .work hi ha

end Pool

end TraceGen
