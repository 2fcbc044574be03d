import TraceGen.Proofs.Pool.Step

/-!
# Runs of a pool in any order of actions

`Pool.Run s p calls q` says that a pool `p` can get to `q` by actions in some order, and that the
calls of the collector on the way were `calls`. A run is an order of actors that can all act when
their turn comes (`run_iff_exists_play`), and its calls are those that changed the world: each has
the answer that the collector gave in the world at that time (`Run.answered`).
-/

namespace TraceGen

variable {σ : Type}

/-- Calls made one after the other from a world on, each with the answer that the collector gives
there, and the world that they lead to. -/
def WorkerSetup.Answered (s : WorkerSetup σ) : σ → List Collection → σ → Prop
  | world, [], last => last = world
  | world, c :: calls, last =>
    c = s.call c.worker c.subject world ∧
      s.Answered (s.worldAfter c.worker c.subject world) calls last

/-- A further call is answered in the world that the calls before it led to. -/
theorem WorkerSetup.answered_snoc {s : WorkerSetup σ} {world last : σ} {calls : List Collection}
    (h : s.Answered world calls last) (i : Nat) (m : LoadedModule) :
    s.Answered world (calls ++ [s.call i m last]) (s.worldAfter i m last) := by
  induction calls generalizing world with
  | nil =>
    rw [Answered] at h
    subst h
    exact ⟨rfl, rfl⟩
  | cons c calls ih => exact ⟨h.1, ih h.2⟩

namespace Pool

/-- The calls of the collector and the pool that a run from `p` comes to. -/
inductive Run (s : WorkerSetup σ) (p : Pool σ) : List Collection → Pool σ → Prop where
  /-- Nobody has acted. -/
  | start : Run s p [] p
  /-- An actor acts. -/
  | next {calls : List Collection} {q r : Pool σ} {a : Actor} (h : Run s p calls q)
      (hr : q.step s a = some r) : Run s p (calls ++ q.callsOf s a) r

/-- Lets actors act in a given order, if they can. -/
def play (s : WorkerSetup σ) : Pool σ → List Actor → Option (List Collection × Pool σ)
  | p, [] => some ([], p)
  | p, a :: actors =>
    match p.step s a with
    | none => none
    | some q => (play s q actors).map fun r => (p.callsOf s a ++ r.1, r.2)

variable {s : WorkerSetup σ} {p q : Pool σ} {calls : List Collection}

/-- A run can be continued. -/
theorem Run.trans {more : List Collection} {r : Pool σ} (h : Run s p calls q)
    (h' : Run s q more r) : Run s p (calls ++ more) r := by
  induction h' with
  | start => rw [List.append_nil]; exact h
  | next _ hr ih =>
    rw [← List.append_assoc]
    exact .next ih hr

/-- An order of actors begins with an action of the first, which leaves the others to go on. -/
theorem play_cons_eq_some_iff {a : Actor} {actors : List Actor} :
    p.play s (a :: actors) = some (calls, q) ↔
      ∃ t later, p.step s a = some t ∧ t.play s actors = some (later, q) ∧
        calls = p.callsOf s a ++ later := by
  rw [play]
  cases p.step s a with
  | none => exact ⟨nofun, fun ⟨_, _, h, _⟩ => nomatch h⟩
  | some t =>
    simp only [Option.map_eq_some_iff, Prod.exists, Prod.mk.injEq, Option.some.injEq]
    constructor
    · rintro ⟨later, _, hplay, rfl, rfl⟩
      exact ⟨t, later, rfl, hplay, rfl⟩
    · rintro ⟨_, later, rfl, hplay, rfl⟩
      exact ⟨later, q, hplay, rfl, rfl⟩

/-- A run that has come to `r` by one more action. -/
theorem play_snoc {a : Actor} {r : Pool σ} {actors : List Actor}
    (h : p.play s actors = some (calls, q)) (hr : q.step s a = some r) :
    p.play s (actors ++ [a]) = some (calls ++ q.callsOf s a, r) := by
  induction actors generalizing p calls with
  | nil =>
    simp only [play, Option.some.injEq, Prod.mk.injEq] at h
    obtain ⟨rfl, rfl⟩ := h
    simp [play, hr]
  | cons b actors ih =>
    obtain ⟨t, later, hb, hplay, rfl⟩ := play_cons_eq_some_iff.1 h
    exact play_cons_eq_some_iff.2
      ⟨t, later ++ q.callsOf s a, hb, ih hplay, List.append_assoc ..⟩

/-- A run is an order of actors in which each can act when its turn comes. -/
theorem run_iff_exists_play :
    Run s p calls q ↔ ∃ actors, p.play s actors = some (calls, q) := by
  -- A run grows at its end and an order of actors at its front, so that each direction is an
  -- induction of its own.
  constructor
  · intro h
    induction h with
    | start => exact ⟨[], rfl⟩
    | @next calls q r a _ hr ih =>
      obtain ⟨actors, hplay⟩ := ih
      exact ⟨actors ++ [a], play_snoc hplay hr⟩
  · rintro ⟨actors, h⟩
    induction actors generalizing p calls with
    | nil =>
      simp only [play, Option.some.injEq, Prod.mk.injEq] at h
      obtain ⟨rfl, rfl⟩ := h
      exact .start
    | cons a actors ih =>
      obtain ⟨t, later, ha, hplay, rfl⟩ := play_cons_eq_some_iff.1 h
      have hfirst : Run s p (p.callsOf s a) t := by simpa using Run.next .start ha
      exact hfirst.trans (ih hplay)

/-- Every run is finite. -/
theorem length_le_weight_of_play {actors : List Actor} (h : p.play s actors = some (calls, q)) :
    actors.length + q.weight ≤ p.weight := by
  induction actors generalizing p calls with
  | nil =>
    simp only [play, Option.some.injEq, Prod.mk.injEq] at h
    obtain ⟨-, rfl⟩ := h
    exact Nat.le_of_eq (Nat.zero_add _)
  | cons a actors ih =>
    obtain ⟨t, later, ha, hplay, rfl⟩ := play_cons_eq_some_iff.1 h
    have hless := weight_step_lt ha
    have hrest := ih hplay
    rw [List.length_cons]
    omega

/-- What holds at the start and is kept by every rule holds in every pool that a run comes to. -/
theorem Run.invariant {I : List Collection → Pool σ → Prop} (h : Run s p calls q)
    (hstart : I [] p)
    (hstep : ∀ {calls more q r}, I calls q → Step s q more r → I (calls ++ more) r) :
    I calls q := by
  induction h with
  | start => exact hstart
  | next _ hr ih => exact hstep ih (step_iff.2 ⟨_, hr, rfl⟩)

/-- The end of a run is final. -/
theorem Step.result?_eq {result : Except PoolError Summary} (h : Step s p calls q)
    (hr : p.result? = some result) : q.result? = some result := by
  have hs : p.supervision = .finished result := by
    unfold result? at hr
    cases hs : p.supervision <;> rw [hs] at hr <;> cases hr
    rfl
  cases h with
  | work => exact hr
  | supervise hq =>
    cases hq with
    | complete hs' | receive hs' | strand hs' | giveUp hs' | spoil hs' | close hs' | join hs' =>
      cases hs.symm.trans hs'

/-- A run that has ended stays as it ended. -/
theorem Run.result?_eq {result : Except PoolError Summary} (h : Run s p calls q)
    (hr : p.result? = some result) : q.result? = some result :=
  h.invariant (I := fun _ q => q.result? = some result) hr fun hq hs => hs.result?_eq hq

/-- The supervisor leaves the world alone. -/
theorem Supervised.world_eq (h : Supervised p q) : q.shared.world = p.shared.world := by
  cases h with
  | complete | strand | giveUp | spoil | close | join => rfl
  | receive => rw [integrate_shared]; rfl

/-- The calls of a run have the answers of the collector and lead from world to world. -/
theorem Run.answered (h : Run s p calls q) :
    s.Answered p.shared.world calls q.shared.world := by
  refine h.invariant (I := fun calls q => s.Answered p.shared.world calls q.shared.world) rfl ?_
  intro calls more q r hq hstep
  cases hstep with
  | supervise hr => rw [List.append_nil, hr.world_eq]; exact hq
  | @work i phase phase' sh' more hi ha =>
    cases ha with
    | collect => exact WorkerSetup.answered_snoc hq i _
    | ready | unready | exhaust | take | refuse | fault | deliver =>
      rw [List.append_nil]
      exact hq

/-! ## The stage of a run -/

/-- The stage at which a run is while the supervisor is about to do something. -/
def stageOf : Supervision → PoolState
  | .draining _ _ => .draining
  | .aborting _ => .aborted
  | .finalizing _ => .finalizing
  | .joining _ => .finalizing
  | .finished (.ok _) => .done
  | .finished (.error _) => .aborted

/-- The supervisor writes down the stage that it comes to. -/
theorem Supervised.state_eq (h : Supervised p q) (hp : p.state = stageOf p.supervision) :
    q.state = stageOf q.supervision := by
  cases h with
  | complete | strand | giveUp | spoil | join => rfl
  | close hs =>
    rw [hs] at hp
    exact hp
  | @receive n summary parcel rest hs =>
    rw [hs] at hp
    cases parcel.envelope with
    | fatal fault => rfl
    | failure => exact hp
    | success outcome =>
      simp only [integrate]
      split
      · rfl
      · exact hp

/-- In every run the stage that is written down is the one at which the supervisor is. -/
theorem Run.state_eq {n : Nat} {modules : List LoadedModule} {sinks : Sinks} {world : σ}
    (h : Run s (.start n modules sinks world) calls p) : p.state = stageOf p.supervision :=
  h.invariant (I := fun _ q => q.state = stageOf q.supervision) rfl fun hq hstep => by
    cases hstep with
    | work => exact hq
    | supervise hr => exact hr.state_eq hq

/-- The stage of a run that has ended says how it ended. -/
theorem Run.state_of_result? {n : Nat} {modules : List LoadedModule} {sinks : Sinks} {world : σ}
    (h : Run s (.start n modules sinks world) calls p) {result : Except PoolError Summary}
    (hr : p.result? = some result) :
    (p.state = .done ↔ ∃ summary, result = .ok summary) ∧
      (p.state = .aborted ↔ ∃ cause, result = .error cause) := by
  have hs : p.supervision = .finished result := by
    unfold result? at hr
    cases hs : p.supervision <;> rw [hs] at hr <;> cases hr
    rfl
  rw [h.state_eq, hs]
  cases result with
  | ok summary => exact ⟨⟨fun _ => ⟨summary, rfl⟩, fun _ => rfl⟩, ⟨nofun, nofun⟩⟩
  | error cause => exact ⟨⟨nofun, nofun⟩, ⟨fun _ => ⟨cause, rfl⟩, fun _ => rfl⟩⟩

/-- A run that is done has ended well. -/
theorem Run.exists_summary_of_done {n : Nat} {modules : List LoadedModule} {sinks : Sinks}
    {world : σ} (h : Run s (.start n modules sinks world) calls p) (hdone : p.state = .done) :
    ∃ summary, p.result? = some (.ok summary) := by
  rw [h.state_eq] at hdone
  unfold result?
  cases hs : p.supervision with
  | finished result =>
    rw [hs] at hdone
    cases result with
    | ok summary => exact ⟨summary, rfl⟩
    | error cause => cases hdone
  | draining | aborting | finalizing | joining =>
    rw [hs] at hdone
    cases hdone

/-! ## A small pool

Statements about fixed runs speak of this pool. Its collector gives a row for a module without
code, fails for one with a byte of code and breaks down for any other. -/

namespace Sample

/-- A module with some bytes of code. -/
def loaded (name : String) (ir : Bytes) : LoadedModule :=
  ⟨name, ir, none, []⟩

/-- The collector. -/
def collector : Collector Unit := fun m _ _ _ world =>
  match m.ir with
  | [] => (.data ⟨[⟨"main", [1, 2], 0, 0⟩], .empty, 0⟩, world)
  | [_] => (.failed (.timeout m.name 1), world)
  | _ => (.panicked none, world)

/-- What the workers are given. -/
def setup (policy : Except PolicyError (Option Policy)) : WorkerSetup Unit :=
  ⟨collector, fun _ => policy, none⟩

/-- Three modules, of which the second fails. -/
def modules : List LoadedModule :=
  [loaded "a" [], loaded "b" [0], loaded "c" []]

/-- An order of actions of two workers and the supervisor over three modules. -/
def schedule : List Actor :=
  [.worker 0, .worker 1, .worker 1, .worker 0, .worker 0, .worker 0, .supervisor, .worker 0,
    .worker 1, .worker 0, .worker 1, .worker 0, .supervisor, .worker 1, .supervisor, .supervisor,
    .worker 0, .supervisor, .supervisor]

end Sample

end Pool

end TraceGen
