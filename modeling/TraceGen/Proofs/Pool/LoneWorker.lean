import TraceGen.Proofs.Pool.Run
import TraceGen.Proofs.Training.MissingBaselines

/-!
# One worker alone

A worker that shares its queue with nobody serves modules one after the other: it has the collector
called for each of them once, and reports on each (`WorkerSetup.parcels`). While somebody receives
its reports, it comes to an end with the first module whose answer stops it
(`Worker.run_idle_fault`), or with the queue (`Worker.run_idle_whole`); without a receiver it
comes to an end with its first module (`Worker.run_idle_unheard`). `Worker.reports_what_it_consumed`
puts this together for every outcome of loading the policy.
-/

namespace TraceGen

/-! ## Answers that stop a worker -/

/-- The answers of the collector that stop a worker under a key filter. -/
inductive Collected.Unrecoverable (keyFilter : Option NameFilter) : Collected → Prop
  /-- The collector gives up for a reason that concerns more than the module. -/
  | failed (e : CompilationError) (h : e.isRecoverable = false) :
      Unrecoverable keyFilter (.failed e)
  /-- The key filter fails on the data. -/
  | unfiltered (f : NameFilter) (d : ModuleData) (e : CompilationError) (hf : keyFilter = some f)
      (h : d.retainKeys f = .error e) : Unrecoverable keyFilter (.data d)
  /-- The collector breaks down. -/
  | panicked (message : Option String) : Unrecoverable keyFilter (.panicked message)

/-- An error of a module stops its worker if it concerns more than the module. -/
theorem Envelope.isFatal_ofError (name : String) (e : CompilationError) :
    (Envelope.ofError name e).isFatal = !e.isRecoverable := by
  unfold ofError
  cases e.isRecoverable <;> rfl

/-- A worker reports a fault exactly on these answers. -/
theorem Envelope.isFatal_ofCollected_iff {keyFilter : Option NameFilter} {id name : String}
    {a : Collected} :
    (Envelope.ofCollected keyFilter id name a).isFatal = true ↔ a.Unrecoverable keyFilter := by
  cases a with
  | data d =>
    cases keyFilter with
    | none => exact ⟨nofun, nofun⟩
    | some f =>
      have hfatal : (Envelope.ofData (some f) name d).isFatal = true ↔
          ∃ e, d.retainKeys f = .error e := ModuleData.isFatal_ofData_iff
      rw [Envelope.ofCollected, hfatal]
      constructor
      · rintro ⟨e, h⟩
        exact .unfiltered f d e rfl h
      · rintro (_ | ⟨f', _, e, hf, h⟩)
        cases hf
        exact ⟨e, h⟩
  | failed e =>
    rw [Envelope.ofCollected, isFatal_ofError, Bool.not_eq_true']
    exact ⟨.failed e, fun h => by cases h; assumption⟩
  | panicked message => exact ⟨fun _ => .panicked message, fun _ => rfl⟩

/-- An envelope that stops a worker reports a fault. -/
theorem Envelope.exists_fault {e : Envelope} (h : e.isFatal = true) :
    ∃ fault, e = .fatal fault := by
  cases e with
  | fatal fault => exact ⟨fault, rfl⟩
  | success | failure => cases h

/-! ## Modules one after the other -/

namespace WorkerSetup

variable {σ : Type} (s : WorkerSetup σ)

/-- What the collector answers the worker `id` for a module in a world. -/
def answer (id : String) (m : LoadedModule) (world : σ) : Collected :=
  (s.collector m (Worker.policyOf s id) none defaultModelId world).1

/-- The world after the collector has answered the worker `id` for a module. -/
def afterAnswer (id : String) (m : LoadedModule) (world : σ) : σ :=
  (s.collector m (Worker.policyOf s id) none defaultModelId world).2

/-- The world after the worker `id` has had the collector called once for each of some modules in
order. -/
def worldAfterAll (id : String) (world : σ) (ms : List LoadedModule) : σ :=
  ms.foldl (fun world m => s.afterAnswer id m world) world

/-- The modules with what the collector answers in these calls. -/
def answers (id : String) : σ → List LoadedModule → List (LoadedModule × Collected)
  | _, [] => []
  | world, m :: ms => (m, s.answer id m world) :: answers id (s.afterAnswer id m world) ms

/-- What the worker `id` reports on a module with an answer. -/
def report (id : String) (a : LoadedModule × Collected) : Parcel :=
  ⟨some a.1, .ofCollected s.keyFilter id a.1.name a.2⟩

/-- What the worker `id` reports on modules one after the other. -/
def reports (id : String) (world : σ) (ms : List LoadedModule) : List Parcel :=
  (s.answers id world ms).map (s.report id)

/-- None of the answers for some modules stops the worker `id`. -/
def Harmless (id : String) (world : σ) (ms : List LoadedModule) : Prop :=
  ∀ a ∈ s.answers id world ms, ¬ a.2.Unrecoverable s.keyFilter

/-- The answer for a module after some others is the first one that stops the worker `id`. -/
def StopsAt (id : String) (world : σ) (before : List LoadedModule) (m : LoadedModule) : Prop :=
  s.Harmless id world before ∧
    (s.answer id m (s.worldAfterAll id world before)).Unrecoverable s.keyFilter

variable {s}

/-- A further module is asked for in the world that the others led to. -/
theorem answers_append (id : String) (world : σ) (ms ms' : List LoadedModule) :
    s.answers id world (ms ++ ms') =
      s.answers id world ms ++ s.answers id (s.worldAfterAll id world ms) ms' := by
  induction ms generalizing world with
  | nil => rfl
  | cons m ms ih => rw [List.cons_append, answers, answers, ih, List.cons_append]; rfl

/-- The report on a further module comes last. -/
theorem reports_snoc (id : String) (world : σ) (ms : List LoadedModule) (m : LoadedModule) :
    s.reports id world (ms ++ [m]) =
      s.reports id world ms ++ [s.report id (m, s.answer id m (s.worldAfterAll id world ms))] := by
  unfold reports
  rw [answers_append, List.map_append]
  rfl

/-- No answer stops a worker, or one is the first that does. -/
theorem harmless_or_stopsAt (s : WorkerSetup σ) (id : String) (world : σ) (ms : List LoadedModule) :
    s.Harmless id world ms ∨
      ∃ before m after, ms = before ++ m :: after ∧ s.StopsAt id world before m := by
  induction ms generalizing world with
  | nil => exact .inl (List.forall_mem_nil _)
  | cons m ms ih =>
    by_cases hm : (s.answer id m world).Unrecoverable s.keyFilter
    · exact .inr ⟨[], m, ms, rfl, List.forall_mem_nil _, hm⟩
    · rcases ih (s.afterAnswer id m world) with hms | ⟨before, m', after, rfl, hbefore, hm'⟩
      · exact .inl (List.forall_mem_cons.2 ⟨hm, hms⟩)
      · exact .inr ⟨m :: before, m', after, rfl, List.forall_mem_cons.2 ⟨hm, hbefore⟩, hm'⟩

/-- Reports on harmless answers report no fault. -/
theorem Harmless.isFatal_reports {id : String} {world : σ} {ms : List LoadedModule}
    (h : s.Harmless id world ms) : ∀ p ∈ s.reports id world ms, p.envelope.isFatal = false := by
  intro p hp
  obtain ⟨a, ha, rfl⟩ := List.mem_map.1 hp
  rw [← Bool.not_eq_true]
  exact mt Envelope.isFatal_ofCollected_iff.1 (h a ha)

end WorkerSetup

namespace Worker

variable {σ : Type} {s : WorkerSetup σ} {id : String} {phase phase' : Phase} {sh sh' : Shared σ}
  {m : LoadedModule} {before after ms : List LoadedModule}

/-! ## What a run of the worker comes to -/

/-- A worker that can act goes on after its action. -/
theorem run_of_step (h : step s id phase sh = some (phase', sh')) :
    run s id phase sh = run s id phase' sh' := by
  rw [run]
  split
  · rename_i hnone
    rw [h] at hnone
    cases hnone
  · rename_i hsome
    rw [h] at hsome
    cases hsome
    rfl

/-- A worker that has stopped leaves everything as it is. -/
theorem run_stopped (s : WorkerSetup σ) (id : String) (sh : Shared σ) :
    run s id .stopped sh = sh := by
  rw [run]
  rfl

/-- What is shared after modules were taken off the queue and reported on. -/
def served (s : WorkerSetup σ) (id : String) (sh : Shared σ) (ms rest : List LoadedModule) :
    Shared σ :=
  { sh with
    queue := rest
    channel := { sh.channel with items := sh.channel.items ++ s.reports id sh.world ms }
    world := s.worldAfterAll id sh.world ms }

/-- What is shared after the worker has left. -/
def left (sh : Shared σ) : Shared σ :=
  { sh with channel := sh.channel.dropSender }

/-- Serving modules and then others is serving all of them. -/
theorem served_served (s : WorkerSetup σ) (id : String) (sh : Shared σ)
    (ms mid ms' rest : List LoadedModule) :
    served s id (served s id sh ms mid) ms' rest = served s id sh (ms ++ ms') rest := by
  unfold served WorkerSetup.reports
  simp only [WorkerSetup.answers_append, List.map_append, List.append_assoc,
    WorkerSetup.worldAfterAll, List.foldl_append]

/-- Serving no modules changes nothing. -/
theorem served_nil (s : WorkerSetup σ) (id : String) (sh : Shared σ) :
    served s id sh [] sh.queue = sh := by
  unfold served WorkerSetup.reports
  rw [WorkerSetup.answers, List.map_nil, List.append_nil]
  rfl

/-- The worker leaves an empty queue. -/
theorem run_idle_nil (hqueue : sh.queue = []) : run s id .idle sh = left sh := by
  have hstop : step s id .idle sh = some (.stopped, left sh) := by
    simp only [step, hqueue]
    rfl
  rw [run_of_step hstop, run_stopped]

/-- What is shared after the first module of the queue was taken and collected. -/
def collected (s : WorkerSetup σ) (id : String) (sh : Shared σ) (m : LoadedModule)
    (ms : List LoadedModule) : Shared σ :=
  { sh with queue := ms, world := s.afterAnswer id m sh.world }

/-- The next module is taken and collected, and then its report is put. -/
theorem run_idle_cons (hqueue : sh.queue = m :: ms) (hdeliver :
      deliver (s.report id (m, s.answer id m sh.world)) (collected s id sh m ms) = (phase, sh')) :
    run s id .idle sh = run s id phase sh' := by
  have htake : step s id .idle sh = some (.holding m, { sh with queue := ms }) := by
    simp only [step, hqueue]
  have hcollect : step s id (.holding m) { sh with queue := ms } =
      some (.delivering m (s.report id (m, s.answer id m sh.world)).envelope,
        collected s id sh m ms) :=
    rfl
  rw [run_of_step htake, run_of_step hcollect]
  exact run_of_step (congrArg some hdeliver)

/-- While somebody receives, a parcel is put, and one with a fault is the last. -/
theorem deliver_heard (hlisten : sh.channel.isListening = true) (parcel : Parcel) :
    deliver parcel sh = if parcel.envelope.isFatal
      then stop { sh with channel := { sh.channel with items := sh.channel.items ++ [parcel] } }
      else (.idle, { sh with
        channel := { sh.channel with items := sh.channel.items ++ [parcel] } }) := by
  rw [deliver, Channel.put?, if_pos hlisten]

/-- While nobody receives, a parcel is the last one and put in vain. -/
theorem deliver_unheard (hdeaf : sh.channel.isListening = false) (parcel : Parcel) :
    deliver parcel sh = stop { sh with refused := sh.refused ++ [parcel] } := by
  rw [deliver, Channel.put?, if_neg (Bool.eq_false_iff.1 hdeaf)]

/-- While somebody receives, the next module is served; a worker that its answer stops leaves. -/
theorem run_idle_heard (hlisten : sh.channel.isListening = true) (hqueue : sh.queue = m :: ms) :
    (¬ (s.answer id m sh.world).Unrecoverable s.keyFilter →
      run s id .idle sh = run s id .idle (served s id sh [m] ms)) ∧
    ((s.answer id m sh.world).Unrecoverable s.keyFilter →
      run s id .idle sh = left (served s id sh [m] ms)) := by
  have hfatal : (s.report id (m, s.answer id m sh.world)).envelope.isFatal = true ↔
      (s.answer id m sh.world).Unrecoverable s.keyFilter := Envelope.isFatal_ofCollected_iff
  have hlisten : (collected s id sh m ms).channel.isListening = true := hlisten
  constructor
  · intro hm
    refine run_idle_cons hqueue ?_
    rw [deliver_heard hlisten, if_neg (mt hfatal.1 hm)]
    rfl
  · intro hm
    refine (run_idle_cons hqueue ?_).trans (run_stopped s id _)
    rw [deliver_heard hlisten, if_pos (hfatal.2 hm)]
    rfl

/-- Modules whose answers are harmless are served, and the worker goes on. -/
theorem run_idle_harmless (hlisten : sh.channel.isListening = true)
    (hqueue : sh.queue = before ++ after) (h : s.Harmless id sh.world before) :
    run s id .idle sh = run s id .idle (served s id sh before after) := by
  induction before generalizing sh with
  | nil =>
    have hsame := served_nil s id sh
    rw [hqueue, List.nil_append] at hsame
    rw [hsame]
  | cons m before ih =>
    obtain ⟨hm, hbefore⟩ := List.forall_mem_cons.1 h
    have hrest : run s id .idle (served s id sh [m] (before ++ after)) =
        run s id .idle (served s id (served s id sh [m] (before ++ after)) before after) :=
      ih hlisten rfl hbefore
    rw [(run_idle_heard hlisten (List.cons_append.symm.trans hqueue.symm).symm).1 hm, hrest,
      served_served]
    rfl

/-- The worker serves all modules if their answers are harmless. -/
theorem run_idle_whole (hlisten : sh.channel.isListening = true)
    (h : s.Harmless id sh.world sh.queue) :
    run s id .idle sh = left (served s id sh sh.queue []) := by
  rw [run_idle_harmless hlisten (List.append_nil _).symm h, run_idle_nil rfl]

/-- The worker comes to its end with the first module whose answer stops it. -/
theorem run_idle_fault (hlisten : sh.channel.isListening = true)
    (hqueue : sh.queue = before ++ m :: after) (h : s.StopsAt id sh.world before m) :
    run s id .idle sh = left (served s id sh (before ++ [m]) after) := by
  have hlisten' : (served s id sh before (m :: after)).channel.isListening = true := hlisten
  rw [run_idle_harmless hlisten hqueue h.1, ← served_served s id sh before (m :: after)]
  exact (run_idle_heard hlisten' rfl).2 h.2

/-- Without a receiver the worker comes to its end with its first module, on which it reports in
vain. -/
theorem run_idle_unheard (hdeaf : sh.channel.isListening = false) (hqueue : sh.queue = m :: ms) :
    run s id .idle sh = left { collected s id sh m ms with
      refused := sh.refused ++ [s.report id (m, s.answer id m sh.world)] } := by
  have hdeaf : (collected s id sh m ms).channel.isListening = false := hdeaf
  refine (run_idle_cons hqueue ?_).trans (run_stopped s id _)
  rw [deliver_unheard hdeaf]
  rfl

/-! ## Loading the policy -/

/-- With a policy, or without one, the worker begins with the first module. -/
theorem run_starting {policy : Option Policy} (h : s.policy id = .ok policy) :
    run s id .starting sh = run s id .idle sh := by
  refine run_of_step ?_
  simp only [step, h]

/-- If the policy cannot be loaded, the worker says so once and leaves. -/
theorem run_starting_error {e : PolicyError} (h : s.policy id = .error e) {sh' : Shared σ}
    (hdeliver : deliver ⟨none, .fatal (.policy e)⟩ sh = stop sh') :
    run s id .starting sh = left sh' := by
  have hreport : step s id .starting sh = some (.reporting e, sh) := by
    simp only [step, h]
  have hput : step s id (.reporting e) sh = some (stop sh') := congrArg some hdeliver
  rw [run_of_step hreport, run_of_step hput]
  exact run_stopped s id _

/-! ## Main result -/

/-- What is shared after a worker has worked alone, from loading the policy on. -/
def alone (s : WorkerSetup σ) (id : String) (sh : Shared σ) : Shared σ :=
  run s id .starting sh

/-- The modules that were taken stood first in the queue, and the collector was called for them. -/
theorem exists_consumed (s : WorkerSetup σ) (id : String) (sh : Shared σ) :
    ∃ consumed, sh.queue = consumed ++ (alone s id sh).queue ∧
      (alone s id sh).world = s.worldAfterAll id sh.world consumed := by
  -- How the worker ends is decided by the policy, then by the receiver, and then by the answers.
  unfold alone
  cases hpolicy : s.policy id with
  | error e =>
    refine ⟨[], ?_⟩
    cases hlisten : sh.channel.isListening with
    | true =>
      rw [run_starting_error hpolicy (deliver_heard hlisten _)]
      exact ⟨rfl, rfl⟩
    | false =>
      rw [run_starting_error hpolicy (deliver_unheard hlisten _)]
      exact ⟨rfl, rfl⟩
  | ok policy =>
    rw [run_starting hpolicy]
    cases hlisten : sh.channel.isListening with
    | true =>
      rcases s.harmless_or_stopsAt id sh.world sh.queue with h | ⟨before, m, after, hqueue, hstop⟩
      · rw [run_idle_whole hlisten h]
        exact ⟨sh.queue, (List.append_nil _).symm, rfl⟩
      · rw [run_idle_fault hlisten hqueue hstop]
        exact ⟨before ++ [m], by rw [hqueue, List.append_assoc]; rfl, rfl⟩
    | false =>
      cases hqueue : sh.queue with
      | nil =>
        rw [run_idle_nil hqueue]
        exact ⟨[], hqueue.symm, rfl⟩
      | cons m ms =>
        rw [run_idle_unheard hlisten hqueue]
        exact ⟨[m], rfl, rfl⟩

/-- A worker that works alone takes modules off the front of the queue and has the collector called
for each of them once, in order. With a receiver, and with a policy or without one, it ends with the
first module whose answer stops it: it reports on those before it, of which none is a fault, and
then a single fault. If there is no such module it reports on all and no fault. Without a receiver
it takes one module at most and puts nothing. If the policy cannot be loaded it takes no module and
reports this fault only. -/
theorem reports_what_it_consumed (s : WorkerSetup σ) (id : String) (sh : Shared σ) :
    (∃ consumed, sh.queue = consumed ++ (alone s id sh).queue ∧
      (alone s id sh).world = s.worldAfterAll id sh.world consumed) ∧
    (∀ policy, s.policy id = .ok policy → sh.channel.isListening = true →
      (∀ before m after, sh.queue = before ++ m :: after → s.StopsAt id sh.world before m →
        (alone s id sh).queue = after ∧ ∃ fault,
          (alone s id sh).channel.items = sh.channel.items ++ s.reports id sh.world before ++
            [⟨some m, .fatal fault⟩] ∧
          ∀ p ∈ s.reports id sh.world before, p.envelope.isFatal = false) ∧
      (s.Harmless id sh.world sh.queue →
        (alone s id sh).queue = [] ∧
          (alone s id sh).channel.items = sh.channel.items ++ s.reports id sh.world sh.queue ∧
          ∀ p ∈ s.reports id sh.world sh.queue, p.envelope.isFatal = false)) ∧
    (∀ policy, s.policy id = .ok policy → sh.channel.isListening = false →
      sh.queue.length ≤ (alone s id sh).queue.length + 1 ∧
        (alone s id sh).channel.items = sh.channel.items) ∧
    (∀ e, s.policy id = .error e → (alone s id sh).queue = sh.queue ∧
      (sh.channel.isListening = true → (alone s id sh).refused = sh.refused ∧
        (alone s id sh).channel.items = sh.channel.items ++ [⟨none, .fatal (.policy e)⟩]) ∧
      (sh.channel.isListening = false → (alone s id sh).channel.items = sh.channel.items ∧
        (alone s id sh).refused = sh.refused ++ [⟨none, .fatal (.policy e)⟩])) := by
  refine ⟨exists_consumed s id sh, fun policy hpolicy hlisten =>
    ⟨fun before m after hqueue hstop => ?_, fun h => ?_⟩, fun policy hpolicy hdeaf => ?_,
    fun e he => ?_⟩
  all_goals unfold alone
  · have hfatal :
        (s.report id (m, s.answer id m (s.worldAfterAll id sh.world before))).envelope.isFatal =
          true :=
      Envelope.isFatal_ofCollected_iff.2 hstop.2
    obtain ⟨fault, hfault⟩ := Envelope.exists_fault hfatal
    have hlast : s.report id (m, s.answer id m (s.worldAfterAll id sh.world before)) =
        ⟨some m, .fatal fault⟩ := congrArg (Parcel.mk (some m)) hfault
    rw [run_starting hpolicy, run_idle_fault hlisten hqueue hstop]
    refine ⟨rfl, fault, ?_, hstop.1.isFatal_reports⟩
    rw [List.append_assoc, ← hlast, ← WorkerSetup.reports_snoc]
    rfl
  · rw [run_starting hpolicy, run_idle_whole hlisten h]
    exact ⟨rfl, rfl, h.isFatal_reports⟩
  · rw [run_starting hpolicy]
    cases hqueue : sh.queue with
    | nil =>
      rw [run_idle_nil hqueue]
      exact ⟨Nat.zero_le _, rfl⟩
    | cons m ms =>
      rw [run_idle_unheard hdeaf hqueue]
      exact ⟨Nat.le_refl _, rfl⟩
  · cases hlisten : sh.channel.isListening with
    | true =>
      rw [run_starting_error he (deliver_heard hlisten _)]
      exact ⟨rfl, fun _ => ⟨rfl, rfl⟩, nofun⟩
    | false =>
      rw [run_starting_error he (deliver_unheard hlisten _)]
      exact ⟨rfl, nofun, fun _ => ⟨rfl, rfl⟩⟩

namespace Sample

open Pool.Sample (loaded)

/-- A collector that writes down the names of the modules it is called for. It answers for each as
the collector of the small pool does. -/
def recorder : Collector (List String) := fun m policy stats modelId names =>
  ((Pool.Sample.collector m policy stats modelId ()).1, names ++ [m.name])

/-- What the worker is given. -/
def setup : WorkerSetup (List String) :=
  ⟨recorder, fun _ => .ok none, none⟩

/-- What is shared: four modules, for the second of which the collector fails and for the third of
which it breaks down. -/
def shared : Shared (List String) :=
  ⟨[loaded "a" [], loaded "b" [0], loaded "c" [0, 0], loaded "d" []], .start 1, [], []⟩

/-- The third answer is the first one that stops the worker. -/
theorem stopsAt : setup.StopsAt "w" shared.world [loaded "a" [], loaded "b" [0]]
    (loaded "c" [0, 0]) := by
  have hsafe {a : Collected} (h : (Envelope.ofCollected none "w" "m" a).isFatal = false) :
      ¬ a.Unrecoverable none :=
    mt Envelope.isFatal_ofCollected_iff.2 (Bool.eq_false_iff.1 h)
  refine ⟨?_, .panicked none⟩
  exact List.forall_mem_cons.2 ⟨hsafe rfl, List.forall_mem_singleton.2 (hsafe rfl)⟩

end Sample

/-- The worker reports on two modules and then a fault. The last module stays, and the collector has
not been called for it. -/
theorem reports_what_it_consumed_of_panic :
    (alone Sample.setup "w" Sample.shared).queue = [Pool.Sample.loaded "d" []] ∧
      (alone Sample.setup "w" Sample.shared).world = ["a", "b", "c"] ∧
      (alone Sample.setup "w" Sample.shared).channel.items.map (·.envelope.isFatal) =
        [false, false, true] := by
  obtain ⟨⟨consumed, hconsumed, hworld⟩, hheard, -, -⟩ :=
    reports_what_it_consumed Sample.setup "w" Sample.shared
  obtain ⟨hleft, fault, hitems, -⟩ :=
    (hheard none rfl rfl).1 _ _ [Pool.Sample.loaded "d" []] rfl Sample.stopsAt
  rw [hleft] at hconsumed
  have htaken : Sample.shared.queue.take 3 = consumed :=
    List.append_cancel_right (show Sample.shared.queue.take 3 ++ _ = _ from hconsumed)
  rw [hleft, hworld, hitems, ← htaken]
  exact ⟨rfl, rfl, rfl⟩

end Worker

end TraceGen
