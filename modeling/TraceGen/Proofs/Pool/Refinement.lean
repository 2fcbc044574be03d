import TraceGen.Proofs.Pool.Conservation
import TraceGen.Proofs.Text.ByteOrder

/-!
# Every run is a run without workers

`Pool.refines_sequential` says that the workers cannot be seen from outside: the result of a run and
all that its outputs hold are those of `Sequential.run`, which takes some of the modules one after
the other. The order is that in which the supervisor received the envelopes.

Which modules these are is read off the ledger: each envelope received is that of a call, so that
the calls can be put into the order of the envelopes. A single worker keeps the order of the modules
itself (`Run.inTurn`).
-/

namespace TraceGen

/-- A part of the images of a list, in some order, is the image of a part in some order. -/
theorem List.exists_map_eq_of_subperm {α β : Type} {f : α → β} {l : List α} {images : List β}
    (h : images.Subperm (l.map f)) : ∃ part : List α, part.Subperm l ∧ part.map f = images := by
  obtain ⟨sub, hperm, hsub⟩ := h
  obtain ⟨part, hpart, rfl⟩ := List.sublist_map_iff.1 hsub
  obtain ⟨part', himages, hperm'⟩ :=
    (congrFun (congrFun (List.eq_map_comp_perm f) images) part).mpr hperm.symm
  exact ⟨part', ⟨part, hperm'.symm, hpart⟩, himages.symm⟩

namespace Pool

variable {σ : Type} {s : WorkerSetup σ} {p q : Pool σ} {calls : List Collection} {n : Nat}
  {modules : List LoadedModule}

/-! ## A single worker -/

/-- The modules in the order in which they were received, are on their way, were refused, are held
and are left. -/
def InTurn (modules : List LoadedModule) (p : Pool σ) : Prop :=
  modules = (p.drained ++ p.shared.channel.items ++ p.shared.refused).filterMap (·.origin) ++
    p.held ++ p.shared.queue

/-- At the start all modules are left. -/
theorem InTurn.start (n : Nat) (modules : List LoadedModule) (sinks : Sinks) (world : σ) :
    InTurn modules (Pool.start n modules sinks world) := by
  have hheld : (Pool.start n modules sinks world).held = [] := by
    simp [held, List.filterMap_replicate, Phase.held?]
  rw [InTurn, hheld]
  rfl

/-- What a single worker holds. -/
theorem held_singleton {phase : Phase} (hw : p.workers = [phase]) :
    p.held = phase.held?.toList := by
  rw [held, hw, List.filterMap_cons]
  cases phase.held? <;> rfl

/-- A single worker keeps the order of the modules. -/
theorem InTurn.work {phase phase' : Phase} {sh' : Shared σ} (h : InTurn modules p)
    (hc : Crew 1 p) (hw : p.workers = [phase])
    (ha : Worker.Action s 0 phase p.shared calls phase' sh') :
    InTurn modules { p with workers := [phase'], shared := sh' } := by
  unfold InTurn at h ⊢
  rw [held_singleton hw] at h
  rw [held_singleton rfl]
  -- A parcel is put last, which is in turn while none is refused.
  have hput {parcel : Parcel} (hp : phase.parcel? = some parcel)
      (hl : p.shared.channel.isListening = true) :
      modules = (p.drained ++ (p.shared.channel.items ++ [parcel]) ++
        p.shared.refused).filterMap (·.origin) ++ [] ++ p.shared.queue := by
    have hr : p.result? = none := by
      rw [hc.listening] at hl
      exact Option.isNone_iff_eq_none.1 hl
    rw [hc.unrefused hr, Phase.held?_of_parcel hp] at h
    rw [hc.unrefused hr, h]
    cases ho : parcel.origin <;> simp [ho]
  cases ha with
  | ready | unready | exhaust | collect => exact h
  | take hq =>
    rw [hq] at h
    simpa [Phase.held?] using h
  | @refuse _ parcel _ hp hl =>
    rw [Phase.held?_of_parcel hp] at h
    rw [h]
    simp only [List.filterMap_append, List.append_assoc, Phase.held?, Option.toList_none,
      List.nil_append, Channel.dropSender]
    cases ho : parcel.origin <;> simp [ho]
  | fault hp hl => exact hput hp hl
  | deliver hp hl => exact hput hp hl

/-- A single worker and the supervisor keep the order of the modules. -/
theorem InTurn.step (h : InTurn modules p) (hc : Crew 1 p) (hs : Step s p calls q) :
    InTurn modules q := by
  cases hs with
  | supervise hq =>
    cases hq with
    | complete | strand | giveUp | spoil | close | join => exact h
    | receive hs hk hi =>
      unfold InTurn held at h ⊢
      rw [integrate_shared, integrate_workers, integrate_drained]
      rw [hi] at h
      simpa only [received, List.append_assoc, List.singleton_append] using h
  | @work i phase phase' sh' calls hi ha =>
    obtain ⟨w, hw⟩ := List.length_eq_one_iff.1 hc.size
    obtain ⟨rfl, rfl⟩ : i = 0 ∧ w = phase := by
      rw [hw] at hi
      obtain ⟨hlt, hget⟩ := List.getElem?_eq_some_iff.1 hi
      have hi0 : i = 0 := Nat.lt_one_iff.1 hlt
      subst hi0
      exact ⟨rfl, hget⟩
    rw [hw]
    exact h.work hc hw ha

/-- Every run of a single worker keeps the order of the modules. -/
theorem Run.inTurn {sinks : Sinks} {world : σ}
    (h : Run s (.start 1 modules sinks world) calls p) : InTurn modules p := by
  refine (h.invariant (I := fun _ q => Crew 1 q ∧ InTurn modules q)
    ⟨Crew.start 1 modules sinks world, InTurn.start 1 modules sinks world⟩ ?_).2
  rintro calls more q r ⟨hc, hq⟩ hstep
  exact ⟨hc.step hstep, hq.step hc hstep⟩

/-! ## The order in which the modules are taken -/

/-- The parcels received are those of some calls, in the order in which they were received. -/
theorem Ledger.exists_order (h : Ledger s modules calls p)
    (hpolicy : ∀ i < p.workers.length, ∃ policy, s.policy (workerId i) = .ok policy) :
    ∃ order : List Collection,
      order.Subperm calls ∧ order.map (·.parcel s.keyFilter) = p.drained := by
  have hcalled := h.called
  rw [List.filter_eq_self.2 (h.origin_isSome_of_policy hpolicy)] at hcalled
  exact List.exists_map_eq_of_subperm
    ((drained_sublist_parcels p).subperm.trans hcalled.subperm)

/-- Calls in an order account for different modules. -/
theorem Ledger.subperm_of_order (h : Ledger s modules calls p) {order : List Collection}
    (horder : order.Subperm calls) : (order.map (·.subject)).Subperm modules := by
  have hsubjects : (order.map (·.subject)).Subperm (calls.map (·.subject)) := by
    obtain ⟨part, hperm, hsub⟩ := horder
    exact ⟨_, hperm.map _, hsub.map _⟩
  exact hsubjects.trans ((List.sublist_append_right _ _).subperm.trans h.taken.symm.subperm)

/-- A run that has ended without a fault and without a failing output has received a parcel for each
module. -/
theorem Run.drained_of_no_error {sinks : Sinks} {world : σ} {result : Except PoolError Summary}
    (h : Run s (.start n modules sinks world) calls p) (hn : 0 < n)
    (hr : p.result? = some result) (hfatal : ∀ parcel ∈ p.drained, parcel.envelope.isFatal = false)
    (hsink : ∀ e, result ≠ .error (.sink e)) : p.drained.length = modules.length := by
  cases result with
  | ok summary => exact (h.settled hn hr).complete
  | error cause =>
    rcases Sequential.run_error (h.run_eq hn hr).1 with ⟨fault, -, hmem⟩ | ⟨e, rfl⟩
    · obtain ⟨parcel, hparcel, he⟩ := List.mem_map.1 hmem
      have hf := hfatal parcel hparcel
      rw [he] at hf
      cases hf
    · exact absurd rfl (hsink e)

/-- A run in any order of actions of any number of workers, over outputs that may be absent and may
fail at any byte, ends as a run without workers ends that takes some of the modules one after the
other, with the answers that the collector gave: with the same result, and with the same outputs,
their counters and the bytes that have and have not reached their devices included. The lines of a
module stand in byte order of their keys. A single worker takes the modules in their order; without
a fault and a failing output every module is taken. -/
theorem refines_sequential (hpolicy : ∀ i < n, ∃ policy, s.policy (workerId i) = .ok policy)
    (hn : 0 < n) {sinks : Sinks} {world : σ} (h : Run s (.start n modules sinks world) calls p)
    {result : Except PoolError Summary} (hr : p.result? = some result) :
    ∃ order : List Collection,
      order.map (·.parcel s.keyFilter) = p.drained ∧ order.Subperm calls ∧
      s.Answered world calls p.shared.world ∧
      (order.map (·.subject)).Subperm modules ∧
      Sequential.run modules.length sinks (order.map (·.envelope s.keyFilter)) =
        (result, p.sinks) ∧
      (∀ c ∈ order, ∀ outcome, c.envelope s.keyFilter = .success outcome →
        outcome.stats.entries.Pairwise fun a b => Text.encode a.1 < Text.encode b.1) ∧
      (n = 1 → order.map (·.subject) <+: modules) ∧
      ((∀ c ∈ order, (c.envelope s.keyFilter).isFatal = false) →
        (∀ e, result ≠ .error (.sink e)) → (order.map (·.subject)).Perm modules) := by
  -- The parcels received decide the order, and all else is said about them.
  obtain ⟨order, horder, hdrained⟩ := h.ledger.exists_order (by rwa [h.crew.size])
  have hsubjects : p.drained.filterMap (·.origin) = order.map (·.subject) := by
    rw [← hdrained, filterMap_origin_map_parcel]
  have henvelopes : order.map (·.envelope s.keyFilter) = p.envelopes := by
    rw [envelopes, ← hdrained, List.map_map]
    rfl
  have hsubperm := h.ledger.subperm_of_order horder
  refine ⟨order, hdrained, horder, h.answered, hsubperm, ?_, ?_, ?_, ?_⟩
  · rw [henvelopes]
    exact (h.run_eq hn hr).1
  · exact fun _ _ outcome _ => outcome.stats.pairwise_encode_lt
  · rintro rfl
    have hturn := h.inTurn
    rw [InTurn, List.append_assoc p.drained, List.filterMap_append, hsubjects] at hturn
    rw [hturn, List.append_assoc, List.append_assoc]
    exact List.prefix_append _ _
  · intro hfatal hsink
    have hall : ∀ parcel ∈ p.drained, parcel.envelope.isFatal = false := by
      intro parcel hmem
      rw [← hdrained] at hmem
      obtain ⟨c, hc, rfl⟩ := List.mem_map.1 hmem
      exact hfatal c hc
    have hlen := h.drained_of_no_error hn hr hall hsink
    rw [← hdrained, List.length_map] at hlen
    refine hsubperm.perm_of_length_le ?_
    rw [List.length_map]
    exact Nat.le_of_eq hlen.symm

namespace Sample

/-- The filter of the keys that hold the letter f. -/
def lettered : NameFilter :=
  ⟨"f", .chars ⟨1, fun c => c = 'f'⟩⟩

/-- A collector that gives rows for two keys, and their baselines. -/
def twoKeys : Collector Unit := fun _ _ _ _ world =>
  (.data ⟨[⟨"g", [3], 0, 0⟩, ⟨"f", [1, 2], 0, 0⟩],
    (KeyMap.empty.insert "f" (.start 0)).insert "g" (.start 0), 0⟩, world)

/-- Workers with this collector and the filter. -/
def filtering : WorkerSetup Unit :=
  ⟨twoKeys, fun _ => .ok none, some lettered⟩

/-- Outputs of which that of the records has room for fifteen bytes. -/
def short : Sinks :=
  ⟨some (.start { ByteSink.plain with limit := some 15 }), some (.start .plain)⟩

/-- What can be seen of a run that has failed. -/
structure Failure where
  /-- Why it failed. -/
  cause : Option PoolError
  /-- The bytes and the counter of the records. -/
  records : Option (Bytes × Nat)
  /-- The text and the counter of the performance lines. -/
  lines : Option (String × Nat)
  /-- The number of calls. -/
  calls : Nat
  /-- The number of parcels received. -/
  received : Nat
deriving DecidableEq

/-- What can be seen of a run if it has failed. -/
def failure (r : List Collection × Pool Unit) : Failure where
  cause := match r.2.result? with
    | some (.error e) => some e
    | _ => none
  records := r.2.sinks.records.map fun w => (w.sink.content, w.written)
  lines := r.2.sinks.performance.map fun w => (Text.decodeLossy w.sink.content, w.lines)
  calls := r.1.length
  received := r.2.drained.length

end Sample

/-- One worker and three modules with two keys each, of which the filter selects one. The record and
the line of the first module are written; the record of the second one does not fit, which ends the
run before the third module has had its call. -/
theorem refines_sequential_of_short_output :
    ∃ (calls : List Collection) (p : Pool Unit) (order : List Collection),
      Run Sample.filtering (.start 1 Sample.modules Sample.short ()) calls p ∧
      p.result? = some (.error (.sink (.io ""))) ∧
      p.sinks.records.map (fun w => (w.sink.content, w.written)) =
        some ([2, 0, 0, 0, 0, 0, 0, 0, 1, 2] ++ [2, 0, 0, 0, 0], 1) ∧
      p.sinks.performance.map (fun w => (Text.decodeLossy w.sink.content, w.lines)) =
        some ("a,f,0.0,0.0\n", 1) ∧
      Sequential.run 3 Sample.short (order.map (·.envelope (some Sample.lettered))) =
        (.error (.sink (.io "")), p.sinks) ∧
      order.map (·.subject) <+: Sample.modules ∧ order.length = 2 ∧ calls.length = 2 := by
  let schedule : List Actor := List.replicate 7 (.worker 0) ++ List.replicate 3 .supervisor
  have hplayed : ((Pool.start 1 Sample.modules Sample.short ()).play Sample.filtering
      schedule).map Sample.failure =
      some ⟨some (.sink (.io "")), some ([2, 0, 0, 0, 0, 0, 0, 0, 1, 2] ++ [2, 0, 0, 0, 0], 1),
        some ("a,f,0.0,0.0\n", 1), 2, 2⟩ := by
    decide +kernel
  obtain ⟨⟨calls, p⟩, hplay, hfailure⟩ := Option.map_eq_some_iff.1 hplayed
  obtain ⟨hcause, hrecords, hlines, hcalls, hlength⟩ := Sample.Failure.mk.inj hfailure
  have hr : p.result? = some (.error (.sink (.io ""))) := by
    dsimp only at hcause
    split at hcause
    · rename_i e hresult
      rw [hresult, Option.some.inj hcause]
    · cases hcause
  have hrun := run_iff_exists_play.2 ⟨schedule, hplay⟩
  obtain ⟨order, hdrained, -, -, -, hsequential, -, hprefix, -⟩ :=
    refines_sequential (fun _ _ => ⟨none, rfl⟩) (by decide) hrun hr
  refine ⟨calls, p, order, hrun, hr, hrecords, hlines, hsequential, hprefix rfl, ?_, hcalls⟩
  rw [← hlength, ← hdrained, List.length_map]

end Pool

end TraceGen
