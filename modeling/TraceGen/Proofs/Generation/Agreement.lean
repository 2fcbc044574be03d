import TraceGen.Generation
import TraceGen.Program
import TraceGen.Proofs.Compile.Footprint
import TraceGen.Proofs.Compile.Rows
import TraceGen.Proofs.Corpus.Reading
import TraceGen.Proofs.Output.Inspecting
import TraceGen.Proofs.Output.Saving
import TraceGen.Proofs.Pool.Completion
import TraceGen.Proofs.Pool.RecordStream
import TraceGen.Proofs.Training.Retaining

/-!
# Generating and inspecting agree

`RunPlan.Generates` says how generating traces may end when the actors of the pool act in any order,
and with which calls of the collector; `RunPlan.generate` is one of these ways
(`RunPlan.exists_generates`). `RunPlan.inspection_agrees` says what inspecting the file of records
reports after a good end: as many records as the summary counts, and the sizes of all records that
the key filter has left of the answers of the collector (`RunPlan.Agrees`).

The way there is a chain. The created file of records is empty, and the calls of the run leave it
alone (`WorkerSetup.CallsLeave`). The stream of a good end consists of the records of the envelopes
(`Pool.Run.stream`), saving makes it the content of the file (`Sinks.read?_save`), and the reader
gives the records back (`RecordSource.readAll_eq_ok_iff`). Calls that compile leave the file alone
because a compile works in a folder of its own (`CompileRunner.callsLeave`).
-/

namespace TraceGen

/-! ## Samples -/

/-- Shuffling keeps the number of items. -/
theorem Random.length_shuffle {σ α : Type} (next : σ → UInt32 × σ) (items : List α) (s : σ) :
    (shuffle next items s).1.length = items.length := by
  have hfrom (n : Nat) (c : Choices) (xs : Array α) (s : σ) :
      (shuffleFrom next n c xs s).1.size = xs.size := by
    induction n generalizing c xs s with
    | zero => rfl
    | succ n ih =>
      unfold shuffleFrom
      dsimp only
      rw [ih, Array.size_swapIfInBounds]
  unfold shuffle
  split
  · rfl
  · exact hfrom _ _ _ _

/-! ## Worlds with a disk -/

/-- The disk of a world is the one that was put there. -/
class LawfulDisk (σ : Type) [HasDisk σ] : Prop where
  /-- Putting a disk there and looking at it. -/
  disk_setDisk (d : Disk) (world : σ) : HasDisk.disk (HasDisk.setDisk d world) = d

instance : LawfulDisk Host :=
  ⟨fun _ _ => rfl⟩

/-- Some action leaves a file alone: relative paths start where they did, and the path names what it
did. -/
structure Disk.Leaves (path : Path) (d d' : Disk) : Prop where
  /-- Relative paths start at the same place. -/
  here : d'.here = d.here
  /-- The path names the same. -/
  item : d'.item? path = d.item? path

/-- Calls that are made one after the other from a world on leave a file alone, each in the world
that the calls before it led to. -/
def WorkerSetup.CallsLeave {σ : Type} [HasDisk σ] (s : WorkerSetup σ) (path : Path) :
    σ → List Collection → Prop
  | _, [] => True
  | world, c :: calls =>
    Disk.Leaves path (HasDisk.disk world)
        (HasDisk.disk (s.worldAfter c.worker c.subject world)) ∧
      s.CallsLeave path (s.worldAfter c.worker c.subject world) calls

/-- Calls that leave a file alone one by one leave it alone all in all. -/
theorem WorkerSetup.Answered.leaves {σ : Type} [HasDisk σ] {s : WorkerSetup σ} {path : Path}
    {world last : σ} {calls : List Collection} (h : s.Answered world calls last)
    (hleaves : s.CallsLeave path world calls) :
    Disk.Leaves path (HasDisk.disk world) (HasDisk.disk last) := by
  induction calls generalizing world with
  | nil =>
    rw [WorkerSetup.Answered] at h
    rw [h]
    exact ⟨rfl, rfl⟩
  | cons c calls ih =>
    obtain ⟨hfirst, hrest⟩ := hleaves
    have hlater := ih h.2 hrest
    exact ⟨hlater.here.trans hfirst.here, hlater.item.trans hfirst.item⟩

namespace RunPlan

variable {σ : Type} [HasDisk σ]

/-! ## Generating in any order of actions -/

/-- How generating traces may end, and with which calls of the collector. -/
inductive Generates (plan : RunPlan) (available : Nat) (fresh : Random.Generator)
    (collector : Collector σ) (world : σ) :
    List Collection → Except GenerateError Summary × σ → Prop where
  /-- The modules or the outputs cannot be prepared. -/
  | unprepared {e : GenerateError} {d : Disk}
      (h : plan.prepare fresh (HasDisk.disk world) = (.error e, d)) :
    plan.Generates available fresh collector world [] (.error e, HasDisk.setDisk d world)
  /-- A run of the pool has ended. -/
  | ended {modules : List LoadedModule} {sinks : Sinks} {d : Disk} {calls : List Collection}
      {p : Pool σ} {result : Except PoolError Summary}
      (hprepare : plan.prepare fresh (HasDisk.disk world) = (.ok (modules, sinks), d))
      (hrun : Pool.Run (plan.setup collector d)
        (plan.pool available modules sinks (HasDisk.setDisk d world)) calls p)
      (hend : p.result? = some result) :
    plan.Generates available fresh collector world calls (plan.conclude p)

/-- Generating traces in the order of `Pool.run` is one way. -/
theorem exists_generates (plan : RunPlan) (available : Nat) (fresh : Random.Generator)
    (collector : Collector σ) (world : σ) :
    ∃ calls, plan.Generates available fresh collector world calls
      (plan.generate available fresh collector world) := by
  unfold generate
  rcases hprepare : plan.prepare fresh (HasDisk.disk world) with ⟨prepared, d⟩
  cases prepared with
  | error e => exact ⟨[], .unprepared hprepare⟩
  | ok given =>
    obtain ⟨modules, sinks⟩ := given
    have hn := workerCount_pos plan.numWorkers available
    obtain ⟨calls, hrun, hquiet⟩ := Pool.exists_run (plan.setup collector d)
      (plan.pool available modules sinks (HasDisk.setDisk d world))
    obtain ⟨result, hend⟩ := hrun.exists_result hquiet
    exact ⟨calls, .ended hprepare hrun hend⟩

/-! ## The parts of a good end -/

section Parts

variable {plan : RunPlan} {available : Nat} {fresh : Random.Generator} {collector : Collector σ}
  {world last : σ} {calls : List Collection} {summary : Summary} {path : Path}

/-- What has been prepared: the sampled modules are loaded, and the outputs are created. -/
theorem prepare_eq_ok_iff {d d' : Disk} {modules : List LoadedModule} {sinks : Sinks} :
    plan.prepare fresh d = (.ok (modules, sinks), d') ↔
      plan.loadSampled fresh d = .ok modules ∧
        Sinks.create d plan.outputPath plan.performancePath = (.ok sinks, d') := by
  unfold prepare
  constructor
  · intro h
    split at h
    · cases h
    · rename_i hload
      split at h
      · cases h
      · rename_i hcreate
        cases h
        exact ⟨hload, hcreate⟩
  · rintro ⟨hload, hcreate⟩
    simp only [hload, hcreate]

/-- As many modules are drawn as are sampled, or all if there are fewer. -/
theorem length_draw (plan : RunPlan) (fresh : Random.Generator) (corpus : Corpus) :
    (plan.draw fresh corpus).length = min (plan.sampledModules corpus.size) corpus.size := by
  unfold draw Corpus.sample Corpus.bySize
  dsimp only
  rw [if_pos rfl, List.length_mergeSort, List.length_take, Random.length_shuffle]
  rfl

/-- The modules that were loaded are those that were drawn from the corpus. -/
theorem exists_corpus_of_loadSampled {d : Disk} {modules : List LoadedModule}
    (h : plan.loadSampled fresh d = .ok modules) :
    ∃ corpus, Corpus.read d plan.dataPath plan.moduleFilter plan.problem.rules = .ok corpus ∧
      modules.length = min (plan.sampledModules corpus.size) corpus.size := by
  unfold loadSampled at h
  rw [Except.bind_eq_ok_iff] at h
  obtain ⟨corpus, hread, hload⟩ := h
  have hlength := (Except.mapM_eq_ok_iff.1 hload).length_eq
  exact ⟨corpus, hread, hlength.symm.trans (plan.length_draw fresh corpus)⟩

/-- The only module of a corpus is drawn and loaded, unless none is to be. -/
theorem loadSampled_of_single {d : Disk} {root : Path} {spec : ModuleSpec} {loaded : LoadedModule}
    (hread : Corpus.read d plan.dataPath plan.moduleFilter plan.problem.rules = .ok ⟨root, [spec]⟩)
    (hcount : plan.sampledModules 1 = 1)
    (hload : (Corpus.mk root [spec]).loadModule d spec = .ok loaded) :
    plan.loadSampled fresh d = .ok [loaded] := by
  have hdraw : plan.draw fresh ⟨root, [spec]⟩ = [spec] := by
    unfold draw
    rw [show (Corpus.mk root [spec]).size = 1 from rfl, hcount]
    exact List.mergeSort_singleton _
  unfold loadSampled
  rw [hread]
  show (plan.draw fresh ⟨root, [spec]⟩).mapM _ = _
  rw [hdraw, List.mapM_cons, hload]
  rfl

/-- A good end is that of a run of the pool over the sampled modules. -/
theorem Generates.exists_run
    (h : plan.Generates available fresh collector world calls (.ok summary, last)) :
    ∃ modules sinks d p, plan.prepare fresh (HasDisk.disk world) = (.ok (modules, sinks), d) ∧
      Pool.Run (plan.setup collector d)
        (plan.pool available modules sinks (HasDisk.setDisk d world)) calls p ∧
      p.result? = some (.ok summary) ∧
      last = HasDisk.setDisk (p.sinks.save (HasDisk.disk p.shared.world) plan.outputPath
        plan.performancePath) p.shared.world := by
  generalize hlast : ((.ok summary, last) : Except GenerateError Summary × σ) = outcome at h
  cases h with
  | unprepared => cases hlast
  | @ended modules sinks d calls p result hprepare hrun hend =>
    refine ⟨modules, sinks, d, p, hprepare, hrun, ?_, (Prod.mk.inj hlast).2⟩
    have houtcome : p.outcome = result := Supervision.outcome_of_result? hend
    have hok := (Prod.mk.inj hlast).1
    rw [houtcome] at hok
    cases result with
    | error e => cases hok
    | ok summary' =>
      cases hok
      exact hend

/-- The records are written to a file, and the performance lines, if at all, to another one. -/
def RecordsApart (plan : RunPlan) (path : Path) (d : Disk) : Prop :=
  plan.outputPath = some path ∧
    ∀ other, plan.performancePath = some other → d.target other ≠ d.target path

/-- Inspecting the file of records agrees with a good end of generating traces, from the disk before
to the disk after it. -/
structure Agrees (plan : RunPlan) (fresh : Random.Generator) (path : Path) (before after : Disk)
    (calls : List Collection) (summary : Summary) : Prop where
  /-- Inspecting succeeds. It reports as many records as the summary counts, and the sum and the
  maximum of the sizes of all records that the key filter has left of the answers. -/
  report : ∃ report, Inspection.ofFile after path = .ok report ∧
    report.records = summary.examples ∧
    report.records = (calls.flatMap (·.retained plan.keyFilter)).length ∧
    report.payloadBytes = ((calls.flatMap (·.retained plan.keyFilter)).map List.length).sum ∧
    report.largestRecord =
      ((calls.flatMap (·.retained plan.keyFilter)).map List.length).foldr max 0
  /-- Each sampled module has had its call, and the summary says how many these are. -/
  sampled : ∃ corpus modules,
    Corpus.read before plan.dataPath plan.moduleFilter plan.problem.rules = .ok corpus ∧
    plan.loadSampled fresh before = .ok modules ∧ (calls.map (·.subject)).Perm modules ∧
    summary.work = modules.length ∧
    modules.length = min (plan.sampledModules corpus.size) corpus.size

/-- Inspecting agrees if the calls of the run leave the file of the records alone. -/
theorem Generates.agrees [LawfulDisk σ] (hapart : plan.RecordsApart path (HasDisk.disk world))
    (h : plan.Generates available fresh collector world calls (.ok summary, last))
    (hsize : ∀ record ∈ calls.flatMap (·.retained plan.keyFilter), record.length < 2 ^ 64)
    (hleaves : ∀ modules sinks d,
      plan.prepare fresh (HasDisk.disk world) = (.ok (modules, sinks), d) →
      (plan.setup collector d).CallsLeave path (HasDisk.setDisk d world) calls) :
    plan.Agrees fresh path (HasDisk.disk world) (HasDisk.disk last) calls summary := by
  obtain ⟨hpath, hother⟩ := hapart
  obtain ⟨modules, sinks, d, p, hprepare, hrun, hend, rfl⟩ := h.exists_run
  obtain ⟨hload, hcreate⟩ := prepare_eq_ok_iff.1 hprepare
  obtain ⟨corpus, hread, hlength⟩ := exists_corpus_of_loadSampled hload
  rw [hpath] at hcreate
  obtain ⟨hempty, hhere, sink, hstream, hnew⟩ := Sinks.create_spec hcreate hother
  have hn := workerCount_pos plan.numWorkers available
  have hsettled := hrun.settled hn hend
  obtain ⟨hexamples, w, hw, hcontent⟩ := hrun.stream hn hend hstream hnew
  have hperm : (p.envelopes.flatMap Envelope.records).Perm
      (calls.flatMap (·.retained plan.keyFilter)) := hsettled.records_perm
  refine ⟨?_, corpus, modules, hread, hload, hsettled.subjects, hsettled.work, hlength⟩
  -- The created file is still there and empty when what has reached the outputs is saved.
  obtain ⟨hstay, hleft⟩ := hrun.answered.leaves (hleaves modules sinks d hprepare)
  have hstart : HasDisk.disk (plan.pool available modules sinks
      (HasDisk.setDisk d world)).shared.world = d := LawfulDisk.disk_setDisk d world
  rw [hstart] at hstay hleft
  have hapart : ∀ other, plan.performancePath = some other →
      (HasDisk.disk p.shared.world).target other ≠ (HasDisk.disk p.shared.world).target path := by
    intro other hperformance
    unfold Disk.target
    rw [hstay, hhere]
    exact hother other hperformance
  have hsaved := Sinks.read?_save hw (hleft.trans hempty) hapart
  rw [← hpath] at hsaved
  have hfile : Inspection.ofFile (p.sinks.save (HasDisk.disk p.shared.world) plan.outputPath
      plan.performancePath) path =
      .ok (.ofRecords path (calls.flatMap (·.retained plan.keyFilter))) := by
    have hsizes : ∀ record ∈ p.envelopes.flatMap Envelope.records, record.length < 2 ^ 64 :=
      fun record hmem => hsize record (hperm.mem_iff.1 hmem)
    have hback := RecordSource.readAll_eq_ok_iff.2
      ⟨(show (ByteSource.ofBytes w.sink.content).rest = _ from hcontent), hsizes⟩
    rw [Inspection.ofFile, hsaved]
    dsimp only
    rw [hback, ← Inspection.ofRecords_perm path hperm]
    rfl
  rw [LawfulDisk.disk_setDisk]
  refine ⟨_, hfile, ?_⟩
  rw [Inspection.ofRecords_eq]
  exact ⟨hperm.length_eq.symm.trans hexamples.symm, rfl, rfl, rfl⟩

end Parts

namespace Sample

/-- A machine with a corpus of one module. -/
def host : Host where
  disk := ⟨.folder [("c", .folder
    [("corpus_description.json", .file (Text.encode "\x7b\"modules\": [\"a\"]\x7d")),
      ("a.bc", .file []), ("a.cmd", .file (Text.encode "-c"))])], []⟩
  compiler? := fun _ => none
  scratch := fun _ => ""
  compiles := 0
  runs := []

/-- A run over all of the corpus. -/
def plan : RunPlan where
  dataPath := "c"
  policyPath := none
  outputPath := some "t.rec"
  performancePath := some "out/perf.csv"
  numWorkers := some 1
  samplingRate := 1
  moduleFilter := none
  keyFilter := none
  settings := .standard
  problem := ⟨"", ⟨[], [], KeyMap.empty⟩, [], []⟩

/-- A collector that gives two records for every module. -/
def collector : Collector Host := fun _ _ _ _ host =>
  (.data ⟨[⟨"f", [1, 2], 0, 0⟩, ⟨"g", [3], 0, 0⟩], .empty, 0⟩, host)

/-- The module of the corpus. -/
def spec : ModuleSpec :=
  ⟨"a", 0, withPlaceholders false ["-c"], false⟩

/-- An order of actions of a worker and the supervisor. -/
def schedule : List Actor :=
  List.replicate 4 (.worker 0) ++ [.supervisor, .supervisor, .supervisor, .worker 0, .supervisor]

/-- The outputs of this run. -/
def sinks : Sinks :=
  ⟨some (.start .file), some (.start .file)⟩

/-- The disk on which they have been created. -/
def created : Disk :=
  (Sinks.create host.disk plan.outputPath plan.performancePath).2

/-- The module of the corpus, loaded. -/
def loaded : LoadedModule :=
  ⟨"a", [], none, spec.commandLine⟩

/-- A machine with the same corpus and a compiler that measures a single key. -/
def machine : Host :=
  { host with
    compiler? := fun _ => some fun _ _ =>
      ⟨some (Text.encode (CompileRunner.Sample.line "g" "0")), [], some 0, 0⟩
    scratch := fun _ => "s" }

/-- The runner by which the program generates traces for the plan. -/
def runner : CompileRunner :=
  ⟨.ofSettings plan.settings plan.problem, Program.decay⟩

/-- What a run has come to: its summary, the sizes of the records and the arguments of the
compilers. -/
def outcome (r : List Collection × Pool Host) :
    Option Summary × List Nat × List (List String) :=
  (r.2.result?.bind Except.toOption, (r.1.flatMap (·.retained none)).map List.length,
    r.2.shared.world.calls)

end Sample

end RunPlan

end TraceGen
