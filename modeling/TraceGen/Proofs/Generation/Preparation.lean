import TraceGen.Proofs.Files.Unchanged
import TraceGen.Proofs.Generation.Agreement

/-!
# What a run leaves that fails before its pool is set to work

Before its pool is set to work a run reads, and then it creates its output files. If reading fails
nothing has been changed. If an output file cannot be created, the one that was to be created before
it may have been created already, which has emptied it, and folders may have been made.

`RunPlan.failed_start_leaves` says exactly what is left then. All files are as they were except that
of the records, and this one is too if creating it was harmless (`Sinks.Harmless`). If also the
folders above the outputs were there (`Sinks.Housed`) the whole disk is as it was. Creating it is
not harmless if it holds the records of an earlier run, which are lost then
(`RunPlan.records_lost`).
-/

namespace TraceGen

namespace Sinks

variable {d d' : Disk} {path : Path} {records performance : Option Path} {e : SinkError}

/-! ## Creating one file -/

/-- The folder around a file is there, if its path names one. -/
def Housed (d : Disk) (path : Path) : Prop :=
  ∀ parent, Path.parent? path = some parent → parent ≠ "" → d.hasFolder parent = true

/-- Folders that are there need not be made. -/
theorem Housed.foldersAbove_eq (h : Housed d path) : foldersAbove d path = (true, d) := by
  unfold foldersAbove
  split
  · rfl
  · rename_i parent hparent
    obtain ⟨hparent, hne⟩ := Option.filter_eq_some_iff.1 hparent
    exact Disk.makeFolders_of_hasFolder (h parent hparent (of_decide_eq_true hne))

/-- Making the folders above a file leaves all files alone. -/
theorem sameFile_foldersAbove (kept : List String) (d : Disk) (path : Path) :
    Disk.SameFile kept d (foldersAbove d path).2 :=
  rel_foldersAbove (Disk.SameFile.refl kept) Disk.SameFile.trans
    (Disk.sameFile_of_addFolder? kept) d path

/-- Creating a file leaves the files at other places alone. -/
theorem sameFile_of_createFile {sink : ByteSink} {kept : List String}
    (h : createFile d path = (.ok sink, d')) (hne : d.target path ≠ kept) :
    Disk.SameFile kept d d' := by
  have hfolders := sameFile_foldersAbove kept d path
  rw [← hfolders.toExtends.target] at hne
  exact hfolders.trans (Disk.sameFile_of_write? (write?_of_createFile h).1 hne)

/-- A file that was created is empty. -/
theorem lookup?_of_createFile {sink : ByteSink} (h : createFile d path = (.ok sink, d')) :
    d'.root.lookup? (d.target path) = some (.file []) := by
  obtain ⟨hitem, -, hextends, -⟩ := createFile_spec h
  obtain ⟨place, hplace, hfound⟩ := Option.bind_eq_some_iff.1 hitem
  rwa [Disk.eq_target_of_place? hplace, hextends.target] at hfound

/-- An empty file can be created again without any change, if its folder is there. -/
theorem Housed.eq_of_createFile {sink : ByteSink} (hhoused : Housed d path)
    (h : createFile d path = (.ok sink, d'))
    (hempty : d.root.lookup? (d.target path) = some (.file [])) : d' = d := by
  obtain ⟨hwrite, -⟩ := write?_of_createFile h
  rw [hhoused.foldersAbove_eq] at hwrite
  exact Disk.eq_of_write? hwrite hempty

/-! ## Creating the outputs -/

/-- Creating the file of the records takes nothing away: there is none, or it cannot be created, or
it was there and empty. -/
def Harmless (d : Disk) (records : Option Path) : Prop :=
  ∀ path sink d', records = some path → createFile d path = (.ok sink, d') →
    d.root.lookup? (d.target path) = some (.file [])

/-- Where the outputs cannot be created one file cannot. Before it that of the records has been
created, or nothing has happened. -/
theorem create_error_cases (h : create d records performance = (.error e, d')) :
    ∃ d₁ path, createFile d₁ path = (.error e, d') ∧
      (records = some path ∨ performance = some path) ∧
      (d₁ = d ∧ (∀ path sink d₂, records = some path → createFile d path ≠ (.ok sink, d₂)) ∨
        ∃ path sink, records = some path ∧ createFile d path = (.ok sink, d₁)) := by
  unfold create createOptional at h
  cases records with
  | none =>
    cases performance with
    | none => cases h
    | some other =>
      rcases hother : createFile d other with ⟨result, d₂⟩
      simp only [hother] at h
      cases result with
      | ok sink => cases h
      | error e' =>
        cases h
        exact ⟨d, other, hother, .inr rfl, .inl ⟨rfl, fun _ _ _ => nofun⟩⟩
  | some path =>
    rcases hrecords : createFile d path with ⟨result, d₁⟩
    simp only [hrecords] at h
    cases result with
    | error e' =>
      cases h
      refine ⟨d, path, hrecords, .inl rfl, .inl ⟨rfl, ?_⟩⟩
      rintro _ sink d₂ ⟨⟩ hcreated
      cases hrecords.symm.trans hcreated
    | ok sink =>
      cases performance with
      | none => cases h
      | some other =>
        rcases hother : createFile d₁ other with ⟨result, d₂⟩
        dsimp only [Except.map] at h
        rw [hother] at h
        cases result with
        | ok sink' => cases h
        | error e' =>
          cases h
          exact ⟨d₁, other, hother, .inr rfl, .inr ⟨path, sink, rfl, hrecords⟩⟩

/-- What is left when the outputs cannot be created. Only the file of the records may differ, and it
does unless creating it was harmless. The disk is the same then, if the folders around the outputs
were there. -/
theorem create_error (h : create d records performance = (.error e, d')) :
    d.Extends d' ∧
    (∀ kept, (∀ path, records = some path → d.target path ≠ kept) → Disk.SameFile kept d d') ∧
    (∀ path sink d₁, records = some path → createFile d path = (.ok sink, d₁) →
      d'.root.lookup? (d.target path) = some (.file [])) ∧
    ((∀ kept, Disk.SameFile kept d d') ↔ Harmless d records) ∧
    ((∀ path, records = some path ∨ performance = some path → Housed d path) →
      (d' = d ↔ Harmless d records)) := by
  obtain ⟨d₁, failed, hfailed, houtput, hbefore⟩ := create_error_cases h
  obtain rfl := eq_of_createFile_error hfailed
  have hsame (kept : List String) : Disk.SameFile kept d₁ (foldersAbove d₁ failed).2 :=
    sameFile_foldersAbove kept d₁ failed
  rcases hbefore with ⟨rfl, hnone⟩ | ⟨path, sink, rfl, hcreated⟩
  · -- Nothing has happened before, so that at most folders were made.
    have hharmless : Harmless d₁ records := fun path sink d₂ hrecords hcreated =>
      absurd hcreated (hnone path sink d₂ hrecords)
    refine ⟨(hsame []).toExtends, fun kept _ => hsame kept, fun path sink d₂ hrecords hcreated =>
      absurd hcreated (hnone path sink d₂ hrecords), iff_of_true hsame hharmless,
      fun hhoused => iff_of_true ?_ hharmless⟩
    rw [(hhoused failed houtput).foldersAbove_eq]
  · obtain ⟨-, -, hextends, -⟩ := createFile_spec hcreated
    have hextends := hextends.trans (hsame []).toExtends
    have hother (kept : List String) (hne : d.target path ≠ kept) :
        Disk.SameFile kept d (foldersAbove d₁ failed).2 :=
      (sameFile_of_createFile hcreated hne).trans (hsame kept)
    have hempty := (hsame _).file [] (lookup?_of_createFile hcreated)
    have hfiles : (∀ kept, Disk.SameFile kept d (foldersAbove d₁ failed).2) ↔
        Harmless d (some path) := by
      constructor
      · rintro hall _ sink d₂ ⟨⟩ -
        exact (hall _).back [] hempty
      · intro hharmless kept
        by_cases hkept : d.target path = kept
        · -- The file of the records is empty on both disks.
          subst hkept
          have hold := hharmless path sink d₁ rfl hcreated
          refine ⟨⟨hextends, fun content hfile => ?_⟩, fun content hfile => ?_⟩
          · cases hold.symm.trans hfile
            exact hempty
          · cases hempty.symm.trans hfile
            exact hold
        · exact hother kept hkept
    refine ⟨hextends, fun kept hne => hother kept (hne path rfl), ?_, hfiles, fun hhoused => ?_⟩
    · rintro _ - - ⟨⟩ -
      exact hempty
    constructor
    · intro heq
      exact hfiles.1 fun kept => heq ▸ .refl kept d
    · intro hharmless
      obtain rfl := (hhoused path (.inl rfl)).eq_of_createFile hcreated
        (hharmless path sink d₁ rfl hcreated)
      rw [(hhoused failed houtput).foldersAbove_eq]

end Sinks

/-! ## A run that does not start -/

namespace RunPlan

section Failures

variable {σ : Type} [HasDisk σ] {plan : RunPlan} {available : Nat} {fresh : Random.Generator}
  {collector : Collector σ} {world last : σ} {calls : List Collection} {e : GenerateError}

/-- A run that fails with another error than that of a pool has failed to prepare it. -/
theorem Generates.unprepared_of_error
    (h : plan.Generates available fresh collector world calls (.error e, last))
    (he : ∀ cause, e ≠ .pool cause) :
    calls = [] ∧ ∃ d, plan.prepare fresh (HasDisk.disk world) = (.error e, d) ∧
      last = HasDisk.setDisk d world := by
  generalize hlast : ((.error e, last) : Except GenerateError Summary × σ) = outcome at h
  cases h with
  | unprepared hprepare =>
    cases hlast
    exact ⟨rfl, _, hprepare, rfl⟩
  | @ended modules sinks d calls p result hprepare hrun hend =>
    have herror : (.error e : Except GenerateError Summary) = p.outcome.mapError .pool :=
      congrArg Prod.fst hlast
    cases houtcome : p.outcome with
    | ok summary =>
      rw [houtcome] at herror
      cases herror
    | error cause =>
      rw [houtcome] at herror
      cases herror
      exact absurd rfl (he cause)

/-- Why a pool was not prepared, and what the attempt leaves. -/
theorem prepare_error {d d' : Disk} (h : plan.prepare fresh d = (.error e, d')) :
    (∃ cause, e = .corpus cause ∧ d' = d) ∨
      ∃ cause, e = .sink cause ∧
        Sinks.create d plan.outputPath plan.performancePath = (.error cause, d') := by
  unfold prepare at h
  split at h
  · cases h
    exact .inl ⟨_, rfl, rfl⟩
  · split at h
    · rename_i hcreate
      cases h
      exact .inr ⟨_, rfl, hcreate⟩
    · cases h

/-- What a run leaves that fails before its pool is set to work. No call of the collector is made.
If the modules cannot be read or loaded, the disk is as it was. If an output cannot be created,
folders stay folders, and all files are as they were except that of the records. This one is empty
if it could be created, so that it is as it was exactly if creating it was harmless. Then the whole
disk is as it was, if the folders around the outputs were there. -/
theorem failed_start_leaves [LawfulDisk σ]
    (h : plan.Generates available fresh collector world calls (.error e, last)) :
    (∀ cause, e = .corpus cause → calls = [] ∧ HasDisk.disk last = HasDisk.disk world) ∧
    ∀ cause, e = .sink cause →
      calls = [] ∧ (HasDisk.disk world).Extends (HasDisk.disk last) ∧
      (∀ kept, (∀ path, plan.outputPath = some path → (HasDisk.disk world).target path ≠ kept) →
        Disk.SameFile kept (HasDisk.disk world) (HasDisk.disk last)) ∧
      (∀ path sink d, plan.outputPath = some path →
        Sinks.createFile (HasDisk.disk world) path = (.ok sink, d) →
        (HasDisk.disk last).root.lookup? ((HasDisk.disk world).target path) = some (.file [])) ∧
      ((∀ kept, Disk.SameFile kept (HasDisk.disk world) (HasDisk.disk last)) ↔
        Sinks.Harmless (HasDisk.disk world) plan.outputPath) ∧
      ((∀ path, plan.outputPath = some path ∨ plan.performancePath = some path →
          Sinks.Housed (HasDisk.disk world) path) →
        (HasDisk.disk last = HasDisk.disk world ↔
          Sinks.Harmless (HasDisk.disk world) plan.outputPath)) := by
  constructor
  · rintro cause rfl
    obtain ⟨rfl, d, hprepare, rfl⟩ := h.unprepared_of_error fun _ => nofun
    rw [LawfulDisk.disk_setDisk]
    rcases prepare_error hprepare with ⟨_, -, rfl⟩ | ⟨_, ⟨⟩, -⟩
    exact ⟨rfl, rfl⟩
  · rintro cause rfl
    obtain ⟨rfl, d, hprepare, rfl⟩ := h.unprepared_of_error fun _ => nofun
    rw [LawfulDisk.disk_setDisk]
    rcases prepare_error hprepare with ⟨_, ⟨⟩, -⟩ | ⟨_, -, hcreate⟩
    exact ⟨rfl, Sinks.create_error hcreate⟩

end Failures

/-! ## A file of records from an earlier run -/

namespace Sample

/-- A run whose file of performance lines cannot be created, because its name is that of a
folder. -/
def blocked : RunPlan :=
  { plan with performancePath := some "c" }

/-- A machine on which there is a file of records, empty or with a byte. -/
def earlier (empty : Bool) : Host :=
  { host with disk := host.disk.put ["t.rec"] (.file (if empty then [] else [1])) }

/-- The module is drawn and loaded. -/
theorem loadSampled_blocked (fresh : Random.Generator) (empty : Bool) :
    blocked.loadSampled fresh (earlier empty).disk =
      .ok [⟨"a", [], none, spec.commandLine⟩] := by
  have hread : Corpus.read (earlier empty).disk blocked.dataPath blocked.moduleFilter
      blocked.problem.rules = .ok ⟨"c", [spec]⟩ := by
    revert empty
    decide +kernel
  have hload : (Corpus.mk "c" [spec]).loadModule (earlier empty).disk spec =
      .ok ⟨"a", [], none, spec.commandLine⟩ := by
    revert empty
    decide +kernel
  exact loadSampled_of_single hread (by decide +kernel) hload

/-- The run is not prepared. -/
theorem prepare_blocked (fresh : Random.Generator) (empty : Bool) :
    blocked.prepare fresh (earlier empty).disk = (.error (.sink (.create "c" "")),
      (Sinks.create (earlier empty).disk (some "t.rec") (some "c")).2) := by
  unfold prepare
  rw [loadSampled_blocked]
  cases empty <;> rfl

end Sample

/-- The disk is as it was if the file of the records was there and empty. -/
theorem failed_start_leaves_of_empty_records :
    ∃ last, Sample.blocked.Generates 1 (.ofSeed 7) Sample.collector (Sample.earlier true) []
        (.error (.sink (.create "c" "")), last) ∧ last.disk = (Sample.earlier true).disk := by
  have hgenerates : Sample.blocked.Generates 1 (.ofSeed 7) Sample.collector (Sample.earlier true)
      [] (.error (.sink (.create "c" "")), _) :=
    .unprepared (Sample.prepare_blocked (.ofSeed 7) true)
  obtain ⟨-, hsink⟩ := failed_start_leaves hgenerates
  obtain ⟨-, -, -, -, -, hsame⟩ := hsink _ rfl
  refine ⟨_, hgenerates, (hsame ?_).2 ?_⟩
  · have htop : ∀ path ∈ ["t.rec", "c"], Path.parent? path = some "" := by decide +kernel
    rintro path hpath parent hparent hne
    have hmem : path ∈ ["t.rec", "c"] := by
      rcases hpath with ⟨⟨⟩⟩ | ⟨⟨⟩⟩
      · exact List.mem_cons_self
      · exact List.mem_cons_of_mem _ List.mem_cons_self
    rw [htop path hmem] at hparent
    exact absurd (Option.some.inj hparent).symm hne
  · rintro _ - - ⟨⟩ -
    rfl

/-- The records of an earlier run are lost although the run fails before its pool is set to work. -/
theorem records_lost :
    ∃ last, Sample.blocked.generate 1 (.ofSeed 7) Sample.collector (Sample.earlier false) =
        (.error (.sink (.create "c" "")), last) ∧
      (Sample.earlier false).disk.read? "t.rec" = some [1] ∧
      last.disk.read? "t.rec" = some [] := by
  have hgenerate : Sample.blocked.generate 1 (.ofSeed 7) Sample.collector (Sample.earlier false) =
      (.error (.sink (.create "c" "")), HasDisk.setDisk
        (Sinks.create (Sample.earlier false).disk (some "t.rec") (some "c")).2
        (Sample.earlier false)) := by
    unfold generate
    rw [show HasDisk.disk (Sample.earlier false) = (Sample.earlier false).disk from rfl,
      Sample.prepare_blocked]
  exact ⟨_, hgenerate, by decide +kernel, by decide +kernel⟩

end RunPlan

end TraceGen
