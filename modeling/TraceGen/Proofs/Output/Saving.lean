import TraceGen.Output.Sinks
import TraceGen.Proofs.Files.Frame
import TraceGen.Proofs.Output.RecordCodec

/-!
# The files of the outputs

The outputs are created empty (`Sinks.create_spec`), and at the end what has reached them is written
to their files. `Sinks.read?_save` says that the file of the records then holds what has reached
their sink. The file of the performance lines is created and written after it and must be another
one.
-/

namespace TraceGen

namespace Sinks

variable {d d' : Disk} {path : Path} {kept : List String}

/-- Makes the folders above a file, and says whether they are there then. -/
def foldersAbove (d : Disk) (path : Path) : Bool × Disk :=
  match (Path.parent? path).filter (· ≠ "") with
  | none => (true, d)
  | some parent => d.makeFolders parent

/-- What every new folder keeps is kept when the folders above a file are made. -/
theorem rel_foldersAbove {R : Disk → Disk → Prop} (hrefl : ∀ d, R d d)
    (htrans : ∀ {d d' d''}, R d d' → R d' d'' → R d d'')
    (hadd : ∀ {p d d'}, d.addFolder? p = some d' → R d d') (d : Disk) (path : Path) :
    R d (foldersAbove d path).2 := by
  unfold foldersAbove
  split
  · exact hrefl d
  · exact Disk.rel_addFolders hrefl htrans hadd _ _ d

/-- A file is created after the folders above it. -/
theorem write?_of_createFile {sink : ByteSink} (h : createFile d path = (.ok sink, d')) :
    (foldersAbove d path).2.write? path [] = some d' ∧ sink.received = [] := by
  unfold createFile at h
  change (if !(foldersAbove d path).1 then _ else _) = _ at h
  split at h
  · cases h
  · split at h
    · cases h
    · rename_i hwrite
      cases h
      exact ⟨hwrite, rfl⟩

/-- Where a file cannot be created no more than the folders above it has been made. -/
theorem eq_of_createFile_error {e : SinkError} (h : createFile d path = (.error e, d')) :
    d' = (foldersAbove d path).2 := by
  unfold createFile at h
  change (if !(foldersAbove d path).1 then _ else _) = _ at h
  split at h
  · exact (Prod.mk.inj h).2.symm
  · split at h
    · exact (Prod.mk.inj h).2.symm
    · cases h

/-- A file that was created is empty, and nothing has been given to its sink. Creating it keeps the
files at other places. -/
theorem createFile_spec {sink : ByteSink} (h : createFile d path = (.ok sink, d')) :
    d'.item? path = some (.file []) ∧ sink.received = [] ∧ d.Extends d' ∧
      ∀ kept, d.target path ≠ kept → Disk.Keeps kept d d' := by
  obtain ⟨hwrite, hnew⟩ := write?_of_createFile h
  have hfolders (kept : List String) : Disk.Keeps kept d (foldersAbove d path).2 :=
    rel_foldersAbove (Disk.Keeps.refl kept) Disk.Keeps.trans (Disk.keeps_of_addFolder? kept) d path
  have hextends : d.Extends (foldersAbove d path).2 := (hfolders []).toExtends
  refine ⟨Disk.item?_of_write? hwrite, hnew,
    hextends.trans (Disk.extends_of_write? hwrite), fun kept hne => ?_⟩
  rw [← hextends.target] at hne
  exact (hfolders kept).trans (Disk.keeps_of_write? hwrite hne)

/-- Created outputs have an empty file of records and a stream of records that begins there. -/
theorem create_spec {performance : Option Path} {sinks : Sinks}
    (h : create d (some path) performance = (.ok sinks, d'))
    (hother : ∀ other, performance = some other → d.target other ≠ d.target path) :
    d'.item? path = some (.file []) ∧ d'.here = d.here ∧
      ∃ sink, sinks.records = some (.start sink) ∧ sink.received = [] := by
  unfold create createOptional at h
  rcases hrecords : createFile d path with ⟨result, d₁⟩
  simp only [hrecords] at h
  cases result with
  | error e => cases h
  | ok sink =>
    obtain ⟨hfile, hnew, hextends, -⟩ := createFile_spec hrecords
    cases performance with
    | none =>
      cases h
      exact ⟨hfile, hextends.here, sink, rfl, hnew⟩
    | some other =>
      rcases hperformance : createFile d₁ other with ⟨result, d₂⟩
      dsimp only [Except.map] at h
      rw [hperformance] at h
      cases result with
      | error e => cases h
      | ok sink' =>
        cases h
        -- The second file is at another place, so the first one is still there.
        have hne : d₁.target other ≠ d₁.target path := by
          rw [hextends.target, hextends.target]
          exact hother other rfl
        obtain ⟨-, -, hextends', hkeeps⟩ := createFile_spec hperformance
        exact ⟨(hkeeps _ hne).item? hfile, hextends'.here.trans hextends.here, sink, rfl, hnew⟩

/-- The file of a sink that was empty holds what has reached the sink. -/
theorem item?_saveFile (h : d.item? path = some (.file [])) (content : Bytes) :
    (saveFile d path content).item? path = some (.file content) := by
  have hold : d.read? path = some [] := by
    rw [Disk.read?, h]
  obtain ⟨d', hwrite⟩ := Disk.exists_write? content h
  unfold saveFile
  simp only [hold, Option.getD_some, List.drop_nil, List.append_nil, hwrite]
  exact Disk.item?_of_write? hwrite

/-- Saving a file goes on from a disk. -/
theorem extends_saveFile (d : Disk) (path : Path) (content : Bytes) :
    d.Extends (saveFile d path content) := by
  unfold saveFile
  dsimp only
  cases hwrite : d.write? path (content ++ ((d.read? path).getD []).drop content.length) with
  | none => exact .refl d
  | some d' => exact Disk.extends_of_write? hwrite

/-- Saving a file keeps the files at other places. -/
theorem keeps_saveFile (hne : d.target path ≠ kept) (content : Bytes) :
    Disk.Keeps kept d (saveFile d path content) := by
  unfold saveFile
  dsimp only
  cases hwrite : d.write? path (content ++ ((d.read? path).getD []).drop content.length) with
  | none => exact .refl kept d
  | some d' => exact Disk.keeps_of_write? hwrite hne

/-- The file of the records holds what has reached their sink. -/
theorem read?_save {s : Sinks} {w : RecordSink} {performance : Option Path}
    (hrecords : s.records = some w) (hempty : d.item? path = some (.file []))
    (hother : ∀ other, performance = some other → d.target other ≠ d.target path) :
    (s.save d (some path) performance).read? path = some w.sink.content := by
  have hfile := item?_saveFile hempty w.sink.content
  have hextends := extends_saveFile d path w.sink.content
  suffices hitem : (s.save d (some path) performance).item? path =
      some (.file w.sink.content) by
    rw [Disk.read?, hitem]
  unfold save
  rw [hrecords]
  dsimp only
  split
  · -- The performance lines are saved after the records, in a file of their own.
    rename_i other v _
    have hne : (saveFile d path w.sink.content).target other ≠
        (saveFile d path w.sink.content).target path := by
      rw [hextends.target, hextends.target]
      exact hother other rfl
    exact (keeps_saveFile hne v.sink.content).item? hfile
  · exact hfile

end Sinks

end TraceGen
