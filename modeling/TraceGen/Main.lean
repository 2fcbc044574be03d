import TraceGen.Program

/-!
# The executable

The files that a command names are read into a disk, the command is carried out on it, and its
output files are written back. No programs are launched, so every compile reports that its compiler
cannot be launched.
-/

namespace TraceGen.Executable

open CommandLine

/-- The files and folders that a command reads. -/
def inputs : Command → List Path
  | .generate dataPath o =>
    dataPath :: o.configFiles ++ (o.policyPath.filter (· ≠ "")).toList ++
      o.outputPath.toList ++ o.performancePath.toList
  | .inspect path _ => [path]

/-- The files that a command writes. -/
def outputs : Command → List Path
  | .generate _ o => o.outputPath.toList ++ o.performancePath.toList
  | .inspect .. => []

/-- Reads a file, or a folder with all that is in it, into a disk; what cannot be read is absent. -/
partial def readInto (d : Disk) (path : Path) : IO Disk := do
  try
    return (d.writeDeep path (← IO.FS.readBinFile path).toList).2
  catch _ =>
    try
      let entries ← (← IO.FS.realPath path).readDir
      entries.foldlM (fun d entry => readInto d (Path.join path entry.fileName))
        (d.makeFolders path).2
    catch _ => return d

/-- Writes a file of a disk, and the folders above it. -/
def writeOut (d : Disk) (path : Path) : IO Unit := do
  match d.read? path with
  | none => return
  | some content =>
    if let some parent := Path.parent? path then
      if parent ≠ "" then IO.FS.createDirAll parent
    IO.FS.writeBinFile path content.toByteArray

/-- Runs the program and gives its exit code. -/
def run (arguments : List String) : IO UInt32 := do
  let command? := (CommandLine.parse arguments).toOption.map (·.command)
  let d ← ((command?.map inputs).getD []).foldlM readInto (Disk.empty.makeFolders "/tmp").2
  let seed ← IO.rand 0 (UInt64.size - 1)
  let host : Host := ⟨d, fun _ => none, fun n => s!"/tmp/trace-{n}", 0, []⟩
  let (exit, host) := Program.execute 1 (.ofSeed seed.toUInt64) arguments host
  ((command?.map outputs).getD []).forM (writeOut host.disk)
  IO.print exit.output
  IO.eprint exit.complaint
  return exit.code.toUInt32

end TraceGen.Executable

/-- Runs the program. -/
def main (arguments : List String) : IO UInt32 :=
  TraceGen.Executable.run arguments
