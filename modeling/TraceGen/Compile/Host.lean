import TraceGen.Files.Disk

/-!
# The machine that compilers run on

A `Host` has a disk and compilers. What a compiler does is known by what a run of it leaves behind:
the training log in its scratch folder, what it printed as an error, how it ended and how long it
took. A run may depend on its arguments and on the number of runs before it.
-/

namespace TraceGen

/-- What a run of a compiler leaves behind. -/
structure CompilerRun where
  /-- What it wrote to the training log, if it wrote one. -/
  log : Option Bytes
  /-- What it printed as an error. -/
  stderr : Bytes
  /-- Its exit code; a compiler that was killed has none. -/
  code : Option Int
  /-- How many milliseconds it took. -/
  duration : Nat

/-- A compiler: what its run with a number does with arguments. -/
abbrev Compiler := Nat → List String → CompilerRun

/-- The machine that compilers run on. -/
structure Host where
  /-- The files. -/
  disk : Disk
  /-- The compiler at a path, if it can be launched. -/
  compiler? : Path → Option Compiler
  /-- The scratch folder of the compile with a number. -/
  scratch : Nat → Path
  /-- The number of compiles that were begun. -/
  compiles : Nat
  /-- The arguments of the runs so far, the latest first. -/
  runs : List (List String)

namespace Host

/-- The arguments of the runs so far, in order. -/
def calls (h : Host) : List (List String) :=
  h.runs.reverse

/-- Whether arguments can be handed to a program; a NUL would end them. -/
def canPass (args : List String) : Bool :=
  args.all fun arg => !arg.toList.contains '\x00'

/-- Launches a compiler, which leaves its log at `logPath`. -/
def launch (h : Host) (path : Path) (args : List String) (logPath : Path) :
    Option CompilerRun × Host :=
  match h.compiler? path with
  | none => (none, h)
  | some compiler =>
    if canPass args then
      let run := compiler h.runs.length args
      let disk := match run.log with
        | none => h.disk
        | some log => (h.disk.write? logPath log).getD h.disk
      (some run, { h with disk := disk, runs := args :: h.runs })
    else (none, h)

end Host

end TraceGen
