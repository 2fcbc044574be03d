import TraceGen.Corpus.FlagRules

/-!
# Optimization problems

A problem says how command lines are changed, how a compiler is asked for a training log and how it
is given a policy. The registry knows problems by name. The problems that it knows from the start
are those of §10.2 of `SPEC_FULL.md`.
-/

namespace TraceGen

/-- Stands for the path of a training log. -/
def logPlaceholder : String := "\x7blog_path\x7d"

/-- Stands for the path of a policy. -/
def policyPlaceholder : String := "\x7bpolicy_path\x7d"

/-- What a compiler needs to know about an optimization problem. -/
structure Problem where
  /-- The name. -/
  name : String
  /-- How command lines are changed. -/
  rules : FlagRules
  /-- Options that ask for a training log. -/
  logFlags : List String
  /-- Options that name a policy. -/
  policyFlags : List String
deriving DecidableEq

/-- Problems by name. -/
structure ProblemRegistry where
  /-- The problems. -/
  problems : KeyMap Problem

namespace ProblemRegistry

/-- A problem whose options follow `-mllvm`; debug information in files of its own is dropped. -/
def preset (name add log policy : String) : Problem :=
  ⟨name, ⟨["-mllvm", add], ["-split-dwarf-file", "-split-dwarf-output"], KeyMap.empty⟩,
    ["-mllvm", log ++ logPlaceholder], ["-mllvm", policy ++ policyPlaceholder]⟩

/-- Adds a problem; it takes the place of one with the same name. -/
def register (problem : Problem) (r : ProblemRegistry) : ProblemRegistry :=
  ⟨r.problems.insert problem.name problem⟩

/-- The problem with a name. -/
def get? (r : ProblemRegistry) (name : String) : Option Problem :=
  r.problems.get? name

/-- The names in order. -/
def names (r : ProblemRegistry) : List String :=
  r.problems.keys

/-- The problems that are always known. -/
def standard : ProblemRegistry :=
  (ProblemRegistry.mk KeyMap.empty)
    |>.register (preset "inlining" "-enable-ml-inliner=development" "-training-log="
      "-ml-inliner-model-under-training=")
    |>.register (preset "regalloc" "-regalloc-enable-advisor=development"
      "-regalloc-training-log=" "-regalloc-model=")

end ProblemRegistry

end TraceGen
