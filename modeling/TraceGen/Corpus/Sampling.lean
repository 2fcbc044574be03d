import TraceGen.Corpus.Basic
import TraceGen.Random.Shuffle

/-!
# Sampling from a corpus

A sample is the beginning of a rearrangement of all modules, so that no module is drawn twice. With
`sort` the large modules come first, so that no worker is left with one of them at the end (§4.4 of
`SPEC_FULL.md`), and modules of one size keep their order.
-/

namespace TraceGen.Corpus

variable {σ : Type}

/-- Orders modules by size, the largest first. -/
def bySize (modules : List ModuleSpec) : List ModuleSpec :=
  modules.mergeSort (fun a b => b.size ≤ a.size)

/-- Draws `k` modules, or all if there are fewer. -/
def sample (c : Corpus) (k : Nat) (sort : Bool) (next : σ → UInt32 × σ) (s : σ) :
    List ModuleSpec × σ :=
  let (shuffled, s) := Random.shuffle next c.modules s
  let drawn := shuffled.take k
  (if sort then bySize drawn else drawn, s)

end TraceGen.Corpus
