import Mathlib.Data.List.FinRange
import TraceGen.Proofs.Generation.Agreement

/-!
# Samples are drawn without replacement

Shuffling rearranges and does not look at what it rearranges (`Random.perm_shuffle`,
`Random.shuffle_map`). So it gives a corpus an order of its places, which depends on the source of
words and the number of modules only, and a sample of `k` modules is what stands at the first `k` of
them (`Corpus.sample_unsorted`). Sorting moves places too (`Corpus.exists_sorted`).

`RunPlan.sampling_without_replacement` adds what this means for the modules that a pool is given.
-/

namespace TraceGen

namespace Random

variable {σ α β : Type} (next : σ → UInt32 × σ)

/-! ## Shuffling rearranges -/

/-- Changing the items of an array and swapping two of them can be exchanged. -/
theorem map_swapIfInBounds (f : α → β) (xs : Array α) (i j : Nat) :
    (xs.swapIfInBounds i j).map f = (xs.map f).swapIfInBounds i j := by
  unfold Array.swapIfInBounds
  simp only [Array.size_map]
  split
  · split
    · simp only [Array.swap_def, Array.map_set, Array.getElem_map]
    · rfl
  · rfl

/-- Swapping rearranges. -/
theorem perm_swapIfInBounds (xs : Array α) (i j : Nat) :
    (xs.swapIfInBounds i j).toList.Perm xs.toList := by
  unfold Array.swapIfInBounds
  split
  · split
    · exact (Array.swap_perm _ _).toList
    · exact .refl _
  · exact .refl _

/-- Swaps are drawn without looking at the items. -/
theorem shuffleFrom_map (f : α → β) (n : Nat) (c : Choices) (xs : Array α) (s : σ) :
    shuffleFrom next n c (xs.map f) s =
      ((shuffleFrom next n c xs s).1.map f, (shuffleFrom next n c xs s).2) := by
  induction n generalizing c xs s with
  | zero => rfl
  | succ n ih =>
    unfold shuffleFrom
    dsimp only
    rw [Array.size_map, ← map_swapIfInBounds, ih]

/-- Swaps rearrange. -/
theorem perm_shuffleFrom (n : Nat) (c : Choices) (xs : Array α) (s : σ) :
    (shuffleFrom next n c xs s).1.toList.Perm xs.toList := by
  induction n generalizing c xs s with
  | zero => exact .refl _
  | succ n ih => exact (ih _ _ _).trans (perm_swapIfInBounds ..)

/-- Shuffling does not look at the items. -/
theorem shuffle_map (f : α → β) (items : List α) (s : σ) :
    shuffle next (items.map f) s =
      ((shuffle next items s).1.map f, (shuffle next items s).2) := by
  unfold shuffle
  rw [List.length_map]
  split
  · rfl
  · dsimp only
    rw [← List.map_toArray, shuffleFrom_map, Array.toList_map]

/-- Shuffling rearranges. -/
theorem perm_shuffle (items : List α) (s : σ) : (shuffle next items s).1.Perm items := by
  unfold shuffle
  split
  · exact .refl _
  · exact perm_shuffleFrom ..

end Random

/-! ## Orders of size -/

/-- Some items in an order of size: the larger ones first, and items of one size in the order in
which they were. -/
structure SortedBy {α : Type} (size : α → Nat) (items sorted : List α) : Prop where
  /-- The items are the same. -/
  perm : sorted.Perm items
  /-- No item is larger than one before it. -/
  sizes : sorted.Pairwise fun a b => size b ≤ size a
  /-- Items of one size keep their order. -/
  stable : ∀ n, (sorted.filter fun a => size a = n) = items.filter fun a => size a = n

/-- Sorting by size gives an order of size. -/
theorem sortedBy_mergeSort {α : Type} (size : α → Nat) (items : List α) :
    SortedBy size items (items.mergeSort fun a b => size b ≤ size a) := by
  have htrans : ∀ a b c, decide (size b ≤ size a) = true → decide (size c ≤ size b) = true →
      decide (size c ≤ size a) = true := by
    intro a b c hab hbc
    exact decide_eq_true (Nat.le_trans (of_decide_eq_true hbc) (of_decide_eq_true hab))
  have htotal : ∀ a b, (decide (size b ≤ size a) || decide (size a ≤ size b)) = true := by
    intro a b
    rw [Bool.or_eq_true, decide_eq_true_eq, decide_eq_true_eq]
    exact Nat.le_total _ _
  have hperm := List.mergeSort_perm items fun a b => size b ≤ size a
  refine ⟨hperm, (List.pairwise_mergeSort htrans htotal items).imp of_decide_eq_true, fun n => ?_⟩
  -- The items of one size may stand in any order, so that sorting leaves theirs.
  have hsame : (items.filter fun a => size a = n).Pairwise fun a b => decide (size b ≤ size a) := by
    refine List.pairwise_of_forall_mem_list fun a ha b hb => decide_eq_true ?_
    rw [of_decide_eq_true (List.mem_filter.1 ha).2, of_decide_eq_true (List.mem_filter.1 hb).2]
  have hsub := (List.sublist_mergeSort htrans htotal hsame List.filter_sublist).filter
    fun a => size a = n
  simp only [List.filter_filter, Bool.and_self] at hsub
  exact (hsub.eq_of_length (hperm.filter _).length_eq.symm).symm

/-- The size of a file that can be read is that of its content. -/
theorem Disk.size?_of_read? {d : Disk} {p : Path} {content : Bytes}
    (h : d.read? p = some content) : d.size? p = some content.length := by
  unfold read? at h
  unfold size?
  split at h
  · cases h
    simp only [*]
  · cases h

namespace Corpus

variable {σ : Type} {next : σ → UInt32 × σ}

/-! ## Samples -/

/-- The places of the modules in the order in which they are drawn. -/
def order (c : Corpus) (next : σ → UInt32 × σ) (s : σ) : List (Fin c.modules.length) :=
  (Random.shuffle next (List.finRange c.modules.length) s).1

/-- The size of the module at a place. -/
def sizeAt (c : Corpus) (i : Fin c.modules.length) : Nat :=
  (c.modules.get i).size

/-- Every place is drawn once. -/
theorem perm_order (c : Corpus) (next : σ → UInt32 × σ) (s : σ) :
    (c.order next s).Perm (List.finRange c.modules.length) :=
  Random.perm_shuffle next _ s

/-- There are as many places as modules. -/
theorem length_order (c : Corpus) (next : σ → UInt32 × σ) (s : σ) :
    (c.order next s).length = c.size :=
  (c.perm_order next s).length_eq.trans List.length_finRange

/-- The modules are shuffled by shuffling their places. -/
theorem shuffle_modules (c : Corpus) (next : σ → UInt32 × σ) (s : σ) :
    (Random.shuffle next c.modules s).1 = (c.order next s).map c.modules.get := by
  have hplaces := congrArg Prod.fst
    (Random.shuffle_map next c.modules.get (List.finRange c.modules.length) s)
  rwa [List.map_get_finRange] at hplaces

/-- A sample is what stands at the first places of the order. -/
theorem sample_unsorted (c : Corpus) (k : Nat) (next : σ → UInt32 × σ) (s : σ) :
    (c.sample k false next s).1 = ((c.order next s).take k).map c.modules.get := by
  rw [List.map_take, ← shuffle_modules]
  rfl

/-- A sorted sample is the sample in an order of size. -/
theorem sample_sorted (c : Corpus) (k : Nat) (next : σ → UInt32 × σ) (s : σ) :
    (c.sample k true next s).1 = bySize (c.sample k false next s).1 :=
  rfl

/-- Modules are sorted by sorting their places. -/
theorem exists_sorted (c : Corpus) (places : List (Fin c.modules.length)) :
    ∃ sorted, SortedBy c.sizeAt places sorted ∧
      bySize (places.map c.modules.get) = sorted.map c.modules.get := by
  have hmap : ∀ i ∈ places, ∀ j ∈ places, decide (c.sizeAt j ≤ c.sizeAt i) =
      decide ((c.modules.get j).size ≤ (c.modules.get i).size) := fun _ _ _ _ => rfl
  exact ⟨_, sortedBy_mergeSort c.sizeAt places, (List.map_mergeSort hmap).symm⟩

/-- How the samples of a corpus hang together whose places are drawn in one order. -/
structure Samples (c : Corpus) (next : σ → UInt32 × σ) (s : σ)
    (order : List (Fin c.modules.length)) : Prop where
  /-- The order has every place once. -/
  perm : order.Perm (List.finRange c.modules.length)
  /-- A sample is what stands at its first places. -/
  unsorted : ∀ k, (c.sample k false next s).1 = (order.take (min k c.size)).map c.modules.get
  /-- It has as many modules as are asked for, or all. -/
  length : ∀ k, (c.sample k false next s).1.length = min k c.size
  /-- A smaller sample is the beginning of a larger one. -/
  nested : ∀ k k', k ≤ k' → (c.sample k false next s).1 <+: (c.sample k' false next s).1
  /-- A sorted sample is the sample in an order of size. -/
  sorted : ∀ k, SortedBy ModuleSpec.size (c.sample k false next s).1 (c.sample k true next s).1
  /-- It is what stands at the same places. -/
  places : ∀ k, ∃ sorted, SortedBy c.sizeAt (order.take (min k c.size)) sorted ∧
    (c.sample k true next s).1 = sorted.map c.modules.get

/-- Samples are drawn in the order of the shuffled places. -/
theorem samples_order (c : Corpus) (next : σ → UInt32 × σ) (s : σ) :
    c.Samples next s (c.order next s) := by
  have htake (k : Nat) : (c.order next s).take (min k c.size) = (c.order next s).take k := by
    rw [← c.length_order next s, ← List.take_eq_take_min]
  refine ⟨c.perm_order next s, fun k => ?_, fun k => ?_, fun k k' hk => ?_, fun k => ?_,
    fun k => ?_⟩
  · rw [htake, sample_unsorted]
  · rw [sample_unsorted, List.length_map, List.length_take, length_order]
  · rw [sample_unsorted, sample_unsorted]
    exact (List.take_prefix_take_left hk).map _
  · exact sortedBy_mergeSort ModuleSpec.size _
  · rw [htake, sample_sorted, sample_unsorted]
    exact c.exists_sorted _

/-! ## Sizes -/

variable {d : Disk} {root : Path} {filter : Option NameFilter} {rules : FlagRules} {c : Corpus}
  {spec : ModuleSpec} {loaded : LoadedModule}

/-- On the disk that a corpus was read from, the size of a module is that of its code. -/
theorem length_ir (hread : read d root filter rules = .ok c) (hspec : spec ∈ c.modules)
    (hload : c.loadModule d spec = .ok loaded) : loaded.ir.length = spec.size := by
  obtain ⟨rfl, description, -, hmodules⟩ := read_eq_ok_iff.1 hread
  obtain ⟨i, hi, rfl⟩ := List.getElem_of_mem hspec
  have hmade := hmodules.get (hmodules.length_eq.symm ▸ hi) hi
  obtain ⟨size, given, rewritten, hsize, -, -, hmade⟩ := readModule_eq_ok_iff.1 hmade
  obtain ⟨ir, index, hir, -, rfl⟩ := loadModule_eq_ok_iff.1 hload
  rw [List.get_eq_getElem] at hmade
  rw [hmade] at hir ⊢
  exact Option.some.inj ((Disk.size?_of_read? hir).symm.trans hsize)

end Corpus

namespace RunPlan

/-! ## What a pool is seeded with -/

/-- A run works on the modules at some places of a corpus. -/
structure Seeding (plan : RunPlan) (fresh : Random.Generator) (d : Disk) (c : Corpus)
    (places : List (Fin c.modules.length)) (loaded : List LoadedModule) : Prop where
  /-- The corpus is the one that the plan names. -/
  read : Corpus.read d plan.dataPath plan.moduleFilter plan.problem.rules = .ok c
  /-- The modules at the places are drawn from it. -/
  drawn : plan.draw fresh c = places.map c.modules.get
  /-- As many places are drawn as are asked for, or all. -/
  length : places.length = min (plan.sampledModules c.size) c.size
  /-- No place is drawn twice. -/
  nodup : places.Nodup
  /-- No module is larger than one before it. -/
  sizes : places.Pairwise fun i j => c.sizeAt j ≤ c.sizeAt i
  /-- The modules at the places are loaded in order. -/
  loads : List.Forall₂ (fun i m => c.loadModule d (c.modules.get i) = .ok m) places loaded
  /-- Their codes stand in the order of size too. -/
  codes : loaded.Pairwise fun m m' => m'.ir.length ≤ m.ir.length

/-- A run works on modules that are drawn without replacement, the largest first. -/
theorem exists_seeding {plan : RunPlan} {fresh : Random.Generator} {d : Disk}
    {loaded : List LoadedModule} (h : plan.loadSampled fresh d = .ok loaded) :
    ∃ c places, plan.Seeding fresh d c places loaded := by
  obtain ⟨c, hread, hload⟩ := Except.bind_eq_ok_iff.1 h
  have hsamples := c.samples_order Random.Generator.next (plan.generator fresh)
  obtain ⟨places, hsorted, hdrawn⟩ := hsamples.places (plan.sampledModules c.size)
  have hnodup : places.Nodup := by
    refine hsorted.perm.nodup_iff.2 (List.Nodup.sublist (List.take_sublist _ _) ?_)
    exact hsamples.perm.nodup_iff.2 (List.nodup_finRange _)
  have hloads : List.Forall₂ (fun i m => c.loadModule d (c.modules.get i) = .ok m)
      places loaded := by
    have hall := Except.mapM_eq_ok_iff.1 hload
    rw [show plan.draw fresh c = _ from hdrawn] at hall
    exact List.forall₂_map_left_iff.1 hall
  -- The sizes in the corpus are those of the codes that are loaded, so that one order is the other.
  have hcodes : places.map c.sizeAt = loaded.map fun m => m.ir.length := by
    rw [← List.forall₂_eq_eq_eq, List.forall₂_map_left_iff, List.forall₂_map_right_iff]
    exact hloads.imp fun i m hm => (Corpus.length_ir hread (List.get_mem _ i) hm).symm
  refine ⟨c, places, hread, hdrawn, ?_, hnodup, hsorted.sizes, hloads, ?_⟩
  · have hlength := congrArg List.length hdrawn
    rw [List.length_map] at hlength
    exact hlength.symm.trans (plan.length_draw fresh c)
  · have hsizes := hsorted.sizes
    rw [← List.pairwise_map (f := c.sizeAt) (R := fun n n' => n' ≤ n), hcodes] at hsizes
    exact List.pairwise_map.1 hsizes

/-- Samples are drawn without replacement, from one order of the places for one source of words: a
sample is what stands at the first places, so that a smaller one is the beginning of a larger one,
and a sorted sample is the same in an order of size. The pool is seeded with modules of different
places, the largest first. -/
theorem sampling_without_replacement {σ : Type} (c : Corpus) (next : σ → UInt32 × σ) (s : σ) :
    (∃ order, c.Samples next s order) ∧
      ∀ (plan : RunPlan) (fresh : Random.Generator) (d : Disk) (loaded : List LoadedModule),
        plan.loadSampled fresh d = .ok loaded →
        (∃ c places, plan.Seeding fresh d c places loaded) ∧
          ∀ {τ : Type} (available : Nat) (sinks : Sinks) (world : τ),
            (plan.pool available loaded sinks world).shared.queue = loaded :=
  ⟨⟨_, c.samples_order next s⟩, fun _ _ _ _ h => ⟨exists_seeding h, fun _ _ _ => rfl⟩⟩

namespace Sample

/-- A disk with a corpus that names one of its modules twice. -/
def repeating : Disk where
  root := .folder [("c", .folder
    [("corpus_description.json",
      .file (Text.encode "\x7b\"modules\": [\"a\", \"b\", \"a\"]\x7d")),
      ("a.bc", .file [1]), ("a.cmd", .file (Text.encode "-c")),
      ("b.bc", .file [1, 2]), ("b.cmd", .file (Text.encode "-c"))])]
  here := []

/-- The module that is named twice. -/
def repeated : ModuleSpec :=
  ⟨"a", 1, withPlaceholders false ["-c"], false⟩

/-- The other module, which is larger. -/
def larger : ModuleSpec :=
  ⟨"b", 2, withPlaceholders false ["-c"], false⟩

/-- The larger module is drawn last, and loaded first. -/
theorem loadSampled_repeating :
    plan.loadSampled (.ofSeed 7) repeating =
      .ok [⟨"b", [1, 2], none, larger.commandLine⟩, ⟨"a", [1], none, repeated.commandLine⟩,
        ⟨"a", [1], none, repeated.commandLine⟩] := by
  have hread : Corpus.read repeating plan.dataPath plan.moduleFilter plan.problem.rules =
      .ok ⟨"c", [repeated, larger, repeated]⟩ := by
    decide +kernel
  have hshuffle : (Random.shuffle Random.Generator.next [repeated, larger, repeated]
      (.ofSeed 7)).1 = [repeated, repeated, larger] := by
    decide +kernel
  have hsort : Corpus.bySize [repeated, repeated, larger] = [larger, repeated, repeated] := by
    simp [Corpus.bySize, List.mergeSort, List.MergeSort.Internal.splitInTwo, repeated, larger]
  have hcount : plan.sampledModules 3 = 3 := by
    decide +kernel
  have hdraw : plan.draw (.ofSeed 7) ⟨"c", [repeated, larger, repeated]⟩ =
      [larger, repeated, repeated] := by
    show Corpus.bySize ((Random.shuffle Random.Generator.next [repeated, larger, repeated]
      (.ofSeed 7)).1.take (plan.sampledModules 3)) = _
    rw [hshuffle, hcount]
    exact hsort
  refine Except.bind_eq_ok_iff.2 ⟨_, hread, ?_⟩
  rw [hdraw]
  decide +kernel

end Sample

/-- Two modules of one name are at different places, behind a larger one. -/
theorem sampling_without_replacement_of_repeating :
    ∃ c places loaded, Sample.plan.loadSampled (.ofSeed 7) Sample.repeating = .ok loaded ∧
      loaded.map LoadedModule.name = ["b", "a", "a"] ∧
      Sample.plan.Seeding (.ofSeed 7) Sample.repeating c places loaded := by
  obtain ⟨-, hseeds⟩ := sampling_without_replacement ⟨"c", []⟩ Random.Generator.next (.ofSeed 7)
  obtain ⟨⟨c, places, hseeding⟩, -⟩ := hseeds _ _ _ _ Sample.loadSampled_repeating
  exact ⟨c, places, _, Sample.loadSampled_repeating, rfl, hseeding⟩

end RunPlan

end TraceGen
