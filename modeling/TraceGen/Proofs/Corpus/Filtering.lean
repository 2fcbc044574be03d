import TraceGen.Proofs.Corpus.Reading

/-!
# Modules that a filter excludes do not matter

`Corpus.read_independent_of_excluded` says two things of reading a corpus with a filter. Where the
whole corpus can be read, the filter picks its modules by their names and changes none of them. And
of two corpora with the same description only the files of the selected modules count: if these
agree, so do the results, errors included.

The second part is about two runs of the same chain of steps. Two results are alike
(`Except.Alike`) if both are values that belong together or both are errors that do, and what is
alike step by step is alike in the end (`Except.Alike.bind`, `Except.Alike.mapM`).
-/

namespace TraceGen

/-! ## Results that are alike -/

/-- Two values that `S` relates, or two errors that `R` relates. -/
inductive Except.Alike {ε α β : Type} (S : α → β → Prop) (R : ε → ε → Prop) :
    Except ε α → Except ε β → Prop where
  /-- Both give a value. -/
  | ok {a : α} {b : β} (h : S a b) : Alike S R (.ok a) (.ok b)
  /-- Both fail. -/
  | error {e e' : ε} (h : R e e') : Alike S R (.error e) (.error e')

namespace Except

variable {ε α β α' β' : Type} {S : α → β → Prop} {S' : α' → β' → Prop} {R : ε → ε → Prop}

/-- Steps that are alike one after the other. -/
theorem Alike.bind {x : Except ε α} {y : Except ε β} {f : α → Except ε α'} {g : β → Except ε β'}
    (h : Alike S R x y) (hnext : ∀ a b, x = .ok a → S a b → Alike S' R (f a) (g b)) :
    Alike S' R (x >>= f) (y >>= g) := by
  cases h with
  | ok h => exact hnext _ _ rfl h
  | error h => exact .error h

/-- What is alike to a value is a value. -/
theorem Alike.exists_ok {a : α} {y : Except ε β} (h : Alike S R (.ok a) y) :
    ∃ b, y = .ok b ∧ S a b := by
  cases h with
  | ok h => exact ⟨_, rfl, h⟩

/-- The same value must be there. -/
theorem alike_require {e e' : ε} {x y : Option α} (he : R e e') (h : y = x) :
    Alike Eq R (require e x) (require e' y) := by
  subst h
  cases y with
  | none => exact .error he
  | some a => exact .ok rfl

/-- Going over a list with steps that are alike. -/
theorem Alike.mapM {f g : α → Except ε β} {xs : List α}
    (h : ∀ x ∈ xs, Alike Eq R (f x) (g x)) : Alike Eq R (xs.mapM f) (xs.mapM g) := by
  induction xs with
  | nil => exact .ok rfl
  | cons x xs ih =>
    rw [List.mapM_cons, List.mapM_cons]
    refine (h x List.mem_cons_self).bind ?_
    rintro y _ - rfl
    refine (ih fun x' hx' => h x' (List.mem_cons_of_mem x hx')).bind ?_
    rintro ys _ - rfl
    exact .ok rfl

end Except

/-- The path that an error is about. -/
def CorpusError.path? : CorpusError → Option Path
  | .missingDescription path => some path
  | .invalidDescription path _ => some path
  | .missingModuleFile _ path => some path
  | .replaceFlagMatchedTwice _ => none
  | .replaceFlagsNotFound _ => none
  | .io _ => none

/-- The same error in two folders: the path that it is about leads on from each folder in the same
way. -/
inductive CorpusError.Relocated (root root' : Path) : CorpusError → CorpusError → Prop where
  /-- The description is missing. -/
  | missingDescription (file : Path) :
    Relocated root root' (.missingDescription (Path.join root file))
      (.missingDescription (Path.join root' file))
  /-- The description cannot be understood. -/
  | invalidDescription (file : Path) (cause : String) :
    Relocated root root' (.invalidDescription (Path.join root file) cause)
      (.invalidDescription (Path.join root' file) cause)
  /-- A file of a module is missing. -/
  | missingModuleFile (name : String) (file : Path) :
    Relocated root root' (.missingModuleFile name (Path.join root file))
      (.missingModuleFile name (Path.join root' file))
  /-- An error that is about no path. -/
  | pathless {e : CorpusError} (h : e.path? = none) : Relocated root root' e e

/-- The rules fail before the end of the options only if a flag is used twice. -/
theorem FlagRules.exists_flag_of_edit {rules : FlagRules} {used : List String} {skip : Bool}
    {options : List String} {e : CorpusError} (h : rules.edit used skip options = .error e) :
    ∃ flag, e = .replaceFlagMatchedTwice flag := by
  fun_induction edit rules used skip options with
  | case1 => cases h
  | case2 used option options ih => exact ih h
  | case3 used option options _ ih => exact ih h
  | case4 used option options _ _ ih =>
    rcases Except.bind_eq_error_iff.1 h with h | ⟨_, _, ⟨⟩⟩
    exact ih h
  | case5 used option options _ flag value _ _ =>
    cases h
    exact ⟨flag, rfl⟩
  | case6 used option options _ flag value _ _ ih =>
    rcases Except.bind_eq_error_iff.1 h with h | ⟨_, _, ⟨⟩⟩
    exact ih h

/-- An error of the rules is about no path. -/
theorem FlagRules.path?_of_apply {rules : FlagRules} {options : List String} {e : CorpusError}
    (h : rules.apply options = .error e) : e.path? = none := by
  rcases Except.bind_eq_error_iff.1 h with h | ⟨⟨written, used⟩, -, h⟩
  · obtain ⟨flag, rfl⟩ := exists_flag_of_edit h
    rfl
  · dsimp only at h
    split at h
    · cases h
    · cases h
      rfl

namespace Corpus

variable {d d' : Disk} {root root' : Path} {f : NameFilter} {rules : FlagRules}
  {description : CorpusDescription} {corpus : Corpus}

/-! ## The selected modules of a corpus -/

/-- A module has the name that it was made for. -/
theorem name_of_readModule {name : String} {spec : ModuleSpec}
    (h : readModule d root rules description name = .ok spec) : spec.name = name := by
  obtain ⟨size, given, rewritten, -, -, -, rfl⟩ := readModule_eq_ok_iff.1 h
  rfl

/-- A filter picks the modules with the names that it selects. -/
theorem read_filtered (h : read d root none rules = .ok corpus) (f : NameFilter) :
    read d root (some f) rules =
      .ok ⟨root, corpus.modules.filter fun spec => f.selects spec.name⟩ := by
  obtain ⟨rfl, description, hdescription, hmodules⟩ := read_eq_ok_iff.1 h
  refine read_eq_ok_iff.2 ⟨rfl, description, hdescription, ?_⟩
  have hall : description.modules.filter (selected none) = description.modules :=
    List.filter_eq_self.2 fun _ _ => rfl
  rw [hall] at hmodules
  refine List.rel_filter (fun name spec hspec => ?_) hmodules
  obtain rfl := name_of_readModule hspec
  exact Iff.rfl

/-- The modules of a corpus are those of its description that are selected, in this order. -/
theorem names_of_read {filter : Option NameFilter} (h : read d root filter rules = .ok corpus) :
    ∃ description, description? d root = some description ∧
      corpus.modules.map (·.name) = description.modules.filter (selected filter) := by
  obtain ⟨rfl, description, hdescription, hmodules⟩ := read_eq_ok_iff.1 h
  have hnames : List.Forall₂ Eq (description.modules.filter (selected filter))
      (corpus.modules.map (·.name)) :=
    List.forall₂_map_right_iff.2 (hmodules.imp fun _ _ hspec => (name_of_readModule hspec).symm)
  rw [List.forall₂_eq_eq_eq] at hnames
  exact ⟨description, hdescription, hnames.symm⟩

/-! ## Two corpora -/

/-- Two folders that agree as far as a filter lets reading look: on the description, and on the
sizes of the code and the texts of the options of the modules that are selected. -/
structure Agree (f : NameFilter) (d : Disk) (root : Path) (d' : Disk) (root' : Path) : Prop where
  /-- The description holds the same bytes, or there is none. -/
  description : d'.read? (Path.join root' descriptionFile) =
    d.read? (Path.join root descriptionFile)
  /-- The code of a selected module has the same size, or there is none. -/
  code : ∀ description, description? d root = some description →
    ∀ name ∈ description.modules, f.selects name = true →
      d'.size? (moduleFile root' name codeExtension) =
        d.size? (moduleFile root name codeExtension)
  /-- The options of a selected module are the same text, or there is none. -/
  options : ∀ description, description? d root = some description →
    ∀ name ∈ description.modules, f.selects name = true →
      d'.readText? (moduleFile root' name optionsExtension) =
        d.readText? (moduleFile root name optionsExtension)

/-- A module whose files agree is the same in both folders, or fails in the same way. -/
theorem alike_readModule {name : String}
    (hcode : d'.size? (moduleFile root' name codeExtension) =
      d.size? (moduleFile root name codeExtension))
    (hoptions : d'.readText? (moduleFile root' name optionsExtension) =
      d.readText? (moduleFile root name optionsExtension)) :
    Except.Alike Eq (CorpusError.Relocated root root')
      (readModule d root rules description name) (readModule d' root' rules description name) := by
  rw [readModule_eq, readModule_eq]
  refine (Except.alike_require (.missingModuleFile ..) hcode).bind ?_
  rintro size _ - rfl
  have hgiven : givenOptions? d' root' description name =
      givenOptions? d root description name := by
    unfold givenOptions?
    rw [hoptions]
  refine (Except.alike_require (.missingModuleFile ..) hgiven).bind ?_
  rintro given _ - rfl
  refine Except.Alike.bind (S := Eq) ?_ ?_
  · cases hrules : rules.apply given with
    | ok rewritten => exact .ok rfl
    | error e => exact .error (.pathless (FlagRules.path?_of_apply hrules))
  · rintro rewritten _ - rfl
    exact .ok rfl

/-- Folders that agree are read alike. -/
theorem Agree.alike_read (h : Agree f d root d' root') (rules : FlagRules) :
    Except.Alike (fun corpus corpus' => corpus'.modules = corpus.modules)
      (CorpusError.Relocated root root')
      (read d root (some f) rules) (read d' root' (some f) rules) := by
  rw [read_eq, read_eq]
  have hfile : d'.hasFile (Path.join root' descriptionFile) =
      d.hasFile (Path.join root descriptionFile) := by
    rw [Disk.hasFile_eq_isSome, Disk.hasFile_eq_isSome, h.description]
  have htext : d'.readText? (Path.join root' descriptionFile) =
      d.readText? (Path.join root descriptionFile) := by
    rw [Disk.readText?, Disk.readText?, h.description]
  refine (Except.alike_require (.missingDescription descriptionFile) (by rw [hfile])).bind ?_
  intro _ _ _ _
  refine (Except.alike_require (.pathless rfl) htext).bind ?_
  rintro text _ hread rfl
  refine (Except.alike_require (.invalidDescription descriptionFile "") rfl).bind ?_
  rintro description _ hparse rfl
  have hdescription : description? d root = some description :=
    Option.bind_eq_some_iff.2 ⟨text, Except.require_eq_ok_iff.1 hread,
      Except.require_eq_ok_iff.1 hparse⟩
  -- Only selected modules are made, and their files agree.
  refine Except.Alike.bind (S := Eq) (Except.Alike.mapM fun name hname => ?_) ?_
  · obtain ⟨hlisted, hselected⟩ := List.mem_filter.1 hname
    exact alike_readModule (h.code description hdescription name hlisted hselected)
      (h.options description hdescription name hlisted hselected)
  · rintro modules _ - rfl
    exact .ok rfl

/-- Modules that a filter excludes play no part. If a corpus can be read as a whole, it can be read
with the filter, which picks the modules that it selects: their names, sizes, options and flags
are the same, and they come in the order of the description. Two corpora with one description that
agree on the files of the selected modules are read alike with the filter: both give the same
modules, or both fail with the same error about the same file below their folder. -/
theorem read_independent_of_excluded (f : NameFilter) (rules : FlagRules) :
    (∀ d root corpus, read d root none rules = .ok corpus →
      read d root (some f) rules =
        .ok ⟨root, corpus.modules.filter fun spec => f.selects spec.name⟩ ∧
      ∃ description, description? d root = some description ∧
        corpus.modules.map (·.name) = description.modules) ∧
    ∀ d root d' root', Agree f d root d' root' →
      Except.Alike (fun corpus corpus' => corpus'.modules = corpus.modules)
        (CorpusError.Relocated root root')
        (read d root (some f) rules) (read d' root' (some f) rules) := by
  refine ⟨fun d root corpus h => ⟨read_filtered h f, ?_⟩, fun _ _ _ _ h => h.alike_read rules⟩
  obtain ⟨description, hdescription, hnames⟩ := names_of_read h
  refine ⟨description, hdescription, hnames.trans ?_⟩
  exact List.filter_eq_self.2 fun _ _ => rfl

namespace Sample

/-- A description of two modules. -/
def listing : Item :=
  .file (Text.encode "\x7b\"modules\": [\"a\", \"b\"]\x7d")

/-- A corpus of two modules and one with the same description, in which the files of the second
module are missing. -/
def disk : Disk where
  root := .folder
    [("whole", .folder [(descriptionFile, listing),
      ("a.bc", .file [0, 1]), ("a.cmd", .file (Text.encode "-c")),
      ("b.bc", .file [2]), ("b.cmd", .file (Text.encode "-g"))]),
    ("damaged", .folder [(descriptionFile, listing),
      ("a.bc", .file [3, 4]), ("a.cmd", .file (Text.encode "-c"))])]
  here := []

/-- The filter of the names that hold the letter a. -/
def lettered : NameFilter :=
  ⟨"a", .chars ⟨1, fun c => c = 'a'⟩⟩

/-- What the description says. -/
theorem description?_whole : description? disk "whole" = some ⟨["a", "b"], false, none⟩ := by
  decide +kernel

/-- The two corpora agree on the module that is selected. -/
theorem agree : Agree lettered disk "whole" disk "damaged" := by
  refine ⟨by decide +kernel, ?_, ?_⟩ <;>
    · intro description hdescription name hlisted hselected
      cases description?_whole.symm.trans hdescription
      have hname : name = "a" := by
        revert hselected
        revert name
        decide +kernel
      subst hname
      decide +kernel

end Sample

/-- A filter that selects the first of two modules, in a corpus that is whole and in one that
cannot be read without the filter. -/
theorem read_independent_of_excluded_of_damaged :
    ∃ corpus corpus', read Sample.disk "whole" none .empty = .ok corpus ∧
      read Sample.disk "damaged" none .empty =
        .error (.missingModuleFile "b" "damaged/b.bc") ∧
      read Sample.disk "damaged" (some Sample.lettered) .empty = .ok corpus' ∧
      corpus'.modules = corpus.modules.filter (fun spec => Sample.lettered.selects spec.name) ∧
      corpus.modules.map (·.name) = ["a", "b"] := by
  obtain ⟨hpicks, halike⟩ := read_independent_of_excluded Sample.lettered .empty
  obtain ⟨corpus, hwhole⟩ : ∃ corpus, read Sample.disk "whole" none .empty = .ok corpus :=
    ⟨⟨"whole", [⟨"a", 2, withPlaceholders false ["-c"], false⟩,
      ⟨"b", 1, withPlaceholders false ["-g"], false⟩]⟩, by decide +kernel⟩
  obtain ⟨hfiltered, description, hdescription, hnames⟩ := hpicks _ _ _ hwhole
  cases Sample.description?_whole.symm.trans hdescription
  have hboth := halike _ _ _ _ Sample.agree
  rw [hfiltered] at hboth
  obtain ⟨corpus', hdamaged, hmodules⟩ := hboth.exists_ok
  exact ⟨corpus, corpus', hwhole, by decide +kernel, hdamaged, hmodules, hnames⟩

end Corpus

end TraceGen
