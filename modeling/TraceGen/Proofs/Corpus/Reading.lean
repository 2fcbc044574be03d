import Mathlib.Data.List.Forall2
import TraceGen.Corpus.Basic
import TraceGen.Proofs.Training.Retaining

/-!
# What reading a corpus gives

Reading is a chain of steps, each of which needs something to be there (`Except.require`): the
description of the corpus, and for every selected module its code, its options and the consent of
the rules. `Corpus.read_eq`, `Corpus.readModule_eq` and `Corpus.loadModule_eq` write the chains
out. `Corpus.read_eq_ok_iff` and its companions say what has been read when nothing was missing.
-/

namespace TraceGen

/-! ## Steps that may fail -/

namespace Except

variable {ε α β : Type}

/-- A value that must be there. -/
def require (e : ε) : Option α → Except ε α
  | some a => .ok a
  | none => .error e

/-- A value that must be there is there. -/
theorem require_eq_ok_iff {e : ε} {x : Option α} {a : α} : require e x = .ok a ↔ x = some a := by
  cases x with
  | none => exact ⟨nofun, nofun⟩
  | some b => rw [require, Except.ok.injEq, Option.some.injEq]

/-- Going over a list gives a value for each item. -/
theorem mapM_eq_ok_iff {f : α → Except ε β} {xs : List α} {ys : List β} :
    xs.mapM f = .ok ys ↔ List.Forall₂ (fun x y => f x = .ok y) xs ys := by
  induction xs generalizing ys with
  | nil =>
    rw [List.mapM_nil, List.forall₂_nil_left_iff]
    constructor
    · rintro ⟨⟩
      rfl
    · rintro rfl
      rfl
  | cons x xs ih =>
    rw [List.mapM_cons, bind_eq_ok_iff, List.forall₂_cons_left_iff]
    constructor
    · rintro ⟨y, hy, h⟩
      obtain ⟨rest, hrest, h⟩ := bind_eq_ok_iff.1 h
      cases h
      exact ⟨y, rest, hy, ih.1 hrest, rfl⟩
    · rintro ⟨y, rest, hy, hrest, rfl⟩
      exact ⟨y, hy, bind_eq_ok_iff.2 ⟨rest, ih.2 hrest, rfl⟩⟩

end Except

/-- A path names a file if it can be read. -/
theorem Disk.hasFile_eq_isSome (d : Disk) (p : Path) : d.hasFile p = (d.read? p).isSome := by
  unfold hasFile read?
  cases d.item? p with
  | none => rfl
  | some item => cases item <;> rfl

namespace Corpus

variable {d : Disk} {root : Path} {filter : Option NameFilter} {rules : FlagRules}
  {description : CorpusDescription} {name : String} {spec : ModuleSpec} {corpus : Corpus}
  {loaded : LoadedModule}

/-! ## The steps of reading -/

/-- The description of the corpus in a folder. -/
def description? (d : Disk) (root : Path) : Option CorpusDescription :=
  (d.readText? (Path.join root descriptionFile)).bind CorpusDescription.ofText?

/-- The options that a module is given: those of the description, or else those in its file. -/
def givenOptions? (d : Disk) (root : Path) (description : CorpusDescription) (name : String) :
    Option (List String) :=
  match description.commandOverride with
  | some options => some options
  | none => (d.readText? (moduleFile root name optionsExtension)).map optionsOfText

/-- A module needs its code, then its options, and then the consent of the rules. -/
theorem readModule_eq (d : Disk) (root : Path) (rules : FlagRules)
    (description : CorpusDescription) (name : String) :
    readModule d root rules description name =
      (Except.require (.missingModuleFile name (moduleFile root name codeExtension))
        (d.size? (moduleFile root name codeExtension)) >>= fun size =>
      Except.require (.missingModuleFile name (moduleFile root name optionsExtension))
        (givenOptions? d root description name) >>= fun given =>
      rules.apply given >>= fun rewritten =>
      pure ⟨name, size, withPlaceholders description.hasThinLto rewritten,
        description.hasThinLto⟩) := by
  unfold readModule givenOptions?
  dsimp only
  cases d.size? (moduleFile root name codeExtension) with
  | none => rfl
  | some size =>
    cases description.commandOverride with
    | some options => rfl
    | none => cases d.readText? (moduleFile root name optionsExtension) <;> rfl

/-- A corpus needs a file with a description that can be read, and then its selected modules. -/
theorem read_eq (d : Disk) (root : Path) (filter : Option NameFilter) (rules : FlagRules) :
    read d root filter rules =
      (Except.require (.missingDescription (Path.join root descriptionFile))
        (if d.hasFile (Path.join root descriptionFile) then some () else none) >>= fun _ =>
      Except.require (.io "") (d.readText? (Path.join root descriptionFile)) >>= fun text =>
      Except.require (.invalidDescription (Path.join root descriptionFile) "")
        (CorpusDescription.ofText? text) >>= fun description =>
      (description.modules.filter (selected filter)).mapM (readModule d root rules description)
        >>= fun modules => pure ⟨root, modules⟩) := by
  unfold read
  dsimp only
  cases d.hasFile (Path.join root descriptionFile) with
  | false => rfl
  | true =>
    cases d.readText? (Path.join root descriptionFile) with
    | none => rfl
    | some text =>
      -- The file is there and holds a text, so that the first two steps give just this text.
      dsimp only [bind, Except.bind, pure, Except.pure, Bool.not_true, Except.require, if_true]
      cases CorpusDescription.ofText? text <;> rfl

/-- Loading a module needs its code, and its index if it has one. -/
theorem loadModule_eq (corpus : Corpus) (d : Disk) (spec : ModuleSpec) :
    corpus.loadModule d spec =
      (Except.require
        (.missingModuleFile spec.name (moduleFile corpus.root spec.name codeExtension))
        (d.read? (moduleFile corpus.root spec.name codeExtension)) >>= fun ir =>
      (if spec.hasThinLto then
        (Except.require
          (.missingModuleFile spec.name (moduleFile corpus.root spec.name indexExtension))
          (d.read? (moduleFile corpus.root spec.name indexExtension))).map some
        else .ok none) >>= fun index =>
      pure ⟨spec.name, ir, index, spec.commandLine⟩) := by
  unfold loadModule
  dsimp only
  cases d.read? (moduleFile corpus.root spec.name codeExtension) with
  | none => rfl
  | some ir =>
    cases spec.hasThinLto with
    | false => rfl
    | true => cases d.read? (moduleFile corpus.root spec.name indexExtension) <;> rfl

/-! ## What has been read -/

/-- What a module is made of. -/
theorem readModule_eq_ok_iff :
    readModule d root rules description name = .ok spec ↔
      ∃ size given rewritten,
        d.size? (moduleFile root name codeExtension) = some size ∧
        givenOptions? d root description name = some given ∧
        rules.apply given = .ok rewritten ∧
        spec = ⟨name, size, withPlaceholders description.hasThinLto rewritten,
          description.hasThinLto⟩ := by
  rw [readModule_eq, Except.bind_eq_ok_iff]
  refine exists_congr fun size => ?_
  rw [Except.require_eq_ok_iff, Except.bind_eq_ok_iff]
  constructor
  · rintro ⟨hsize, given, hgiven, h⟩
    obtain ⟨rewritten, hrewritten, h⟩ := Except.bind_eq_ok_iff.1 h
    exact ⟨given, rewritten, hsize, Except.require_eq_ok_iff.1 hgiven, hrewritten,
      (Except.ok.inj h).symm⟩
  · rintro ⟨given, rewritten, hsize, hgiven, hrewritten, rfl⟩
    exact ⟨hsize, given, Except.require_eq_ok_iff.2 hgiven,
      Except.bind_eq_ok_iff.2 ⟨rewritten, hrewritten, rfl⟩⟩

/-- What a corpus is made of: its modules are those of the description that are selected, in this
order. -/
theorem read_eq_ok_iff :
    read d root filter rules = .ok corpus ↔
      corpus.root = root ∧ ∃ description, description? d root = some description ∧
        List.Forall₂ (fun name spec => readModule d root rules description name = .ok spec)
          (description.modules.filter (selected filter)) corpus.modules := by
  rw [read_eq]
  constructor
  · intro h
    obtain ⟨-, -, h⟩ := Except.bind_eq_ok_iff.1 h
    obtain ⟨text, htext, h⟩ := Except.bind_eq_ok_iff.1 h
    obtain ⟨description, hdescription, h⟩ := Except.bind_eq_ok_iff.1 h
    obtain ⟨modules, hmodules, h⟩ := Except.bind_eq_ok_iff.1 h
    cases h
    exact ⟨rfl, description, Option.bind_eq_some_iff.2 ⟨text, Except.require_eq_ok_iff.1 htext,
      Except.require_eq_ok_iff.1 hdescription⟩, Except.mapM_eq_ok_iff.1 hmodules⟩
  · rintro ⟨rfl, description, hdescription, hmodules⟩
    obtain ⟨text, htext, hread⟩ := Option.bind_eq_some_iff.1 hdescription
    refine Except.bind_eq_ok_iff.2 ⟨(), ?_, Except.bind_eq_ok_iff.2 ⟨text, ?_, ?_⟩⟩
    · obtain ⟨content, hcontent, -⟩ := Option.bind_eq_some_iff.1 htext
      rw [Disk.hasFile_eq_isSome, hcontent]
      rfl
    · exact Except.require_eq_ok_iff.2 htext
    · exact Except.bind_eq_ok_iff.2 ⟨description, Except.require_eq_ok_iff.2 hread,
        Except.bind_eq_ok_iff.2 ⟨corpus.modules, Except.mapM_eq_ok_iff.2 hmodules, rfl⟩⟩

/-- What a loaded module consists of. -/
theorem loadModule_eq_ok_iff :
    corpus.loadModule d spec = .ok loaded ↔
      ∃ ir index, d.read? (moduleFile corpus.root spec.name codeExtension) = some ir ∧
        (spec.hasThinLto = false ∧ index = none ∨
          spec.hasThinLto = true ∧ ∃ content,
            d.read? (moduleFile corpus.root spec.name indexExtension) = some content ∧
            index = some content) ∧
        loaded = ⟨spec.name, ir, index, spec.commandLine⟩ := by
  rw [loadModule_eq, Except.bind_eq_ok_iff]
  refine exists_congr fun ir => ?_
  rw [Except.require_eq_ok_iff, Except.bind_eq_ok_iff, exists_and_left]
  refine and_congr_right fun _ => exists_congr fun index => and_congr ?_ ?_
  · cases spec.hasThinLto with
    | false => simp [eq_comm]
    | true =>
      cases d.read? (moduleFile corpus.root spec.name indexExtension) <;>
        simp [Except.require, Except.map, eq_comm]
  · constructor
    · rintro ⟨⟩
      rfl
    · rintro rfl
      rfl

end Corpus

end TraceGen
