import TraceGen.Proofs.Training.Retaining
import TraceGen.Proofs.Yaml.DistinctKeys
import TraceGen.Settings.Basic

/-!
# Loading settings

`Settings.load_eq_ok_iff` says when loading succeeds, and with what: every file holds a mapping or
nothing (`Settings.fileEntries?`), every binding can be read and applied (`Binding.ofText?`,
`Binding.applyTo?`), and the fields are read from the document that is made of them in order.
`Settings.reads_of_setFields?` says what the fields are then. `Settings.Reads` has one equation for
each of them, for any look-up of the values.
-/

namespace TraceGen

open Yaml (Node)

/-- Reading a list reads the first item and the others. -/
theorem List.mapM_cons_eq_some_iff {α β : Type} {f : α → Option β} {x : α} {xs : List α}
    {zs : List β} :
    (x :: xs).mapM f = some zs ↔
      ∃ y ys, f x = some y ∧ xs.mapM f = some ys ∧ y :: ys = zs := by
  simp only [List.mapM_cons, Option.bind_eq_bind, Option.bind_eq_some_iff, Option.pure_def,
    Option.some.injEq, exists_and_left]

/-- Whether a value has a tag in front of it. -/
def Yaml.Node.isTagged : Node → Bool
  | .tagged _ _ => true
  | _ => false

/-! ## Bindings -/

/-- What a binding says. -/
structure Binding where
  /-- The first segment of the key. -/
  segment : String
  /-- The other segments. -/
  path : List String
  /-- The value. -/
  value : Node
deriving DecidableEq

namespace Binding

/-- Reads a binding `key=value`. -/
def ofText? (text : String) : Option Binding := do
  let (key, value) ← Text.cutAt '=' text.toList
  let (segment, path) ← Mapping.keyPath? (Text.trim key)
  let value ← Node.ofText? (String.ofList (Text.trim value))
  return ⟨segment, path, value⟩

/-- Applies a binding. -/
def applyTo? (entries : Mapping) (b : Binding) : Option Mapping :=
  entries.setPath? b.value b.segment b.path

/-- A binding is read and then applied. -/
theorem bind?_eq (entries : Mapping) (text : String) :
    entries.bind? text = (ofText? text).bind (applyTo? entries) := by
  unfold Mapping.bind? ofText?
  simp only [Option.bind_eq_bind, Option.bind_assoc]
  rfl

end Binding

namespace Settings

variable {d : Disk} {files : List Path} {texts : List String} {docs : List Mapping}
  {m m' : Mapping} {s s₁ s' : Settings} {name : String}

/-- The entries of a file that holds a mapping or nothing. -/
def fileEntries? (d : Disk) (path : Path) : Option Mapping :=
  match (d.readText? path).bind Node.ofText? with
  | some (.mapping entries) => some entries
  | some .null => some []
  | _ => none

/-- The entries of a file have different keys. -/
theorem nodup_of_fileEntries? {path : Path} {doc : Mapping} (h : fileEntries? d path = some doc) :
    (doc.map (·.1)).Nodup := by
  unfold fileEntries? at h
  split at h
  · rename_i entries hmapping
    cases h
    obtain ⟨text, -, hnode⟩ := Option.bind_eq_some_iff.1 hmapping
    exact Node.nodup_of_ofText? hnode
  · cases h
    exact List.nodup_nil
  · cases h

/-- All files hold entries with different keys. -/
theorem nodup_of_mapM (h : files.mapM (fileEntries? d) = some docs) :
    ∀ doc ∈ docs, (doc.map (·.1)).Nodup := by
  induction files generalizing docs with
  | nil =>
    cases h
    exact List.forall_mem_nil _
  | cons path files ih =>
    obtain ⟨doc, docs, hdoc, hdocs, rfl⟩ := List.mapM_cons_eq_some_iff.1 h
    exact List.forall_mem_cons.2 ⟨nodup_of_fileEntries? hdoc, ih hdocs⟩

/-- The first file adds its entries, and then the others are read. -/
theorem readFiles_cons_eq_ok_iff {path : Path} :
    readFiles d m (path :: files) = .ok m' ↔
      ∃ doc, fileEntries? d path = some doc ∧ readFiles d (m.merge doc) files = .ok m' := by
  rw [readFiles, fileEntries?]
  cases d.readText? path with
  | none => exact ⟨nofun, nofun⟩
  | some text =>
    simp only [pure_bind, Option.bind_some]
    cases Node.ofText? text with
    | none => exact ⟨nofun, nofun⟩
    | some node =>
      cases node with
      | mapping overlay => simp only [Option.some.injEq, exists_eq_left']
      | null => simp only [Option.some.injEq, exists_eq_left', Mapping.merge]
      | bool | number | text | sequence | tagged => exact ⟨nofun, nofun⟩

/-- Reading files merges their entries in order. -/
theorem readFiles_eq_ok_iff :
    readFiles d m files = .ok m' ↔
      ∃ docs, files.mapM (fileEntries? d) = some docs ∧ docs.foldl Mapping.merge m = m' := by
  induction files generalizing m with
  | nil => simp [readFiles]
  | cons path files ih =>
    simp only [readFiles_cons_eq_ok_iff, ih, List.mapM_cons_eq_some_iff]
    constructor
    · rintro ⟨doc, hdoc, docs, hdocs, hmerge⟩
      exact ⟨doc :: docs, ⟨doc, docs, hdoc, hdocs, rfl⟩, hmerge⟩
    · rintro ⟨_, ⟨doc, docs, hdoc, hdocs, rfl⟩, hmerge⟩
      exact ⟨doc, hdoc, docs, hdocs, hmerge⟩

/-- The first binding is read and applied, and then the others are. -/
theorem applyBindings_cons_eq_ok_iff {text : String} :
    applyBindings m (text :: texts) = .ok m' ↔
      ∃ b m₁, Binding.ofText? text = some b ∧ Binding.applyTo? m b = some m₁ ∧
        applyBindings m₁ texts = .ok m' := by
  rw [applyBindings, Binding.bind?_eq]
  cases Binding.ofText? text with
  | none => exact ⟨nofun, nofun⟩
  | some b =>
    simp only [Option.bind_some, Option.some.injEq, exists_and_left, exists_eq_left']
    cases Binding.applyTo? m b with
    | none => exact ⟨nofun, nofun⟩
    | some m₁ => simp only [Option.some.injEq, exists_eq_left']

/-- Applying bindings applies what they say in order. -/
theorem applyBindings_eq_ok_iff :
    applyBindings m texts = .ok m' ↔
      ∃ bs, texts.mapM Binding.ofText? = some bs ∧ bs.foldlM Binding.applyTo? m = some m' := by
  induction texts generalizing m with
  | nil => simp [applyBindings]
  | cons text texts ih =>
    simp only [applyBindings_cons_eq_ok_iff, ih, List.mapM_cons_eq_some_iff]
    constructor
    · rintro ⟨b, m₁, hb, happly, bs, hbs, hfold⟩
      refine ⟨b :: bs, ⟨b, bs, hb, hbs, rfl⟩, ?_⟩
      rw [List.foldlM_cons]
      exact Option.bind_eq_some_iff.2 ⟨m₁, happly, hfold⟩
    · rintro ⟨_, ⟨b, bs, hb, hbs, rfl⟩, hfold⟩
      rw [List.foldlM_cons] at hfold
      obtain ⟨m₁, happly, hfold⟩ := Option.bind_eq_some_iff.1 hfold
      exact ⟨b, m₁, hb, happly, bs, hbs, hfold⟩

/-- Settings are loaded if every file holds a mapping or nothing, every binding can be read and
applied, and the document that is made of them describes settings with a timeout that is not
zero. -/
theorem load_eq_ok_iff :
    load d files texts = .ok s ↔
      ∃ docs bs m, files.mapM (fileEntries? d) = some docs ∧ texts.mapM Binding.ofText? = some bs ∧
        bs.foldlM Binding.applyTo? (docs.foldl Mapping.merge []) = some m ∧
        ofMapping? m = some s ∧ s.compileTimeout ≠ 0 := by
  unfold load
  simp only [Except.bind_eq_ok_iff, readFiles_eq_ok_iff, applyBindings_eq_ok_iff]
  constructor
  · rintro ⟨_, ⟨docs, hdocs, rfl⟩, m, ⟨bs, hbs, hfold⟩, h⟩
    cases hsettings : ofMapping? m with
    | none =>
      rw [hsettings] at h
      cases h
    | some settings =>
      simp only [hsettings, pure_bind] at h
      split at h
      · cases h
      · rename_i htimeout
        cases h
        exact ⟨docs, bs, m, hdocs, hbs, hfold, hsettings, htimeout⟩
  · rintro ⟨docs, bs, m, hdocs, hbs, hfold, hsettings, htimeout⟩
    refine ⟨_, ⟨docs, hdocs, rfl⟩, m, ⟨bs, hbs, hfold⟩, ?_⟩
    simp only [hsettings, pure_bind, if_neg htimeout]
    rfl

/-! ## Reading the fields -/

/-- Reads a value if there is one. -/
def readOr {α : Type} (read? : Node → Option α) (standard : α) : Option Node → Option α
  | none => some standard
  | some value => read? value

/-- The fields of settings are what the values of the fields say. A field without a value is that of
`base`. -/
structure Reads (base : Settings) (value : String → Option Node) (s : Settings) : Prop where
  /-- The name of the problem. -/
  problem : readOr text? base.problem (value "problem") = some s.problem
  /-- The compiler. -/
  compilerPath : readOr text? base.compilerPath (value "compiler_path") = some s.compilerPath
  /-- How many seconds a compile may take. -/
  compileTimeout : readOr natural? base.compileTimeout (value "compile_timeout_secs") =
    some s.compileTimeout
  /-- The seed of the sample. -/
  samplingSeed : readOr (optional? natural?) base.samplingSeed (value "sampling_seed") =
    some s.samplingSeed
  /-- Options to add. -/
  flagsToAdd : readOr (optional? texts?) base.flagsToAdd (value "flags_to_add") =
    some s.flagsToAdd
  /-- Options to drop. -/
  flagsToDelete : readOr (optional? texts?) base.flagsToDelete (value "flags_to_delete") =
    some s.flagsToDelete
  /-- Options to replace. -/
  flagsToReplace : readOr (optional? table?) base.flagsToReplace (value "flags_to_replace") =
    some s.flagsToReplace
  /-- Options that ask for a training log. -/
  logFlags : readOr (optional? texts?) base.logFlags (value "training_log_flags") =
    some s.logFlags
  /-- Options that name a policy. -/
  policyFlags : readOr (optional? texts?) base.policyFlags (value "policy_flags") =
    some s.policyFlags

/-- A key without a tag names a field by its text. -/
theorem eq_text_of_text? {key : Node} (htag : key.isTagged = false) (h : text? key = some name) :
    key = .text name := by
  unfold text? at h
  cases key with
  | text t =>
    cases h
    rfl
  | tagged => cases htag
  | null | bool | number | sequence | mapping => cases h

/-- The first entry sets a field that has not been set before, and then come the others. -/
theorem exists_of_setFields?_cons {key value : Node} {seen : List String}
    (h : setFields? s seen ((key, value) :: m) = some s') :
    ∃ name s₁, text? key = some name ∧ name ∉ seen ∧ s.setField? name value = some s₁ ∧
      setFields? s₁ (name :: seen) m = some s' := by
  rw [setFields?] at h
  obtain ⟨name, hname, h⟩ := Option.bind_eq_some_iff.1 h
  dsimp only at h
  split at h
  · cases h
  · rename_i hnew
    obtain ⟨s₁, hset, h⟩ := Option.bind_eq_some_iff.1 h
    exact ⟨name, s₁, hname, fun hseen => hnew (List.contains_iff_mem.2 hseen), hset, h⟩

/-- A field that was set before is not set again. -/
theorem get?_of_seen {seen : List String} (h : setFields? s seen m = some s')
    (hseen : name ∈ seen) : m.get? (.text name) = none := by
  induction m generalizing s seen with
  | nil => rfl
  | cons e m ih =>
    obtain ⟨other, s₁, hother, hnew, -, hrest⟩ := exists_of_setFields?_cons h
    -- An entry with this key would set the field again.
    have hkey : e.1 ≠ .text name := by
      intro hkey
      rw [hkey] at hother
      cases hother
      exact hnew hseen
    rw [Mapping.get?, if_neg hkey]
    exact ih hrest (List.mem_cons_of_mem _ hseen)

/-- An entry that is not set again gives its field, and the others give theirs. -/
theorem Reads.cons {value : Node} (hset : s.setField? name value = some s₁)
    (hrest : Reads s₁ (fun name => m.get? (.text name)) s')
    (hnew : m.get? (.text name) = none) :
    Reads s (fun other => Mapping.get? (.text other) ((.text name, value) :: m)) s' := by
  have hown {α : Type} {read? : Node → Option α} {old x y : α} (hx : read? value = some x)
      (hy : readOr read? x (m.get? (.text name)) = some y) :
      readOr read? old (Mapping.get? (.text name) ((.text name, value) :: m)) = some y := by
    rw [Mapping.get?, if_pos rfl, readOr, hx]
    rwa [hnew] at hy
  have hother {α : Type} {read? : Node → Option α} {old y : α} {other : String}
      (hne : name ≠ other) (hy : readOr read? old (m.get? (.text other)) = some y) :
      readOr read? old (Mapping.get? (.text other) ((.text name, value) :: m)) = some y := by
    rwa [Mapping.get?, if_neg fun h => hne (Node.text.inj h)]
  -- One case for each field that is set, and in each of them one equation for each field.
  obtain ⟨hproblem, hcompiler, htimeout, hseed, hadd, hdelete, hreplace, hlog, hpolicy⟩ := hrest
  unfold setField? at hset
  split at hset
  case h_10 => cases hset
  all_goals
    obtain ⟨x, hx, rfl⟩ := Option.map_eq_some_iff.1 hset
    constructor
    all_goals first
      | exact hother (by decide) (by assumption)
      | exact hown hx (by assumption)

/-- What setting the fields of a mapping gives. -/
theorem reads_of_setFields? {seen : List String} (h : setFields? s seen m = some s')
    (hkeys : ∀ e ∈ m, e.1.isTagged = false) : Reads s (fun name => m.get? (.text name)) s' := by
  induction m generalizing s seen with
  | nil =>
    cases h
    exact ⟨rfl, rfl, rfl, rfl, rfl, rfl, rfl, rfl, rfl⟩
  | cons e m ih =>
    obtain ⟨key, value⟩ := e
    obtain ⟨name, s₁, hname, -, hset, hrest⟩ := exists_of_setFields?_cons h
    obtain rfl := eq_text_of_text? (hkeys _ List.mem_cons_self) hname
    have hreads := ih hrest fun e he => hkeys e (List.mem_cons_of_mem _ he)
    exact hreads.cons hset (get?_of_seen hrest List.mem_cons_self)

end Settings

end TraceGen
