import Mathlib.Data.List.Induction
import TraceGen.Proofs.Settings.Loading
import TraceGen.Proofs.Settings.Overlaying

/-!
# Which value of a setting counts

`Settings.load_precedence` says what settings consist of that could be loaded. For every field but
one it is the value of the last binding of the field, else that of the last file that sets it
(`Settings.given`), else the standard. The table of replaced options is put together from all files
and bindings in order (`Settings.table`).

The document that `Settings.load` collects may hold other values: nested mappings are merged, and a
dotted binding makes mappings on its way. Such a value is a mapping in any case, or a table with a
mapping in it, and neither can be read as a field. `Agrees` and `AlikeValues` say this of a value in
the document and the value that should count, and each file and each binding carries it on.
-/

namespace TraceGen

open Yaml (Node)

namespace Settings

variable {d : Disk} {files : List Path} {texts : List String} {docs : List Mapping}
  {bs : List Binding} {m m' : Mapping} {s base : Settings}

/-! ## The values that count -/

/-- The value of a field that is set as a whole: that of its last binding, else that of the last
file that sets it. -/
def given (docs : List Mapping) (bs : List Binding) (name : String) : Option Node :=
  match (bs.filter fun b => b.segment = name ∧ b.path = []).getLast? with
  | some b => some b.value
  | none => (docs.filterMap (Mapping.get? (.text name))).getLast?

/-- The value of a table after a file sets it. Entries are overlaid one by one; anything else than a
mapping takes the place of the table. -/
def overlaid (old : Option Node) (value : Node) : Node :=
  match old, value with
  | some (.mapping es), .mapping overlay =>
    .mapping (overlay.foldl (fun es e => Mapping.put e.1 e.2 es) es)
  | _, value => value

/-- A value that is no mapping takes the place of the table. -/
theorem overlaid_of_not_mapping (old : Option Node) {value : Node}
    (h : value.isMapping = false) : overlaid old value = value := by
  unfold overlaid
  split
  · cases h
  · rfl

/-- A value behind the segments of a path. -/
def behind : List String → Node → Node
  | [], value => value
  | segment :: path, value => .mapping [(.text segment, behind path value)]

/-- The value of a table after a file. -/
def addFile (name : String) (old : Option Node) (doc : Mapping) : Option Node :=
  match doc.get? (.text name) with
  | none => old
  | some value => some (overlaid old value)

/-- The value of a table after a binding to the path behind the field: another value, or a table
with an entry set. -/
def bound (path : List String) (value : Node) (old : Option Node) : Node :=
  match path with
  | [] => value
  | key :: path => .mapping (Mapping.put (.text key) (behind path value) (Mapping.inner old))

/-- The value of a table after a binding. -/
def addBinding (name : String) (old : Option Node) (b : Binding) : Option Node :=
  if b.segment = name then some (bound b.path b.value old) else old

/-- The value of a field that is a table: files and then bindings change it in order. -/
def table (docs : List Mapping) (bs : List Binding) (name : String) : Option Node :=
  bs.foldl (addBinding name) (docs.foldl (addFile name) none)

/-- The value of a field. -/
def fieldValue (docs : List Mapping) (bs : List Binding) (name : String) : Option Node :=
  if name = "flags_to_replace" then table docs bs name else given docs bs name

/-- A further file gives the value of the fields that it sets. -/
theorem given_snoc_file (docs : List Mapping) (doc : Mapping) (name : String) :
    given (docs ++ [doc]) [] name = (doc.get? (.text name)).or (given docs [] name) := by
  unfold given
  rw [List.filter_nil, List.getLast?_nil, List.filterMap_append]
  cases hvalue : doc.get? (.text name) with
  | none =>
    rw [List.filterMap_cons_none hvalue, List.filterMap_nil, List.append_nil]
    rfl
  | some value =>
    rw [List.filterMap_cons_some hvalue, List.filterMap_nil, List.getLast?_concat]
    rfl

/-- A further binding gives the value of the field that is its key. -/
theorem given_snoc_binding (docs : List Mapping) (bs : List Binding) (b : Binding) (name : String) :
    given docs (bs ++ [b]) name =
      if b.segment = name ∧ b.path = [] then some b.value else given docs bs name := by
  unfold given
  rw [List.filter_append]
  by_cases hkey : b.segment = name ∧ b.path = []
  · have hlast : [b].filter (fun b => b.segment = name ∧ b.path = []) = [b] :=
      List.filter_eq_self.2 fun _ hb => decide_eq_true (List.mem_singleton.1 hb ▸ hkey)
    rw [if_pos hkey, hlast, List.getLast?_concat]
  · have hlast : [b].filter (fun b => b.segment = name ∧ b.path = []) = [] :=
      List.filter_eq_nil_iff.2 fun _ hb h =>
        hkey (List.mem_singleton.1 hb ▸ of_decide_eq_true h)
    rw [if_neg hkey, hlast, List.append_nil]

/-! ## The document -/

/-- A value in the document is the one that counts, or a mapping. -/
def Agrees (found value : Option Node) : Prop :=
  found = value ∨ ∃ v, found = some v ∧ v.isMapping = true

/-- A value in the document is the one that counts, or both are alike mappings. -/
def AlikeValues (found value : Option Node) : Prop :=
  found = value ∨ ∃ es es', found = some (.mapping es) ∧ value = some (.mapping es') ∧
    Mapping.Alike es es'

/-- The entries of alike values are alike. -/
theorem AlikeValues.inner {found value : Option Node} (h : AlikeValues found value) :
    Mapping.Alike (Mapping.inner found) (Mapping.inner value) := by
  rcases h with rfl | ⟨es, es', rfl, rfl, halike⟩
  · exact .refl _
  · exact halike

/-- What a document has of the values that count after files and bindings. -/
structure Tracks (docs : List Mapping) (bs : List Binding) (m : Mapping) : Prop where
  /-- A field that is set as a whole. -/
  agrees : ∀ name, Agrees (m.get? (.text name)) (given docs bs name)
  /-- A field that is a table. -/
  alike : ∀ name, AlikeValues (m.get? (.text name)) (table docs bs name)
  /-- No key has a tag. -/
  untagged : ∀ e ∈ m, e.1.isTagged = false

/-- A value behind a path is alike to a mapping that was put there. -/
theorem alike_behind {path : List String} {value v : Node} (hwhole : path = [] → v = value)
    (hpart : path ≠ [] → v.isMapping = true) : v.Alike (behind path value) := by
  cases path with
  | nil => exact .inl (hwhole rfl)
  | cons => exact .inr ⟨hpart (List.cons_ne_nil _ _), rfl⟩

/-- Laying a value over another in the document is like overlaying the one that counts. -/
theorem AlikeValues.laid {found value : Option Node} (h : AlikeValues found value) (v : Node) :
    AlikeValues (some (Mapping.laid found v)) (some (overlaid value v)) := by
  cases hv : v.isMapping with
  | false =>
    rw [Mapping.laid_of_not_mapping found hv, overlaid_of_not_mapping value hv]
    exact .inl rfl
  | true =>
    obtain ⟨overlay, rfl⟩ := Node.exists_of_isMapping hv
    -- Over a mapping the one is merged and the other overlaid; over anything else both replace it.
    rcases h with rfl | ⟨es, es', rfl, rfl, halike⟩
    · rcases found with _ | old
      · exact .inl rfl
      · cases old with
        | mapping es => exact .inr ⟨_, _, rfl, rfl, (Mapping.Alike.refl es).merge overlay⟩
        | null | bool | number | text | sequence | tagged => exact .inl rfl
    · exact .inr ⟨_, _, rfl, rfl, halike.merge overlay⟩

/-- A file carries on what the document has. -/
theorem Tracks.merge (h : Tracks docs [] m) {doc : Mapping} (hkeys : (doc.map (·.1)).Nodup)
    (htags : ∀ e ∈ doc, e.1.isTagged = false) : Tracks (docs ++ [doc]) [] (m.merge doc) where
  agrees name := by
    rw [Mapping.get?_merge hkeys, given_snoc_file]
    cases doc.get? (.text name) with
    | none => exact h.agrees name
    | some value =>
      -- The value counts, and stands in the document unless it is a mapping.
      rcases Mapping.alike_laid (m.get? (.text name)) value with hlaid | ⟨hmapping, -⟩
      · exact .inl (congrArg some hlaid)
      · exact .inr ⟨_, rfl, hmapping⟩
  alike name := by
    rw [Mapping.get?_merge hkeys, table, List.foldl_append, List.foldl_cons, List.foldl_nil,
      List.foldl_nil, addFile]
    cases doc.get? (.text name) with
    | none => exact h.alike name
    | some value => exact (h.alike name).laid value
  untagged e he := by
    rcases Mapping.mem_merge he with ⟨e', he', hkey⟩ | he
    · rw [hkey]
      exact htags e' he'
    · exact h.untagged e he

/-- Binding a path in the document is like binding it in the value that counts. -/
theorem AlikeValues.bound {segment : String} {path : List String} {value : Node}
    {old : Option Node} (h : AlikeValues (m.get? (.text segment)) old)
    (hset : m.setPath? value segment path = some m') :
    AlikeValues (m'.get? (.text segment)) (some (bound path value old)) := by
  cases path with
  | nil =>
    obtain ⟨v, rfl, hwhole, -⟩ := Mapping.exists_put_of_setPath? hset
    rw [Mapping.get?_put_text, if_pos rfl, hwhole rfl]
    exact .inl rfl
  | cons key path =>
    obtain ⟨nested, hnested, rfl⟩ := Mapping.exists_of_setPath?_cons hset
    obtain ⟨v, rfl, hwhole, hpart⟩ := Mapping.exists_put_of_setPath? hnested
    rw [Mapping.get?_put_text, if_pos rfl]
    exact .inr ⟨_, _, rfl, rfl, h.inner.put (alike_behind hwhole hpart) _⟩

/-- A binding carries on what the document has. -/
theorem Tracks.apply (h : Tracks docs bs m) {b : Binding}
    (happly : Binding.applyTo? m b = some m') : Tracks docs (bs ++ [b]) m' := by
  obtain ⟨v, hput, hwhole, hpart⟩ := Mapping.exists_put_of_setPath? happly
  refine ⟨fun name => ?_, fun name => ?_, fun e he => ?_⟩
  · rw [hput, Mapping.get?_put_text, given_snoc_binding]
    by_cases hname : b.segment = name
    · rw [if_pos hname]
      by_cases hpath : b.path = []
      · rw [if_pos ⟨hname, hpath⟩, hwhole hpath]
        exact .inl rfl
      · -- A longer path does not count for the field, but leaves a mapping in its place.
        exact .inr ⟨v, rfl, hpart hpath⟩
    · rw [if_neg hname, if_neg fun hkey => hname hkey.1]
      exact h.agrees name
  · rw [table, List.foldl_append, List.foldl_cons, List.foldl_nil, addBinding]
    by_cases hname : b.segment = name
    · rw [if_pos hname]
      subst hname
      exact (h.alike b.segment).bound happly
    · rw [if_neg hname, hput, Mapping.get?_put_text, if_neg hname]
      exact h.alike name
  · rw [hput] at he
    rcases Mapping.mem_put he with hkey | he
    · rw [hkey]
      rfl
    · exact h.untagged e he

/-- What the document has after all files. -/
theorem tracks_of_files (hkeys : ∀ doc ∈ docs, (doc.map (·.1)).Nodup)
    (htags : ∀ doc ∈ docs, ∀ e ∈ doc, e.1.isTagged = false) :
    Tracks docs [] (docs.foldl Mapping.merge []) := by
  -- By induction from the last file on, whose values count before those of the others.
  induction docs using List.reverseRecOn with
  | nil => exact ⟨fun _ => .inl rfl, fun _ => .inl rfl, List.forall_mem_nil _⟩
  | append_singleton docs doc ih =>
    rw [List.forall_mem_append, List.forall_mem_singleton] at hkeys htags
    rw [List.foldl_append]
    exact (ih hkeys.1 htags.1).merge hkeys.2 htags.2

/-- All bindings carry on what the document has. -/
theorem Tracks.apply_all {bs' : List Binding} (h : Tracks docs bs m)
    (happly : bs'.foldlM Binding.applyTo? m = some m') : Tracks docs (bs ++ bs') m' := by
  induction bs' generalizing bs m with
  | nil =>
    cases happly
    rwa [List.append_nil]
  | cons b bs' ih =>
    rw [List.foldlM_cons] at happly
    obtain ⟨m₁, hfirst, hrest⟩ := Option.bind_eq_some_iff.1 happly
    rw [List.append_cons]
    exact ih (h.apply hfirst) hrest

/-! ## No nested mapping can be read -/

/-- A mapping is not a text. -/
theorem text?_eq_none {v : Node} (h : v.isMapping = true) : text? v = none := by
  obtain ⟨es, rfl⟩ := Node.exists_of_isMapping h
  rfl

/-- A mapping is not a natural. -/
theorem natural?_eq_none {v : Node} (h : v.isMapping = true) : natural? v = none := by
  obtain ⟨es, rfl⟩ := Node.exists_of_isMapping h
  rfl

/-- A mapping is not a list of texts. -/
theorem texts?_eq_none {v : Node} (h : v.isMapping = true) : texts? v = none := by
  obtain ⟨es, rfl⟩ := Node.exists_of_isMapping h
  rfl

/-- A value that may be absent is no mapping if none can be read. -/
theorem optional?_eq_none {α : Type} {read? : Node → Option α}
    (hread : ∀ v : Node, v.isMapping = true → read? v = none) (v : Node)
    (h : v.isMapping = true) : optional? read? v = none := by
  obtain ⟨es, rfl⟩ := Node.exists_of_isMapping h
  rw [optional?, hread _ h, Option.map_none]
  nofun

/-- What can be read in the document is what counts. -/
theorem Agrees.readOr_eq {α : Type} {read? : Node → Option α} {standard x : α}
    {found value : Option Node} (h : Agrees found value)
    (hread : ∀ v : Node, v.isMapping = true → read? v = none)
    (hx : readOr read? standard found = some x) : readOr read? standard value = some x := by
  rcases h with rfl | ⟨v, rfl, hv⟩
  · exact hx
  · rw [readOr, hread v hv] at hx
    cases hx

/-- Alike mappings are the same if the first one can be read as a table. -/
theorem eq_of_alike {es es' : Mapping} {pairs : List (String × String)}
    (h : Mapping.Alike es es') (hread : es.mapM entry? = some pairs) : es = es' := by
  induction h generalizing pairs with
  | nil => rfl
  | @cons e e' es es' he h ih =>
    rw [List.mapM_cons] at hread
    obtain ⟨pair, hpair, hread⟩ := Option.bind_eq_some_iff.1 hread
    obtain ⟨pairs, hpairs, -⟩ := Option.bind_eq_some_iff.1 hread
    obtain ⟨key, v⟩ := e
    obtain ⟨key', v'⟩ := e'
    obtain ⟨rfl, rfl | ⟨hv, -⟩⟩ := he
    · rw [ih hpairs]
    · -- The value would have to be a text.
      obtain ⟨k, -, hpair⟩ := Option.bind_eq_some_iff.1 hpair
      rw [text?_eq_none hv] at hpair
      cases hpair

/-- The table that can be read in the document is the one that counts. -/
theorem AlikeValues.readOr_eq {standard x : Option (KeyMap String)} {found value : Option Node}
    (h : AlikeValues found value) (hx : readOr (optional? table?) standard found = some x) :
    readOr (optional? table?) standard value = some x := by
  rcases h with rfl | ⟨es, es', rfl, rfl, halike⟩
  · exact hx
  · obtain ⟨t, ht, -⟩ := Option.map_eq_some_iff.1 hx
    obtain ⟨pairs, hpairs, -⟩ := Option.map_eq_some_iff.1 ht
    rwa [← eq_of_alike halike hpairs]

/-- The fields that are read from the document are those that count. -/
theorem Tracks.reads (h : Tracks docs bs m)
    (hreads : Reads base (fun name => m.get? (.text name)) s) :
    Reads base (fieldValue docs bs) s where
  problem := (h.agrees _).readOr_eq (fun _ => text?_eq_none) hreads.problem
  compilerPath := (h.agrees _).readOr_eq (fun _ => text?_eq_none) hreads.compilerPath
  compileTimeout := (h.agrees _).readOr_eq (fun _ => natural?_eq_none) hreads.compileTimeout
  samplingSeed := (h.agrees _).readOr_eq (optional?_eq_none fun _ => natural?_eq_none)
    hreads.samplingSeed
  flagsToAdd := (h.agrees _).readOr_eq (optional?_eq_none fun _ => texts?_eq_none) hreads.flagsToAdd
  flagsToDelete := (h.agrees _).readOr_eq (optional?_eq_none fun _ => texts?_eq_none)
    hreads.flagsToDelete
  flagsToReplace := (h.alike _).readOr_eq hreads.flagsToReplace
  logFlags := (h.agrees _).readOr_eq (optional?_eq_none fun _ => texts?_eq_none) hreads.logFlags
  policyFlags := (h.agrees _).readOr_eq (optional?_eq_none fun _ => texts?_eq_none)
    hreads.policyFlags

/-! ## Main result -/

/-- Settings that could be loaded have the values that count, if no key of a file has a tag. The
value of a field is that of its last binding, else that of the last file that sets it; the table of
replaced options is put together from all of them in order. A field without a value is the standard
one. -/
theorem load_precedence (h : load d files texts = .ok s) :
    ∃ docs bs, files.mapM (fileEntries? d) = some docs ∧ texts.mapM Binding.ofText? = some bs ∧
      ((∀ doc ∈ docs, ∀ e ∈ doc, e.1.isTagged = false) →
        Reads standard (fieldValue docs bs) s) := by
  obtain ⟨docs, bs, m, hdocs, hbs, hfold, hsettings, -⟩ := load_eq_ok_iff.1 h
  refine ⟨docs, bs, hdocs, hbs, fun htags => ?_⟩
  have htracks : Tracks docs bs m :=
    (tracks_of_files (nodup_of_mapM hdocs) htags).apply_all hfold
  have hreads : Reads standard (fun name => m.get? (.text name)) s :=
    reads_of_setFields? hsettings htracks.untagged
  exact htracks.reads hreads

namespace Sample

/-- The text of a first file. -/
def firstText : String :=
  "problem: first\ncompile_timeout_secs: 5\nflags_to_add: [-g]\nflags_to_replace: {-o: a, -O: b}\n"

/-- The text of a second file, which sets some of the same fields. -/
def secondText : String :=
  "compile_timeout_secs: 7\nflags_to_add: null\nflags_to_replace:\n  -O: c\n"

/-- A disk with both files. -/
def disk : Disk :=
  ⟨.folder [("a.yaml", .file (Text.encode firstText)),
    ("b.yaml", .file (Text.encode secondText))], []⟩

/-- The entries of the first file. -/
def first : Mapping :=
  [(.text "problem", .text "first"), (.text "compile_timeout_secs", .number (.natural 5)),
    (.text "flags_to_add", .sequence [.text "-g"]),
    (.text "flags_to_replace", .mapping [(.text "-o", .text "a"), (.text "-O", .text "b")])]

/-- The entries of the second file. -/
def second : Mapping :=
  [(.text "compile_timeout_secs", .number (.natural 7)), (.text "flags_to_add", .null),
    (.text "flags_to_replace", .mapping [(.text "-O", .text "c")])]

/-- A binding of a whole field. -/
def whole : Binding :=
  ⟨"problem", [], .text "second"⟩

/-- A binding of an entry of the table. -/
def entry : Binding :=
  ⟨"flags_to_replace", ["-I"], .text "d"⟩

/-- The bindings as texts. -/
def bindings : List String :=
  ["problem = second", "flags_to_replace.-I = d"]

/-- The document that is made of files and bindings. -/
def document : Mapping :=
  [(.text "problem", .text "second"), (.text "compile_timeout_secs", .number (.natural 7)),
    (.text "flags_to_add", .null),
    (.text "flags_to_replace", .mapping
      [(.text "-o", .text "a"), (.text "-O", .text "c"), (.text "-I", .text "d")])]

/-- What counts. -/
def settings : Settings :=
  { standard with
    problem := "second"
    compileTimeout := 7
    flagsToReplace := some (KeyMap.ofList [("-o", "a"), ("-O", "c"), ("-I", "d")]) }

/-- The files hold these entries. -/
theorem mapM_fileEntries :
    ["a.yaml", "b.yaml"].mapM (fileEntries? disk) = some [first, second] := by
  decide +kernel

/-- The bindings say this. -/
theorem mapM_bindings : bindings.mapM Binding.ofText? = some [whole, entry] := by
  decide +kernel

/-- The files and bindings can be loaded. -/
theorem load_disk : load disk ["a.yaml", "b.yaml"] bindings = .ok settings := by
  have hdocument : [whole, entry].foldlM Binding.applyTo?
      ([first, second].foldl Mapping.merge []) = some document := by
    simp only [List.foldlM_cons, List.foldlM_nil, Binding.applyTo?, whole, entry,
      Mapping.setPath?_nil, Mapping.setPath?_cons]
    rfl
  have hsettings : ofMapping? document = some settings := by
    decide +kernel
  exact load_eq_ok_iff.2
    ⟨_, _, document, mapM_fileEntries, mapM_bindings, hdocument, hsettings, by decide⟩

end Sample

/-- The second file and the bindings count, and the table has entries of all of them. -/
theorem load_precedence_of_two_files :
    load Sample.disk ["a.yaml", "b.yaml"] Sample.bindings = .ok Sample.settings ∧
      Reads standard (fieldValue [Sample.first, Sample.second] [Sample.whole, Sample.entry])
        Sample.settings := by
  have htags : ∀ doc ∈ [Sample.first, Sample.second], ∀ e ∈ doc, e.1.isTagged = false := by
    decide +kernel
  obtain ⟨docs, bs, hdocs, hbs, hreads⟩ := load_precedence Sample.load_disk
  obtain rfl := Option.some.inj (Sample.mapM_fileEntries.symm.trans hdocs)
  obtain rfl := Option.some.inj (Sample.mapM_bindings.symm.trans hbs)
  exact ⟨Sample.load_disk, hreads htags⟩

end Settings

end TraceGen
