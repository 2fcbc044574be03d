import TraceGen.Proofs.Files.Listing
import TraceGen.Proofs.Policy.Fingerprint

/-!
# The digest of a folder depends on its contents

A folder is digested file by file. `Policy.digest_by_contents` says that these are the files that
are found anywhere below the folder, each of them once, in the order of their paths. Paths are in
order if they are so name by name (`Policy.Before`), and names if their bytes are. So the digest
is the same for every order in which the folders list their entries, and wherever the folder is.

That each file below the folder is listed once (`Policy.mem_filesBelow_iff`,
`Policy.nodup_filesBelow`) is shown by induction on the tree. Sorting then leaves no choice, as
no two paths are the same (`Policy.sortedFiles_eq`).
-/

namespace TraceGen.Policy

open TraceGen.Item

/-! ## Files of a tree -/

/-- The files below the entries of a folder are those below one of the entries. -/
theorem mem_filesOfEntries_iff {place : List String} {entries : List (String × Item)}
    {file : List String × Bytes} : file ∈ filesOfEntries place entries ↔
      ∃ name item, (name, item) ∈ entries ∧ file ∈ filesBelow (place ++ [name]) item := by
  induction entries with
  | nil =>
    rw [filesOfEntries]
    simp
  | cons entry entries ih =>
    obtain ⟨name, item⟩ := entry
    rw [filesOfEntries, List.mem_append, ih]
    constructor
    · rintro (hfirst | ⟨name', item', hmem, hfile⟩)
      · exact ⟨name, item, List.mem_cons_self, hfirst⟩
      · exact ⟨name', item', List.mem_cons_of_mem _ hmem, hfile⟩
    · rintro ⟨name', item', hmem, hfile⟩
      rcases List.mem_cons.1 hmem with heq | hmem
      · cases heq
        exact .inl hfile
      · exact .inr ⟨name', item', hmem, hfile⟩

/-- The files below an item are those that are found there, each with its place. -/
theorem mem_filesBelow_iff {item : Item} (h : WellNamed item) {place names : List String}
    {content : Bytes} : (names, content) ∈ filesBelow place item ↔
      ∃ rest, names = place ++ rest ∧ item.lookup? rest = some (.file content) := by
  induction h generalizing place with
  | file content' =>
    rw [filesBelow, List.mem_singleton]
    constructor
    · rintro heq
      cases heq
      exact ⟨[], (List.append_nil _).symm, rfl⟩
    · rintro ⟨rest, rfl, hfound⟩
      cases rest with
      | nil =>
        cases hfound
        rw [List.append_nil]
      | cons => cases hfound
  | @folder entries hnames hentries ih =>
    rw [filesBelow, mem_filesOfEntries_iff]
    constructor
    · rintro ⟨name, item, hmem, hfile⟩
      obtain ⟨rest, rfl, hfound⟩ := (ih _ hmem).1 hfile
      refine ⟨name :: rest, by simp, ?_⟩
      rw [lookup?, (entry?_eq_some_iff hnames).2 hmem]
      exact hfound
    · rintro ⟨rest, rfl, hfound⟩
      cases rest with
      | nil => cases hfound
      | cons name rest =>
        rw [lookup?] at hfound
        cases hentry : entry? name entries with
        | none => simp only [hentry, reduceCtorEq] at hfound
        | some item =>
          simp only [hentry] at hfound
          have hmem := mem_of_found hentry
          exact ⟨name, item, hmem, (ih _ hmem).2 ⟨rest, by simp, hfound⟩⟩

/-- No two files below the entries of a folder have the same place, if this is so for each entry. -/
theorem nodup_filesOfEntries {entries : List (String × Item)}
    (hnames : (entries.map Prod.fst).Nodup) (hentries : ∀ entry ∈ entries, WellNamed entry.2)
    (hfiles : ∀ entry ∈ entries, ∀ place, ((filesBelow place entry.2).map Prod.fst).Nodup)
    (place : List String) : ((filesOfEntries place entries).map Prod.fst).Nodup := by
  induction entries with
  | nil =>
    rw [filesOfEntries]
    exact List.nodup_nil
  | cons entry entries ih =>
    obtain ⟨name, item⟩ := entry
    rw [List.map_cons, List.nodup_cons] at hnames
    obtain ⟨hitem, hentries⟩ := List.forall_mem_cons.1 hentries
    obtain ⟨hfirst, hfiles⟩ := List.forall_mem_cons.1 hfiles
    rw [filesOfEntries, List.map_append, List.nodup_append]
    refine ⟨hfirst _, ih hnames.2 hentries hfiles, ?_⟩
    -- Places below different entries differ in the name of the entry.
    rintro names hbelow names' hothers rfl
    obtain ⟨⟨_, content⟩, hfile, rfl⟩ := List.mem_map.1 hbelow
    obtain ⟨⟨_, content'⟩, hfile', hsame⟩ := List.mem_map.1 hothers
    obtain ⟨name', item', hmem, hfile'⟩ := mem_filesOfEntries_iff.1 hfile'
    obtain ⟨rest, hplace, -⟩ := (mem_filesBelow_iff hitem).1 hfile
    obtain ⟨rest', hplace', -⟩ := (mem_filesBelow_iff (hentries _ hmem)).1 hfile'
    dsimp only at hplace hsame
    rw [hsame, hplace, List.append_assoc, List.append_assoc] at hplace'
    obtain rfl : name = name' := (List.cons.inj (List.append_cancel_left hplace')).1
    exact hnames.1 (List.mem_map.2 ⟨_, hmem, rfl⟩)

/-- No two files below an item have the same place. -/
theorem nodup_filesBelow {item : Item} (h : WellNamed item) (place : List String) :
    ((filesBelow place item).map Prod.fst).Nodup := by
  induction h generalizing place with
  | file content =>
    rw [filesBelow]
    exact List.nodup_singleton _
  | folder hnames hentries ih =>
    rw [filesBelow]
    exact nodup_filesOfEntries hnames hentries (fun entry hmem => ih entry hmem) place

/-! ## The order of paths -/

/-- A path comes before another one: at the first name in which they differ its name has the lesser
bytes, or it ends there. -/
def Before (names others : List String) : Prop :=
  names.map Text.encode < others.map Text.encode

/-- Paths are compared name by name, and names byte by byte. -/
theorem comesFirst_iff (names others : List String) :
    comesFirst names others = true ↔ names.map Text.encode ≤ others.map Text.encode := by
  induction names generalizing others with
  | nil =>
    rw [comesFirst, List.map_nil]
    simp
  | cons name names ih =>
    cases others with
    | nil =>
      rw [comesFirst, List.map_nil]
      simp
    | cons other others =>
      rw [comesFirst, List.map_cons, List.map_cons, List.cons_le_cons_iff, Bool.or_eq_true,
        Bool.and_eq_true, ih, decide_eq_true_eq, beq_iff_eq, Text.encode_lt_encode_iff]
      exact or_congr Iff.rfl (and_congr ⟨congrArg _, Text.encode_injective⟩ Iff.rfl)

/-- The bytes of the names tell the path. -/
theorem map_encode_injective {names others : List String}
    (h : names.map Text.encode = others.map Text.encode) : names = others :=
  List.map_injective_iff.2 (fun _ _ => Text.encode_injective) h

/-- Files in order have paths in order, if no two paths are the same. -/
theorem pairwise_before {files : List (List String × Bytes)}
    (hsorted : files.Pairwise fun a b => comesFirst a.1 b.1 = true)
    (hnodup : (files.map Prod.fst).Nodup) : files.Pairwise fun a b => Before a.1 b.1 := by
  rw [List.Nodup, List.pairwise_map] at hnodup
  refine (hsorted.and hnodup).imp fun ⟨hfirst, hne⟩ => ?_
  exact Std.lt_of_le_of_ne ((comesFirst_iff _ _).1 hfirst) (mt map_encode_injective hne)

/-- The files of a folder are sorted. -/
theorem pairwise_sortedFiles {entries : List (String × Item)} (h : WellNamed (.folder entries)) :
    (sortedFiles entries).Pairwise fun a b => Before a.1 b.1 := by
  have hfiles := List.mergeSort_perm (filesOfEntries [] entries) fun a b => comesFirst a.1 b.1
  have hnodup := nodup_filesBelow h []
  rw [filesBelow] at hnodup
  refine pairwise_before (List.pairwise_mergeSort ?_ ?_ _)
    ((hfiles.map Prod.fst).nodup_iff.2 hnodup)
  · intro a b c hab hbc
    rw [comesFirst_iff] at hab hbc ⊢
    exact List.le_trans hab hbc
  · intro a b
    rw [Bool.or_eq_true, comesFirst_iff, comesFirst_iff]
    exact List.le_total _ _

/-- The files of a folder are those that are found below it. -/
theorem mem_sortedFiles_iff {entries : List (String × Item)} (h : WellNamed (.folder entries))
    {names : List String} {content : Bytes} : (names, content) ∈ sortedFiles entries ↔
      (Item.folder entries).lookup? names = some (.file content) := by
  have hbelow : (names, content) ∈ filesBelow [] (.folder entries) ↔ _ := mem_filesBelow_iff h
  rw [filesBelow] at hbelow
  rw [sortedFiles, List.mem_mergeSort, hbelow]
  simp

/-- Two folders in which the same files are found have the same files in order. -/
theorem sortedFiles_eq {entries others : List (String × Item)} (h : WellNamed (.folder entries))
    (h' : WellNamed (.folder others))
    (hsame : ∀ names content, (Item.folder entries).lookup? names = some (.file content) ↔
      (Item.folder others).lookup? names = some (.file content)) :
    sortedFiles entries = sortedFiles others := by
  have hsorted := pairwise_sortedFiles h
  have hsorted' := pairwise_sortedFiles h'
  have hnodup {files : List (List String × Bytes)}
      (hsorted : files.Pairwise fun a b => Before a.1 b.1) : files.Nodup := by
    refine hsorted.imp ?_
    rintro a b hbefore rfl
    exact List.lt_irrefl _ hbefore
  have hperm : (sortedFiles entries).Perm (sortedFiles others) := by
    rw [List.perm_ext_iff_of_nodup (hnodup hsorted) (hnodup hsorted')]
    rintro ⟨names, content⟩
    rw [mem_sortedFiles_iff h, mem_sortedFiles_iff h', hsame]
  -- Of two files that are in order in both ways there are none.
  refine hperm.eq_of_pairwise (fun a b _ _ hab hba => ?_) hsorted hsorted'
  exact absurd hba (List.lt_asymm hab)

/-! ## Digests -/

/-- The policy of a folder, by the files that are found below it. -/
theorem load_eq {d : Disk} {path : Path} {entries : List (String × Item)}
    (h : d.item? path = some (.folder entries)) :
    load d path = if sortedFiles entries = [] then .error (.empty path)
      else .ok ⟨path, Text.hexText (Sha256.digest (folderMessage (sortedFiles entries)))⟩ := by
  unfold load
  simp only [h]
  cases sortedFiles entries <;> rfl

/-- No file is digested exactly if none is found. -/
theorem sortedFiles_eq_nil_iff {entries : List (String × Item)}
    (h : WellNamed (.folder entries)) : sortedFiles entries = [] ↔
      ∀ names content, (Item.folder entries).lookup? names ≠ some (.file content) := by
  rw [List.eq_nil_iff_forall_not_mem]
  constructor
  · intro hnone names content hfound
    exact hnone _ ((mem_sortedFiles_iff h).2 hfound)
  · rintro hnone ⟨names, content⟩ hmem
    exact hnone names content ((mem_sortedFiles_iff h).1 hmem)

/-- For a policy in a folder the files that are found anywhere below the folder are digested, each
of them once, in the order of their paths: the bytes of the relative path, with slashes between its
names, and then the content. There is no policy exactly if there is no such file. A folder that is
elsewhere, or lists its entries in another order, has the same digest if it holds the same files. -/
theorem digest_by_contents {d : Disk} {path : Path} {entries : List (String × Item)}
    (hitem : d.item? path = some (.folder entries)) (hnamed : WellNamed (.folder entries)) :
    (∀ names content, (names, content) ∈ sortedFiles entries ↔
      (Item.folder entries).lookup? names = some (.file content)) ∧
    (sortedFiles entries).Pairwise (fun a b => Before a.1 b.1) ∧
    (load d path = .error (.empty path) ↔
      ∀ names content, (Item.folder entries).lookup? names ≠ some (.file content)) ∧
    ((∃ names content, (Item.folder entries).lookup? names = some (.file content)) →
      load d path = .ok ⟨path, Text.hexText (Sha256.digest ((sortedFiles entries).flatMap
        fun file => Text.encode (String.intercalate "/" file.1) ++ file.2))⟩) ∧
    ∀ d' path' entries', d'.item? path' = some (.folder entries') →
      (Relisted (.folder entries) (.folder entries') ∨
        WellNamed (.folder entries') ∧ ∀ names content,
          (Item.folder entries).lookup? names = some (.file content) ↔
            (Item.folder entries').lookup? names = some (.file content)) →
      sortedFiles entries = sortedFiles entries' ∧
      (∀ p, load d path = .ok p → load d' path' = .ok ⟨path', p.digest⟩) ∧
      (load d path = .error (.empty path) → load d' path' = .error (.empty path')) := by
  refine ⟨fun names content => mem_sortedFiles_iff hnamed, pairwise_sortedFiles hnamed, ?_, ?_, ?_⟩
  · rw [load_eq hitem, ← sortedFiles_eq_nil_iff hnamed]
    split <;> simp_all
  · rintro ⟨names, content, hfound⟩
    have hsome : sortedFiles entries ≠ [] := by
      rw [Ne, sortedFiles_eq_nil_iff hnamed]
      exact fun hnone => hnone names content hfound
    exact (load_eq hitem).trans (if_neg hsome)
  · intro d' path' entries' hitem' hsame
    have hfiles : sortedFiles entries = sortedFiles entries' := by
      rcases hsame with hrelisted | ⟨hnamed', hsame⟩
      · exact sortedFiles_eq hnamed (hrelisted.wellNamed hnamed)
          (hrelisted.lookup?_eq_file_iff hnamed)
      · exact sortedFiles_eq hnamed hnamed' hsame
    refine ⟨hfiles, ?_⟩
    rw [load_eq hitem, load_eq hitem', hfiles]
    split
    · exact ⟨nofun, fun _ => rfl⟩
    · refine ⟨?_, nofun⟩
      rintro p ⟨⟩
      rfl

namespace Sample

/-- A folder with a file below it, one beside it and an empty folder. -/
def nested : List (String × Item) :=
  [("a", .folder [("e", .folder []), ("z", .file [1])]), ("a.b", .file [2])]

/-- The same folder, listed the other way round at both levels. -/
def turned : List (String × Item) :=
  [("a.b", .file [2]), ("a", .folder [("z", .file [1]), ("e", .folder [])])]

/-- The names of the folder are different. -/
theorem wellNamed_nested : WellNamed (.folder nested) := by
  have hempty : WellNamed (.folder []) := .folder List.nodup_nil nofun
  have hinner : WellNamed (.folder [("e", .folder []), ("z", .file [1])]) :=
    .folder (by decide) (by simp [hempty, WellNamed.file])
  exact .folder (by decide) (by simp [nested, hinner, WellNamed.file])

/-- Two entries may be listed the other way round. -/
theorem relisted_swap {name name' : String} {item item' other other' : Item} (hne : name ≠ name')
    (h : Relisted item other) (h' : Relisted item' other') :
    Relisted (.folder [(name, item), (name', item')])
      (.folder [(name', other'), (name, other)]) := by
  refine .folder (.swap ..) fun n x y hx hy => ?_
  simp only [List.mem_cons, Prod.mk.injEq, List.not_mem_nil, or_false] at hx hy
  rcases hx with ⟨rfl, rfl⟩ | ⟨rfl, rfl⟩
  · rcases hy with ⟨heq, -⟩ | ⟨-, rfl⟩
    · exact absurd heq hne
    · exact h
  · rcases hy with ⟨-, rfl⟩ | ⟨heq, -⟩
    · exact h'
    · exact absurd heq hne.symm

/-- The listings differ in their order only. -/
theorem relisted_nested : Relisted (.folder nested) (.folder turned) := by
  have hempty : Relisted (.folder []) (.folder []) := .folder (.refl _) nofun
  exact relisted_swap (by decide) (relisted_swap (by decide) hempty (.file _)) (.file _)

/-- The file in the folder `a` comes before the file `a.b`. -/
theorem sortedFiles_nested : sortedFiles nested = [(["a", "z"], [1]), (["a.b"], [2])] := by
  have hbefore : comesFirst ["a", "z"] ["a.b"] = true := by decide +kernel
  refine List.mergeSort_of_pairwise ?_
  simpa [nested, filesOfEntries, filesBelow] using hbefore

end Sample

/-- The file in the folder `a` is digested before the file `a.b` in whatever order they are listed,
and the digest is the same in another place. -/
theorem digest_by_contents_of_turned :
    sortedFiles Sample.turned = [(["a", "z"], [1]), (["a.b"], [2])] ∧
      ∃ digest, digest = Text.hexText (Sha256.digest
          (Text.encode "a/z" ++ [1] ++ (Text.encode "a.b" ++ [2]))) ∧
        load (Sample.disk Sample.nested) "p" = .ok ⟨"p", digest⟩ ∧
        load ⟨.folder [("q", .folder [("p", .folder Sample.turned)])], []⟩ "q/p" =
          .ok ⟨"q/p", digest⟩ := by
  obtain ⟨-, -, -, hload, hsame⟩ :=
    digest_by_contents (Sample.item?_disk Sample.nested) Sample.wellNamed_nested
  obtain ⟨hfiles, hmoved, -⟩ := hsame ⟨.folder [("q", .folder [("p", .folder Sample.turned)])], []⟩
    "q/p" Sample.turned rfl (.inl Sample.relisted_nested)
  have hloaded := hload ⟨["a.b"], [2], rfl⟩
  refine ⟨hfiles.symm.trans Sample.sortedFiles_nested, _, ?_, hloaded, hmoved _ hloaded⟩
  rw [Sample.sortedFiles_nested]
  rfl

end TraceGen.Policy
