import Mathlib.Data.List.Nodup
import TraceGen.Files.Disk

/-!
# Listings of folders

A folder lists its entries in some order. In a tree whose folders give no name twice
(`Item.WellNamed`) the order does not matter for what is found: two trees that differ in the order
of their listings only, at any level (`Item.Relisted`), hold the same files at the same places
(`Item.Relisted.lookup?_eq_file_iff`).
-/

namespace TraceGen.Item

variable {item other : Item} {entries others : List (String × Item)} {name : String}

/-- The entries of every folder of a tree have different names. -/
inductive WellNamed : Item → Prop
  /-- A file has no entries. -/
  | file (content : Bytes) : WellNamed (.file content)
  /-- The names in the folder are different, and so they are in each of its entries. -/
  | folder {entries : List (String × Item)} (hnames : (entries.map Prod.fst).Nodup)
    (hentries : ∀ entry ∈ entries, WellNamed entry.2) : WellNamed (.folder entries)

/-- Two trees are the same but for the order in which their folders list the entries. -/
inductive Relisted : Item → Item → Prop
  /-- A file is itself. -/
  | file (content : Bytes) : Relisted (.file content) (.file content)
  /-- The folders list the same names in some order, with the same items but for the order of their
  own listings. -/
  | folder {entries others : List (String × Item)}
    (hnames : (entries.map Prod.fst).Perm (others.map Prod.fst))
    (hentries : ∀ name item other, (name, item) ∈ entries → (name, other) ∈ others →
      Relisted item other) : Relisted (.folder entries) (.folder others)

/-- What is found under a name is one of the entries. -/
theorem mem_of_found (h : entry? name entries = some item) : (name, item) ∈ entries := by
  induction entries with
  | nil => cases h
  | cons entry entries ih =>
    obtain ⟨n, old⟩ := entry
    unfold entry? at h
    split at h
    · rename_i hn
      cases h
      rw [hn]
      exact List.mem_cons_self
    · exact List.mem_cons_of_mem _ (ih h)

/-- If the names are different, all entries are found under their names. -/
theorem entry?_eq_some_iff (hnames : (entries.map Prod.fst).Nodup) :
    entry? name entries = some item ↔ (name, item) ∈ entries := by
  refine ⟨mem_of_found, fun hmem => ?_⟩
  induction entries with
  | nil => cases hmem
  | cons entry entries ih =>
    obtain ⟨n, old⟩ := entry
    rw [List.map_cons, List.nodup_cons] at hnames
    unfold entry?
    rcases List.mem_cons.1 hmem with heq | hmem
    · cases heq
      exact if_pos rfl
    · rw [if_neg]
      · exact ih hnames.2 hmem
      · rintro rfl
        exact hnames.1 (List.mem_map.2 ⟨_, hmem, rfl⟩)

/-- The relation does not depend on which tree is listed first. -/
theorem Relisted.symm (h : Relisted item other) : Relisted other item := by
  induction h with
  | file content => exact .file content
  | folder hnames _ ih =>
    exact .folder hnames.symm fun name item other hitem hother => ih name other item hother hitem

/-- Relisting a tree gives no name twice. -/
theorem Relisted.wellNamed (h : Relisted item other) (hitem : WellNamed item) :
    WellNamed other := by
  induction h with
  | file content => exact hitem
  | @folder entries others hnames hentries ih =>
    cases hitem with
    | folder hdifferent hbelow =>
      refine .folder (hnames.nodup_iff.1 hdifferent) fun entry hentry => ?_
      obtain ⟨name, other⟩ := entry
      -- The name is one of the first folder, too, which says what is below it.
      obtain ⟨⟨_, item⟩, hitem, rfl⟩ := List.mem_map.1
        (hnames.mem_iff.2 (List.mem_map_of_mem hentry))
      exact ih _ item other hitem hentry (hbelow _ hitem)

/-- A file of a tree is in the relisted tree at the same place. -/
theorem Relisted.lookup?_file (h : Relisted item other) (hother : WellNamed other)
    {place : List String} {content : Bytes} (hfile : item.lookup? place = some (.file content)) :
    other.lookup? place = some (.file content) := by
  induction h generalizing place with
  | file content => exact hfile
  | @folder entries others hnames hentries ih =>
    cases place with
    | nil => cases hfile
    | cons name place =>
      cases hother with
      | folder hdifferent hbelow =>
        rw [lookup?] at hfile ⊢
        cases hentry : entry? name entries with
        | none => simp only [hentry, reduceCtorEq] at hfile
        | some item =>
          simp only [hentry] at hfile
          have hitem := mem_of_found hentry
          obtain ⟨⟨_, other⟩, hmem, rfl⟩ := List.mem_map.1
            (hnames.mem_iff.1 (List.mem_map_of_mem hitem))
          rw [(entry?_eq_some_iff hdifferent).2 hmem]
          exact ih _ item other hitem hmem (hbelow _ hmem) hfile

/-- A tree and the relisted tree hold the same files. -/
theorem Relisted.lookup?_eq_file_iff (h : Relisted item other) (hitem : WellNamed item)
    (place : List String) (content : Bytes) :
    item.lookup? place = some (.file content) ↔ other.lookup? place = some (.file content) :=
  ⟨h.lookup?_file (h.wellNamed hitem), h.symm.lookup?_file hitem⟩

end TraceGen.Item
