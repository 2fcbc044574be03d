import Mathlib.Tactic.SplitIfs
import TraceGen.Files.Disk

/-!
# What changes of a disk leave alone

A change of a disk goes on from it (`Disk.Extends`) if folders stay folders and relative paths start
where they did. Then a path that names a place still names it. A change keeps a file
(`Disk.Keeps`) if the file is also still there with the same content.

Putting something where no folder is changes no other file (`Item.lookup?_of_set?_elsewhere`). So
new folders keep every file, and writing a file keeps the files at other places. Which place a path
names can be told from its text (`Disk.eq_target_of_place?`).
-/

namespace TraceGen

/-! ## Items -/

namespace Item

/-- Looking up a place is looking up its parts one after the other. -/
theorem lookup?_append (item : Item) (place more : List String) :
    item.lookup? (place ++ more) = (item.lookup? place).bind (·.lookup? more) := by
  induction place generalizing item with
  | nil => cases item <;> rfl
  | cons name place ih =>
    cases item with
    | file content => rfl
    | folder es =>
      rw [List.cons_append, lookup?, lookup?]
      cases entry? name es with
      | none => rfl
      | some child => exact ih child

/-- What holds something is a folder. -/
theorem isFolder_of_lookup? {item found : Item} {place : List String} {name : String}
    (h : item.lookup? (place ++ [name]) = some found) :
    (item.lookup? place).any isFolder = true := by
  rw [lookup?_append, Option.bind_eq_some_iff] at h
  obtain ⟨around, haround, hfound⟩ := h
  rw [haround]
  cases around with
  | file content => cases hfound
  | folder es => rfl

/-- An item can be put into a folder that is there. -/
theorem exists_set? (new : Item) {item : Item} {place : List String} (name : String)
    (h : (item.lookup? place).any isFolder = true) :
    ∃ result, set? new item (place ++ [name]) = some result := by
  induction place generalizing item with
  | nil =>
    cases item with
    | file content => cases h
    | folder es => exact ⟨_, rfl⟩
  | cons piece place ih =>
    cases item with
    | file content => cases h
    | folder es =>
      rw [lookup?] at h
      cases hentry : entry? piece es with
      | none =>
        rw [hentry] at h
        cases h
      | some child =>
        rw [hentry] at h
        obtain ⟨result, hresult⟩ := ih h
        obtain ⟨next, rest, hplace⟩ : ∃ next rest, place ++ [name] = next :: rest :=
          List.exists_cons_of_ne_nil (List.append_ne_nil_of_right_ne_nil _ (List.cons_ne_nil _ _))
        refine ⟨.folder (putEntry piece result es), ?_⟩
        rw [List.cons_append, hplace, set?]
        rw [hplace] at hresult
        simp only [hentry, hresult]

/-- What is found at another place than that of a new item is found again: a file as it was, and a
folder as a folder. There must not have been a folder at the place of the new item. -/
theorem lookup?_of_set?_elsewhere {new item result : Item} {place other : List String}
    (h : set? new item place = some result) (hfree : (item.lookup? place).any isFolder = false)
    (hne : other ≠ place) {found : Item} (hfound : item.lookup? other = some found) :
    ∃ again, result.lookup? other = some again ∧ again.isFolder = found.isFolder ∧
      (found.isFolder = false → again = found) := by
  -- By induction on the place. The other one ends above it, leads elsewhere, or goes on below.
  fun_induction set? new item place generalizing result other with
  | case1 item =>
    obtain ⟨name, rest, rfl⟩ := List.exists_cons_of_ne_nil hne
    cases item with
    | file content => cases hfound
    | folder es => cases hfree
  | case2 => cases h
  | case3 es name =>
    cases h
    cases other with
    | nil =>
      cases hfound
      exact ⟨_, rfl, rfl, fun h => Bool.noConfusion h⟩
    | cons first rest =>
      by_cases hfirst : name = first
      · -- Below the new item nothing could be found, as there is no folder.
        subst hfirst
        rw [lookup?] at hfound hfree
        cases hentry : entry? name es with
        | none =>
          rw [hentry] at hfound
          cases hfound
        | some child =>
          rw [hentry] at hfound hfree
          cases child with
          | folder es => cases hfree
          | file content =>
            cases rest with
            | nil => exact absurd rfl hne
            | cons => cases hfound
      · rw [lookup?] at hfound ⊢
        rw [entry?_putEntry_of_ne hfirst]
        exact ⟨found, hfound, rfl, fun _ => rfl⟩
  | case4 => cases h
  | case5 => cases h
  | case6 es name piece place child hentry child' hchild ih =>
    cases h
    cases other with
    | nil =>
      cases hfound
      exact ⟨_, rfl, rfl, fun h => Bool.noConfusion h⟩
    | cons first rest =>
      rw [lookup?] at hfound ⊢
      by_cases hfirst : name = first
      · subst hfirst
        rw [hentry] at hfound
        rw [lookup?, hentry] at hfree
        rw [entry?_putEntry]
        exact ih hchild hfree (fun hrest => hne (hrest ▸ rfl)) hfound
      · rw [entry?_putEntry_of_ne hfirst]
        exact ⟨found, hfound, rfl, fun _ => rfl⟩

end Item

/-! ## Places of paths -/

namespace Path

/-- Where a piece of a path leads to from a place. -/
def follow (place : List String) (piece : String) : List String :=
  if piece = "" ∨ piece = "." then place
  else if piece = ".." then place.dropLast
  else place ++ [piece]

/-- A path has a piece at least. -/
theorem pieces_ne_nil (p : Path) : pieces p ≠ [] := by
  unfold pieces
  rw [Ne, List.map_eq_nil_iff, List.splitOn_eq_splitOnP]
  exact List.splitOnP_ne_nil _ _

end Path

namespace Disk

variable {d d' d'' : Disk} {p : Path} {kept place : List String}

/-- The place that a path names if it names one. -/
def target (d : Disk) (p : Path) : List String :=
  (Path.pieces p).foldl Path.follow (if Path.isAbsolute p then [] else d.here)

/-- Whether a place can be reached says nothing about where it is. -/
theorem eq_foldl_of_walk? {root : Item} {start : List String} {pieces : List String}
    (h : walk? root start pieces = some place) : place = pieces.foldl Path.follow start := by
  fun_induction walk? root start pieces with
  | case1 start => exact (Option.some.inj h).symm
  | case2 => cases h
  | case3 start piece pieces _ hstay ih =>
    rw [ih h, List.foldl_cons, Path.follow, if_pos hstay]
  | case4 start pieces _ hstay ih =>
    rw [ih h, List.foldl_cons, Path.follow, if_neg hstay, if_pos rfl]
  | case5 => cases h
  | case6 start piece pieces _ hstay hback _ ih =>
    rw [ih h, List.foldl_cons, Path.follow, if_neg hstay, if_neg hback]

/-- A path names no other place than its target. -/
theorem eq_target_of_place? (h : d.place? p = some place) : place = d.target p := by
  unfold place? at h
  split at h
  · exact eq_foldl_of_walk? h
  · cases h

/-- A folder is there, or the folder around an item that need not be there. -/
def Within (root : Item) (place : List String) : Prop :=
  (root.lookup? place).any Item.isFolder = true ∨
    ∃ around name, place = around ++ [name] ∧ (root.lookup? around).any Item.isFolder = true

/-- Back from a folder is a folder. -/
theorem isFolder_dropLast {root : Item} (h : (root.lookup? place).any Item.isFolder = true) :
    (root.lookup? place.dropLast).any Item.isFolder = true := by
  rcases List.eq_nil_or_concat place with rfl | ⟨around, name, rfl⟩
  · exact h
  · rw [List.concat_eq_append] at h ⊢
    rw [List.dropLast_concat]
    obtain ⟨found, hfound, -⟩ := (Option.any_eq_true _ _).1 h
    exact Item.isFolder_of_lookup? hfound

/-- A walk ends within a folder, unless it goes nowhere. -/
theorem within_of_walk? {root : Item} {start : List String} {pieces : List String}
    (h : walk? root start pieces = some place) : pieces = [] ∨ Within root place := by
  -- A step begins in a folder, so that it ends within one.
  have hnext {next rest : List String} (hwithin : Within root next)
      (hwalk : walk? root next rest = some place) (ih : rest = [] ∨ Within root place) :
      Within root place := by
    rcases ih with rfl | hplace
    · rwa [← Option.some.inj hwalk]
    · exact hplace
  fun_induction walk? root start pieces with
  | case1 => exact .inl rfl
  | case2 => cases h
  | case3 start piece pieces hfolder _ ih =>
    rw [Bool.not_eq_false] at hfolder
    exact .inr (hnext (.inl hfolder) h (ih h))
  | case4 start pieces hfolder _ ih =>
    rw [Bool.not_eq_false] at hfolder
    exact .inr (hnext (.inl (isFolder_dropLast hfolder)) h (ih h))
  | case5 => cases h
  | case6 start piece pieces hfolder _ _ _ ih =>
    rw [Bool.not_eq_false] at hfolder
    exact .inr (hnext (.inr ⟨start, piece, rfl, hfolder⟩) h (ih h))

/-- A path names something within a folder. -/
theorem within_of_place? (h : d.place? p = some place) : Within d.root place := by
  unfold place? at h
  split at h
  · refine (within_of_walk? h).resolve_left ?_
    exact Path.pieces_ne_nil p
  · cases h

/-! ## Changes -/

/-- Folders stay folders, and relative paths start where they did. -/
structure Extends (d d' : Disk) : Prop where
  /-- Relative paths start at the same place. -/
  here : d'.here = d.here
  /-- A folder is a folder again. -/
  folders : ∀ place, (d.root.lookup? place).any Item.isFolder = true →
    (d'.root.lookup? place).any Item.isFolder = true

/-- A disk goes on from itself. -/
theorem Extends.refl (d : Disk) : d.Extends d :=
  ⟨rfl, fun _ h => h⟩

/-- Changes one after the other. -/
theorem Extends.trans (h : d.Extends d') (h' : d'.Extends d'') : d.Extends d'' :=
  ⟨h'.here.trans h.here, fun place hplace => h'.folders place (h.folders place hplace)⟩

/-- The target of a path stays. -/
theorem Extends.target (h : d.Extends d') (p : Path) : d'.target p = d.target p := by
  rw [Disk.target, Disk.target, h.here]

/-- A path that names a place still names it. -/
theorem Extends.place? (h : d.Extends d') (hp : d.place? p = some place) :
    d'.place? p = some place := by
  have hwalk {start pieces : List String} (hw : walk? d.root start pieces = some place) :
      walk? d'.root start pieces = some place := by
    induction pieces generalizing start with
    | nil => exact hw
    | cons piece pieces ih =>
      rw [walk?] at hw ⊢
      by_cases hfolder : (d.root.lookup? start).any Item.isFolder = true
      · rw [if_neg (by rw [hfolder]; decide)] at hw
        rw [if_neg (by rw [h.folders start hfolder]; decide)]
        split_ifs at hw ⊢ <;> exact ih hw
      · rw [if_pos (Bool.eq_false_iff.2 hfolder)] at hw
        cases hw
  unfold Disk.place? at hp ⊢
  rw [h.here]
  split at hp
  · rename_i husable
    rw [if_pos husable]
    exact hwalk hp
  · cases hp

/-- Putting something where no folder is goes on from a disk. -/
theorem extends_put (item : Item) (hfree : (d.root.lookup? place).any Item.isFolder = false) :
    d.Extends (d.put place item) := by
  unfold put
  cases hset : Item.set? item d.root place with
  | none => exact .refl d
  | some root =>
    refine ⟨rfl, fun other hother => ?_⟩
    have hne : other ≠ place := by
      rintro rfl
      rw [hfree] at hother
      cases hother
    obtain ⟨found, hfound, hfolder⟩ := (Option.any_eq_true _ _).1 hother
    obtain ⟨again, hagain, hsame, -⟩ := Item.lookup?_of_set?_elsewhere hset hfree hne hfound
    exact (Option.any_eq_true _ _).2 ⟨again, hagain, hsame.trans hfolder⟩

/-- A change goes on from a disk and keeps the file at a place, if there is one. -/
structure Keeps (kept : List String) (d d' : Disk) : Prop extends d.Extends d' where
  /-- The file is there with the same content. -/
  file : ∀ content, d.root.lookup? kept = some (.file content) →
    d'.root.lookup? kept = some (.file content)

/-- A disk keeps its files. -/
theorem Keeps.refl (kept : List String) (d : Disk) : Keeps kept d d :=
  ⟨.refl d, fun _ h => h⟩

/-- Changes that keep a file one after the other. -/
theorem Keeps.trans (h : Keeps kept d d') (h' : Keeps kept d' d'') : Keeps kept d d'' :=
  ⟨h.toExtends.trans h'.toExtends, fun content hfile => h'.file content (h.file content hfile)⟩

/-- A path names the file that was kept. -/
theorem Keeps.item? {content : Bytes} (h : Keeps (d.target p) d d')
    (hfile : d.item? p = some (.file content)) : d'.item? p = some (.file content) := by
  obtain ⟨place, hplace, hfound⟩ := Option.bind_eq_some_iff.1 hfile
  rw [Disk.item?, h.toExtends.place? hplace]
  rw [eq_target_of_place? hplace] at hfound ⊢
  exact h.file content hfound

/-- Putting something where no folder is keeps the files elsewhere. -/
theorem keeps_put (item : Item) (hfree : (d.root.lookup? place).any Item.isFolder = false)
    (hkept : d.root.lookup? kept = none ∨ kept ≠ place) : Keeps kept d (d.put place item) := by
  refine ⟨extends_put item hfree, fun content hfile => ?_⟩
  have hne : kept ≠ place := by
    refine hkept.resolve_left ?_
    rw [hfile]
    exact Option.some_ne_none _
  unfold put
  cases hset : Item.set? item d.root place with
  | none => exact hfile
  | some root =>
    obtain ⟨again, hagain, -, hsame⟩ := Item.lookup?_of_set?_elsewhere hset hfree hne hfile
    show root.lookup? kept = some (.file content)
    rw [hagain, hsame rfl]

/-- A new folder keeps every file. -/
theorem keeps_of_addFolder? (kept : List String) (h : d.addFolder? p = some d') :
    Keeps kept d d' := by
  unfold addFolder? at h
  split at h
  · cases h
  · rename_i place _
    split at h
    · cases h
    · rename_i hnew
      cases h
      have hnone : d.root.lookup? place = none := by
        rwa [Bool.not_eq_true, Option.isSome_eq_false_iff, Option.isNone_iff_eq_none] at hnew
      apply keeps_put
      · rw [hnone]
        rfl
      · by_cases hplace : kept = place
        · exact .inl (hplace ▸ hnone)
        · exact .inr hplace

/-- What new folders keep is kept when several are made one after the other, whether or not all of
them can be made. This needs only be known of paths of a kind that dropping the last name keeps. -/
theorem rel_addFolders_of_parent {R : Disk → Disk → Prop} {K : Path → Prop}
    (hrefl : ∀ d, R d d) (htrans : ∀ {d d' d''}, R d d' → R d' d'' → R d d'')
    (hadd : ∀ {p d d'}, K p → d.addFolder? p = some d' → R d d')
    (hparent : ∀ {p parent}, K p → Path.parent? p = some parent → K parent) (fuel : Nat)
    {p : Path} (hp : K p) (d : Disk) : R d (addFolders fuel p d).2 := by
  induction fuel generalizing p with
  | zero => exact hrefl d
  | succ fuel ih =>
    unfold addFolders
    split
    · exact hrefl d
    · split
      · rename_i d' hnew
        exact hadd hp hnew
      · split
        · exact hrefl d
        · split
          · exact hrefl d
          · split
            · exact hrefl d
            · -- The folder around is made first.
              rename_i parent hparent?
              have haround := ih (hparent hp hparent?)
              dsimp only
              split
              · exact haround
              · split
                · rename_i d' hnew
                  exact htrans haround (hadd hp hnew)
                · exact haround

/-- What every new folder keeps is kept when several are made one after the other, whether or not
all of them can be made. -/
theorem rel_addFolders {R : Disk → Disk → Prop} (hrefl : ∀ d, R d d)
    (htrans : ∀ {d d' d''}, R d d' → R d' d'' → R d d'')
    (hadd : ∀ {p d d'}, d.addFolder? p = some d' → R d d') (fuel : Nat) (p : Path) (d : Disk) :
    R d (addFolders fuel p d).2 :=
  rel_addFolders_of_parent hrefl htrans (fun (_ : True) => hadd) (fun _ _ => trivial) fuel trivial d

/-- The folders above a path keep every file. -/
theorem keeps_makeFolders (kept : List String) (d : Disk) (p : Path) :
    Keeps kept d (d.makeFolders p).2 :=
  rel_addFolders (Keeps.refl kept) Keeps.trans (keeps_of_addFolder? kept) _ p d

/-- Where a file can be written. -/
theorem place?_of_write? {content : Bytes} (h : d.write? p content = some d') :
    ∃ place, d.place? p = some place ∧ (d.root.lookup? place).any Item.isFolder = false ∧
      d' = d.put place (.file content) := by
  unfold write? at h
  split at h
  · cases h
  · rename_i place hplace
    split at h
    · cases h
    · rename_i hfree
      exact ⟨place, hplace, Bool.eq_false_iff.2 hfree, (Option.some.inj h).symm⟩

/-- A file can be written over a file. -/
theorem exists_write? {old : Bytes} (content : Bytes) (h : d.item? p = some (.file old)) :
    ∃ d', d.write? p content = some d' := by
  obtain ⟨place, hplace, hold⟩ := Option.bind_eq_some_iff.1 h
  refine ⟨d.put place (.file content), ?_⟩
  unfold write?
  rw [hplace]
  dsimp only
  rw [hold]
  rfl

/-- Writing a file goes on from a disk. -/
theorem extends_of_write? {content : Bytes} (h : d.write? p content = some d') : d.Extends d' := by
  obtain ⟨place, -, hfree, rfl⟩ := place?_of_write? h
  exact extends_put _ hfree

/-- Writing a file keeps the files at other places. -/
theorem keeps_of_write? {content : Bytes} (h : d.write? p content = some d')
    (hne : d.target p ≠ kept) : Keeps kept d d' := by
  obtain ⟨place, hplace, hfree, rfl⟩ := place?_of_write? h
  apply keeps_put _ hfree
  rw [eq_target_of_place? hplace]
  exact .inr hne.symm

/-- A file that was written is there. -/
theorem item?_of_write? {content : Bytes} (h : d.write? p content = some d') :
    d'.item? p = some (.file content) := by
  obtain ⟨place, hplace, hfree, rfl⟩ := place?_of_write? h
  -- The file may be new, but the folder around it was there.
  obtain ⟨around, name, rfl, haround⟩ :=
    (within_of_place? hplace).resolve_left (by rw [hfree]; decide)
  obtain ⟨root, hset⟩ := Item.exists_set? (.file content) name haround
  have hput : d.put (around ++ [name]) (.file content) = { d with root := root } := by
    rw [put, hset]
  have hstill := (extends_put (.file content) hfree).place? hplace
  rw [item?, hstill, hput]
  exact Item.lookup?_of_set? hset

end Disk

end TraceGen
