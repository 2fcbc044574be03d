import Mathlib.Data.List.TakeWhile
import TraceGen.Proofs.Files.Frame

/-!
# What changes of a disk leave exactly as it was

`Disk.SameFile` says that a change goes on from a disk and leaves what the file at a place holds as
it was, also that there is none. New folders do this for every place, and a file that is written for
all places but its own.

A folder that is there need not be made (`Disk.makeFolders_of_hasFolder`), and a file that is
written with the content that it has stays as it is (`Disk.put_lookup?`). Then the disk is the same.
-/

namespace TraceGen

namespace Item

/-- A file that is found at another place than that of a new item was there before. The new item
must hold nothing. -/
theorem lookup?_of_set?_file {new item result : Item} {place other : List String}
    (h : set? new item place = some result)
    (hnew : ∀ name rest, new.lookup? (name :: rest) = none) (hne : other ≠ place) {content : Bytes}
    (hfound : result.lookup? other = some (.file content)) :
    item.lookup? other = some (.file content) := by
  -- By induction on the place, as in `lookup?_of_set?_elsewhere`.
  fun_induction set? new item place generalizing result other with
  | case1 item =>
    cases h
    obtain ⟨name, rest, rfl⟩ := List.exists_cons_of_ne_nil hne
    rw [hnew] at hfound
    cases hfound
  | case2 => cases h
  | case3 es name =>
    cases h
    cases other with
    | nil => cases hfound
    | cons first rest =>
      rw [lookup?] at hfound ⊢
      by_cases hfirst : name = first
      · subst hfirst
        obtain ⟨piece, rest, rfl⟩ := List.exists_cons_of_ne_nil fun hrest => hne (hrest ▸ rfl)
        simp only [entry?_putEntry, hnew, reduceCtorEq] at hfound
      · rwa [entry?_putEntry_of_ne hfirst] at hfound
  | case4 => cases h
  | case5 => cases h
  | case6 es name piece place child hentry child' hchild ih =>
    cases h
    cases other with
    | nil => cases hfound
    | cons first rest =>
      rw [lookup?] at hfound ⊢
      by_cases hfirst : name = first
      · subst hfirst
        simp only [entry?_putEntry] at hfound
        simp only [hentry]
        exact ih hchild (fun hrest => hne (hrest ▸ rfl)) hfound
      · rwa [entry?_putEntry_of_ne hfirst] at hfound

/-- Replacing an entry by itself changes nothing. -/
theorem putEntry_self {name : String} {item : Item} {es : List (String × Item)}
    (h : entry? name es = some item) : putEntry name item es = es := by
  induction es with
  | nil => cases h
  | cons e es ih =>
    obtain ⟨n, old⟩ := e
    unfold entry? at h
    rw [putEntry]
    split
    · rename_i hn
      rw [if_pos hn] at h
      cases h
      rfl
    · rename_i hn
      rw [if_neg hn] at h
      rw [ih h]

/-- Replacing an item by itself changes nothing. -/
theorem set?_lookup? {item found : Item} {place : List String}
    (h : item.lookup? place = some found) : set? found item place = some item := by
  induction place generalizing item with
  | nil =>
    rw [lookup?] at h
    cases h
    cases found <;> rfl
  | cons name place ih =>
    cases item with
    | file content => cases h
    | folder es =>
      rw [lookup?] at h
      cases hentry : entry? name es with
      | none => simp only [hentry, reduceCtorEq] at h
      | some child =>
        simp only [hentry] at h
        cases place with
        | nil =>
          rw [lookup?] at h
          cases h
          rw [set?, putEntry_self hentry]
        | cons piece place =>
          rw [set?]
          simp only [hentry, ih h, putEntry_self hentry]

end Item

namespace Disk

variable {d d' d'' : Disk} {p : Path} {kept place : List String}

/-! ## Files -/

/-- A change goes on from a disk and leaves what the file at a place holds, if there is one, and
that there is none if there is none. -/
structure SameFile (kept : List String) (d d' : Disk) : Prop extends Keeps kept d d' where
  /-- The file was there with the same content. -/
  back : ∀ content, d'.root.lookup? kept = some (.file content) →
    d.root.lookup? kept = some (.file content)

/-- A disk has the same files as itself. -/
theorem SameFile.refl (kept : List String) (d : Disk) : SameFile kept d d :=
  ⟨.refl kept d, fun _ h => h⟩

/-- Changes that leave a file alone one after the other. -/
theorem SameFile.trans (h : SameFile kept d d') (h' : SameFile kept d' d'') :
    SameFile kept d d'' :=
  ⟨h.toKeeps.trans h'.toKeeps, fun content hfile => h.back content (h'.back content hfile)⟩

/-- A file elsewhere was there before something was put. -/
theorem lookup?_of_put {item : Item} (hnew : ∀ name rest, item.lookup? (name :: rest) = none)
    (hne : kept ≠ place) {content : Bytes}
    (hfound : (d.put place item).root.lookup? kept = some (.file content)) :
    d.root.lookup? kept = some (.file content) := by
  unfold put at hfound
  cases hset : Item.set? item d.root place with
  | none => rwa [hset] at hfound
  | some root =>
    rw [hset] at hfound
    exact Item.lookup?_of_set?_file hset hnew hne hfound

/-- A new folder leaves all files alone. -/
theorem sameFile_of_addFolder? (kept : List String) (h : d.addFolder? p = some d') :
    SameFile kept d d' := by
  refine ⟨keeps_of_addFolder? kept h, fun content hfound => ?_⟩
  unfold addFolder? at h
  split at h
  · cases h
  · rename_i place _
    split at h
    · cases h
    · cases h
      by_cases hplace : kept = place
      · -- At the place of the new folder is no file, unless the folder could not be put there.
        subst hplace
        unfold put at hfound
        cases hset : Item.set? Item.emptyFolder d.root kept with
        | none => rwa [hset] at hfound
        | some root =>
          simp only [hset, Item.lookup?_of_set? hset] at hfound
          cases hfound
      · exact lookup?_of_put (fun _ _ => rfl) hplace hfound

/-- Writing a file leaves the files at other places alone. -/
theorem sameFile_of_write? {content : Bytes} (h : d.write? p content = some d')
    (hne : d.target p ≠ kept) : SameFile kept d d' := by
  refine ⟨keeps_of_write? h hne, fun content hfound => ?_⟩
  obtain ⟨place, hplace, -, rfl⟩ := place?_of_write? h
  rw [← eq_target_of_place? hplace] at hne
  exact lookup?_of_put (fun _ _ => rfl) hne.symm hfound

/-! ## Nothing at all -/

/-- Putting what is there changes nothing. -/
theorem put_lookup? {item : Item} (h : d.root.lookup? place = some item) :
    d.put place item = d := by
  unfold put
  rw [Item.set?_lookup? h]

/-- Writing a file with the content that it has changes nothing. -/
theorem eq_of_write? {content : Bytes} (h : d.write? p content = some d')
    (hold : d.root.lookup? (d.target p) = some (.file content)) : d' = d := by
  obtain ⟨place, hplace, -, rfl⟩ := place?_of_write? h
  rw [← eq_target_of_place? hplace] at hold
  exact put_lookup? hold

/-- Walking on. -/
theorem walk?_append (root : Item) (start pieces more : List String) :
    walk? root start (pieces ++ more) = (walk? root start pieces).bind (walk? root · more) := by
  induction pieces generalizing start with
  | nil => rfl
  | cons piece pieces ih =>
    rw [List.cons_append, walk?, walk?]
    split_ifs
    · rfl
    · exact ih start
    · exact ih start.dropLast
    · rfl
    · exact ih (start ++ [piece])

/-- Empty pieces lead nowhere else. -/
theorem foldl_follow_replicate (n : Nat) (start : List String) :
    (List.replicate n "").foldl Path.follow start = start := by
  induction n with
  | zero => rfl
  | succ n ih => rw [List.replicate_succ, List.foldl_cons, Path.follow, if_pos (.inl rfl), ih]

/-- A path goes on after its last name with slashes only. -/
theorem exists_slashes (p : Path) :
    ∃ n, p.toList = (Path.withoutSlashes p).toList ++ List.replicate n '/' := by
  have hslashes : ∀ c ∈ p.toList.reverse.takeWhile (· = '/'), c = '/' := by
    intro c hc
    have hslash := List.mem_takeWhile_imp hc
    exact of_decide_eq_true hslash
  refine ⟨(p.toList.reverse.takeWhile (· = '/')).length, ?_⟩
  calc p.toList = (p.toList.reverse.takeWhile (· = '/') ++
        p.toList.reverse.dropWhile (· = '/')).reverse := by
        rw [List.takeWhile_append_dropWhile, List.reverse_reverse]
    _ = (Path.withoutSlashes p).toList ++ (p.toList.reverse.takeWhile (· = '/')).reverse := by
        rw [List.reverse_append, Path.withoutSlashes, String.toList_ofList]
    _ = (Path.withoutSlashes p).toList ++
        List.replicate (p.toList.reverse.takeWhile (· = '/')).length '/' := by
        rw [List.eq_replicate_of_mem hslashes, List.reverse_replicate, List.length_replicate]

/-- A path that names a place without the slashes at its end is not slashes only. -/
theorem withoutSlashes_ne_of_place? (h : d.place? (Path.withoutSlashes p) = some place) :
    Path.withoutSlashes p ≠ "" := by
  intro hempty
  rw [hempty, place?, if_neg (by decide)] at h
  cases h

/-- A path that is not slashes only begins at the root if it does without the slashes at its end. -/
theorem isAbsolute_withoutSlashes (h : Path.withoutSlashes p ≠ "") :
    Path.isAbsolute (Path.withoutSlashes p) = Path.isAbsolute p := by
  obtain ⟨n, hslashes⟩ := exists_slashes p
  obtain ⟨c, cs, hbare⟩ := List.exists_cons_of_ne_nil (mt String.toList_eq_nil_iff.1 h)
  unfold Path.isAbsolute
  rw [hslashes, hbare]
  rfl

/-- The slashes at the end of a path make empty pieces. -/
theorem exists_pieces_eq (p : Path) :
    ∃ n, Path.pieces p = Path.pieces (Path.withoutSlashes p) ++ List.replicate n "" := by
  obtain ⟨n, hp⟩ := exists_slashes p
  refine ⟨n, ?_⟩
  rw [Path.pieces, Path.pieces, hp]
  clear hp
  induction n with
  | zero => simp
  | succ n ih =>
    rw [List.replicate_succ', ← List.append_assoc, List.splitOn_append_cons_self, List.map_append,
      ih, List.replicate_succ', List.append_assoc]
    rfl

/-- Slashes at the end of a path lead nowhere else. -/
theorem eq_of_place?_withoutSlashes {place' : List String} (h : d.place? p = some place)
    (h' : d.place? (Path.withoutSlashes p) = some place') : place = place' := by
  unfold place? at h h'
  split at h
  · split at h'
    · rename_i husable
      obtain ⟨m, hpieces⟩ := exists_pieces_eq p
      -- What is usable is not empty, so that both paths begin alike.
      have hbare : Path.withoutSlashes p ≠ "" := by
        intro hempty
        rw [Path.isUsable, hempty] at husable
        cases husable
      rw [hpieces, walk?_append, Option.bind_eq_some_iff, ← isAbsolute_withoutSlashes hbare] at h
      obtain ⟨reached, hreached, hrest⟩ := h
      cases hreached.symm.trans h'
      rw [eq_foldl_of_walk? hrest, foldl_follow_replicate]
    · cases h'
  · cases h

/-- A folder that is there cannot be added. -/
theorem addFolder?_of_hasFolder (h : d.hasFolder p = true) : d.addFolder? p = none := by
  obtain ⟨item, hitem, hfolder⟩ := (Option.any_eq_true _ _).1 h
  obtain ⟨place, hplace, hfound⟩ := Option.bind_eq_some_iff.1 hitem
  unfold addFolder?
  cases hbare : d.place? (Path.withoutSlashes p) with
  | none => rfl
  | some place' =>
    obtain rfl := eq_of_place?_withoutSlashes hplace hbare
    simp only [hfound, Option.isSome_some, if_true]

/-- A folder that is there need not be made. -/
theorem makeFolders_of_hasFolder (h : d.hasFolder p = true) : d.makeFolders p = (true, d) := by
  unfold makeFolders
  rw [addFolders]
  split
  · rfl
  · simp only [addFolder?_of_hasFolder h]

end Disk

end TraceGen
