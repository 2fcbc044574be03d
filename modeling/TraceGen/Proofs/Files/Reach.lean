import TraceGen.Proofs.Files.Unchanged
import TraceGen.Proofs.Files.Writing

/-!
# Which places a write reaches

`Disk.standing?` says what stands at a place by itself: nothing, a folder, or a file with its
content. A path passes the places to which its beginnings lead (`Path.Passes`). Writing a file with
the folders above it (`Disk.changesOnly_writeDeep`) changes what stands at the place that the path
names, and beyond that makes folders where nothing stood, at places that the path passes.

The folders above a file are found by dropping the last names of the path one by one, which passes
no new places (`Path.passes_of_parent?`). Where a folder is named that is there, all places on the
way to it are folders (`Disk.standing?_ne_none_of_onTheWay`), so that nothing is made on this way.
-/

namespace TraceGen

/-! ## What stands at a place -/

namespace Item

/-- What an item is by itself: the content of a file, and none for a folder. -/
def content? : Item → Option Bytes
  | .file content => some content
  | .folder _ => none

/-- A new item changes only what stands at its place. There must not have been a folder, and the new
item must hold nothing. -/
theorem map_content?_lookup?_of_set? {new item result : Item} {place other : List String}
    (h : set? new item place = some result) (hfree : (item.lookup? place).any isFolder = false)
    (hnew : ∀ name rest, new.lookup? (name :: rest) = none) (hne : other ≠ place) :
    (result.lookup? other).map content? = (item.lookup? other).map content? := by
  -- By induction on the place. The other one ends above it, leads elsewhere, or goes on below.
  fun_induction set? new item place generalizing result other with
  | case1 item =>
    cases h
    obtain ⟨name, rest, rfl⟩ := List.exists_cons_of_ne_nil hne
    rw [hnew]
    cases item with
    | file content => rfl
    | folder es => cases hfree
  | case2 => cases h
  | case3 es name =>
    cases h
    cases other with
    | nil => rfl
    | cons first rest =>
      rw [lookup?, lookup?]
      by_cases hfirst : name = first
      · -- Below the new item nothing was found, as there was no folder.
        subst hfirst
        obtain ⟨piece, rest, rfl⟩ := List.exists_cons_of_ne_nil fun hrest => hne (hrest ▸ rfl)
        rw [lookup?] at hfree
        simp only [entry?_putEntry, hnew]
        cases hentry : entry? name es with
        | none => rfl
        | some child =>
          rw [hentry] at hfree
          cases child with
          | file content => rfl
          | folder es => cases hfree
      · rw [entry?_putEntry_of_ne hfirst]
  | case4 => cases h
  | case5 => cases h
  | case6 es name piece place child hentry child' hchild ih =>
    cases h
    cases other with
    | nil => rfl
    | cons first rest =>
      rw [lookup?, lookup?]
      by_cases hfirst : name = first
      · subst hfirst
        rw [lookup?, hentry] at hfree
        simp only [entry?_putEntry, hentry]
        exact ih hchild hfree fun hrest => hne (hrest ▸ rfl)
      · rw [entry?_putEntry_of_ne hfirst]

end Item

/-! ## Places that a path passes -/

namespace Path

variable {start way more : List String} {place : List String} {p parent : Path}

/-- Some beginning of the pieces of a way leads to a place. -/
def Passes (start way place : List String) : Prop :=
  ∃ before, before <+: way ∧ before.foldl follow start = place

/-- Every way passes the place from which it starts. -/
theorem passes_start (start way : List String) : Passes start way start :=
  ⟨[], List.nil_prefix, rfl⟩

/-- Every way passes the place to which it leads. -/
theorem passes_end (start way : List String) : Passes start way (way.foldl follow start) :=
  ⟨way, List.prefix_rfl, rfl⟩

/-- A longer way passes no less. -/
theorem Passes.mono (h : Passes start way place) (hlonger : way <+: more) :
    Passes start more place := by
  obtain ⟨before, hbefore, hplace⟩ := h
  exact ⟨before, hbefore.trans hlonger, hplace⟩

/-- What a way passes after its start. -/
theorem passes_cons_iff {piece : String} :
    Passes start (piece :: way) place ↔ place = start ∨ Passes (follow start piece) way place := by
  constructor
  · rintro ⟨before, hbefore, rfl⟩
    rcases List.prefix_cons_iff.1 hbefore with rfl | ⟨rest, rfl, hrest⟩
    · exact .inl rfl
    · exact .inr ⟨rest, hrest, rfl⟩
  · rintro (rfl | ⟨before, hbefore, rfl⟩)
    · exact passes_start _ _
    · exact ⟨piece :: before, (List.prefix_cons_inj piece).2 hbefore, rfl⟩

/-- A way passes what its first part passes, and then what the rest passes from there. -/
theorem passes_append_iff : Passes start (way ++ more) place ↔
    Passes start way place ∨ Passes (way.foldl follow start) more place := by
  induction way generalizing start with
  | nil =>
    refine ⟨.inr, ?_⟩
    rintro (⟨before, hbefore, rfl⟩ | h)
    · rw [List.prefix_nil.1 hbefore]
      exact passes_start _ _
    · exact h
  | cons piece way ih =>
    rw [List.cons_append, passes_cons_iff, passes_cons_iff, ih, List.foldl_cons, or_assoc]

/-! ## Pieces of a path and of the folder around it -/

/-- Texts with a slash between them have the pieces of both. -/
theorem pieces_of_slash {front : Path} {back : List Char}
    (h : p.toList = front.toList ++ '/' :: back) :
    pieces p = pieces front ++ pieces (String.ofList back) := by
  unfold pieces
  rw [h, List.splitOn_append_cons_self, List.map_append, String.toList_ofList]

/-- The names that are left when idle pieces are dropped end with a name that is not empty. -/
theorem exists_of_dropIdle {names : List String} {name : String} {before : List String}
    (h : dropIdle names = name :: before) :
    ∃ idle, names = idle ++ name :: before ∧ name ≠ "" := by
  induction names with
  | nil => cases h
  | cons piece names ih =>
    rw [dropIdle] at h
    split at h
    · obtain ⟨idle, hnames, hname⟩ := ih h
      exact ⟨piece :: idle, by rw [hnames, List.cons_append], hname⟩
    · rename_i hkept
      cases h
      exact ⟨[], rfl, fun hempty => hkept (.inl hempty)⟩

/-- Putting together two lists of parts. -/
theorem intercalate_append {sep : List Char} {parts others : List (List Char)} (h : parts ≠ [])
    (h' : others ≠ []) :
    sep.intercalate (parts ++ others) =
      sep.intercalate parts ++ (sep ++ sep.intercalate others) := by
  induction parts with
  | nil => exact absurd rfl h
  | cons part parts ih =>
    cases parts with
    | nil =>
      rw [List.singleton_append, List.intercalate_cons_of_ne_nil h', List.intercalate_singleton,
        List.append_assoc]
    | cons next parts =>
      have hnext := ih (List.cons_ne_nil _ _)
      rw [List.cons_append, List.cons_append, List.intercalate_cons_cons, ← List.cons_append, hnext,
        List.intercalate_cons_cons]
      simp only [List.append_assoc]

/-- Parts of which the last one is not empty make up a text that is not empty. -/
theorem intercalate_ne_nil {sep last : List Char} {parts : List (List Char)} (h : last ≠ []) :
    sep.intercalate (parts ++ [last]) ≠ [] := by
  by_cases hparts : parts = []
  · rwa [hparts, List.nil_append, List.intercalate_singleton]
  · rw [intercalate_append hparts (List.cons_ne_nil _ _), List.intercalate_singleton,
      ← List.append_assoc]
    exact List.append_ne_nil_of_right_ne_nil _ h

/-- A path is its pieces with slashes between them. -/
theorem intercalate_pieces (p : Path) :
    ['/'].intercalate ((pieces p).map String.toList) = p.toList := by
  unfold pieces
  rw [List.map_map]
  simp [Function.comp_def]

/-- A way whose pieces lead nowhere else passes the place from which it starts only. -/
theorem eq_of_passes_idle (hidle : ∀ piece ∈ way, follow start piece = start)
    (h : Passes start way place) : place = start := by
  induction way with
  | nil =>
    obtain ⟨before, hbefore, rfl⟩ := h
    rw [List.prefix_nil.1 hbefore]
    rfl
  | cons piece way ih =>
    obtain ⟨hpiece, hway⟩ := List.forall_mem_cons.1 hidle
    rcases passes_cons_iff.1 h with hstart | hrest
    · exact hstart
    · rw [hpiece] at hrest
      exact ih hway hrest

/-- The folder around what a path names is the root, the place where paths start, or named by the
text before a slash of the path. -/
theorem exists_slash_of_parent? (h : parent? p = some parent) :
    parent = (if isAbsolute p then "/" else "") ∨
      parent ≠ "" ∧ ∃ back, p.toList = parent.toList ++ '/' :: back := by
  unfold parent? at h
  split at h
  · cases h
  rename_i last before hlast
  obtain ⟨idle, hpieces, -⟩ := exists_of_dropIdle hlast
  split at h
  · cases h
    exact .inl rfl
  · rename_i names hsome
    cases h
    refine .inr ?_
    cases hnames : dropIdle before with
    | nil => exact absurd hnames hsome
    | cons name names =>
      obtain ⟨idle', hbefore, hname⟩ := exists_of_dropIdle hnames
      have hall :
          pieces p = (name :: names).reverse ++ (idle'.reverse ++ last :: idle.reverse) := by
        rw [← List.reverse_reverse (pieces p), hpieces, hbefore]
        simp
      have htext : (String.intercalate "/" (name :: names).reverse).toList =
          ['/'].intercalate ((name :: names).reverse.map String.toList) :=
        String.toList_intercalate
      constructor
      · intro hempty
        rw [hempty, List.reverse_cons, List.map_append] at htext
        exact intercalate_ne_nil (mt String.toList_eq_nil_iff.1 hname) htext.symm
      · refine ⟨['/'].intercalate ((idle'.reverse ++ last :: idle.reverse).map String.toList), ?_⟩
        rw [← intercalate_pieces p, hall, List.map_append, htext]
        exact intercalate_append (by simp) (by simp)

/-- The path without its last name passes no place that the path does not pass before its end. -/
theorem passes_of_parent? (h : parent? p = some parent) :
    isAbsolute parent = isAbsolute p ∧
      ∀ {start place}, Passes start (pieces parent) place →
        Passes start (pieces p).dropLast place := by
  rcases exists_slash_of_parent? h with rfl | ⟨hsome, back, hback⟩
  · constructor
    · cases isAbsolute p <;> rfl
    · intro start place hpasses
      have hidle :
          ∀ piece ∈ pieces (if isAbsolute p then "/" else ""), follow start piece = start := by
        intro piece hpiece
        have hempty : piece = "" := by
          revert hpiece piece
          cases isAbsolute p <;> decide
        rw [hempty]
        exact if_pos (.inl rfl)
      rw [eq_of_passes_idle hidle hpasses]
      exact passes_start _ _
  · constructor
    · unfold isAbsolute
      obtain ⟨c, cs, hparent⟩ :=
        List.exists_cons_of_ne_nil (mt String.toList_eq_nil_iff.1 hsome)
      rw [hback, hparent]
      rfl
    · intro start place hpasses
      have hfront : pieces parent <+: (pieces p).dropLast := by
        rw [pieces_of_slash hback, List.dropLast_append_of_ne_nil (pieces_ne_nil _)]
        exact List.prefix_append _ _
      exact hpasses.mono hfront

/-- A relative path that continues a folder has the pieces of the folder, but for an empty one at
their end, and then its own. -/
theorem exists_base_of_join (base : Path) (h : isAbsolute p = false) :
    isAbsolute (join base p) = isAbsolute base ∧
      ∃ around, pieces (join base p) = around ++ pieces p ∧ around <+: pieces base ∧
        ∀ start, around.foldl follow start = (pieces base).foldl follow start := by
  unfold join
  rw [if_neg (by rw [h]; decide)]
  by_cases hempty : base = ""
  · subst hempty
    rw [if_pos (by decide), String.empty_append]
    exact ⟨h, [], rfl, List.nil_prefix, fun start => rfl⟩
  by_cases hslash : base.toList.getLast? = some '/'
  · -- The slash at the end of the folder makes an empty piece, which the path takes.
    obtain ⟨front, hfront⟩ := List.getLast?_eq_some_iff.1 hslash
    rw [if_pos (by rw [hslash]; simp)]
    have hjoined : (base ++ p).toList = (String.ofList front).toList ++ '/' :: p.toList := by
      rw [String.toList_append, hfront, String.toList_ofList, List.append_assoc]
      rfl
    have hbase : base.toList = (String.ofList front).toList ++ '/' :: [] := by
      rw [hfront, String.toList_ofList]
    have hpieces := pieces_of_slash hbase
    refine ⟨?_, pieces (String.ofList front), ?_, ?_, fun start => ?_⟩
    · unfold isAbsolute
      rw [hjoined, hbase, String.toList_ofList]
      cases front <;> rfl
    · rw [pieces_of_slash hjoined, String.ofList_toList]
    · rw [hpieces]
      exact List.prefix_append _ _
    · rw [hpieces, List.foldl_append]
      rfl
  · rw [if_neg (by simpa [hempty] using hslash)]
    have hjoined : (base ++ "/" ++ p).toList = base.toList ++ '/' :: p.toList := by
      rw [String.toList_append, String.toList_append, List.append_assoc]
      rfl
    refine ⟨?_, pieces base, ?_, List.prefix_rfl, fun start => rfl⟩
    · obtain ⟨c, cs, hbase⟩ := List.exists_cons_of_ne_nil (mt String.toList_eq_nil_iff.1 hempty)
      unfold isAbsolute
      rw [hjoined, hbase]
      rfl
    · rw [pieces_of_slash hjoined, String.ofList_toList]

/-- An extension changes the last piece only. -/
theorem dropLast_pieces_append (stem : String) {extension : String}
    (h : IsExtension extension) :
    (pieces (stem ++ extension)).dropLast = (pieces stem).dropLast := by
  obtain ⟨front, last, hsplit⟩ := exists_splitOn_append '/' stem.toList
  have hstem := hsplit [] List.not_mem_nil
  rw [List.append_nil] at hstem
  unfold pieces
  rw [String.toList_append, hsplit _ h.slashless, hstem, List.map_append, List.map_append,
    List.map_singleton, List.map_singleton, List.dropLast_concat, List.dropLast_concat]

end Path

/-! ## Changes -/

namespace Disk

variable {d d' d'' : Disk} {p : Path} {place : List String} {absolute : Bool}
  {way more : List String} {targets others : List (List String)}

/-- What stands at a place by itself: nothing, a folder, or a file with its content. -/
def standing? (d : Disk) (place : List String) : Option (Option Bytes) :=
  (d.root.lookup? place).map Item.content?

/-- A file that is read stands at its place. -/
theorem standing?_of_read? {content : Bytes} (h : d.read? p = some content) :
    d.standing? (d.target p) = some (some content) := by
  unfold read? at h
  split at h
  · rename_i content' hitem
    cases h
    obtain ⟨place, hplace, hfound⟩ := Option.bind_eq_some_iff.1 hitem
    rw [← eq_target_of_place? hplace, standing?, hfound]
    rfl
  · cases h

/-- The place from which paths start. -/
def start (d : Disk) (absolute : Bool) : List String :=
  if absolute then [] else d.here

/-- A path passes a place, or leads there. -/
def OnTheWay (d : Disk) (p : Path) (place : List String) : Prop :=
  Path.Passes (d.start (Path.isAbsolute p)) (Path.pieces p) place

/-- A change that writes at some places only, and beyond that makes folders where nothing stood, at
places that a way passes. -/
structure ChangesOnly (targets : List (List String)) (absolute : Bool) (way : List String)
    (d d' : Disk) : Prop where
  /-- Relative paths start at the same place. -/
  here : d'.here = d.here
  /-- What stood at a place still does, or a folder is new there. -/
  standing : ∀ place ∉ targets, d'.standing? place = d.standing? place ∨
    d.standing? place = none ∧ d'.standing? place = some none ∧
      Path.Passes (d.start absolute) way place

/-- No change. -/
theorem ChangesOnly.refl (targets : List (List String)) (absolute : Bool) (way : List String)
    (d : Disk) : ChangesOnly targets absolute way d d :=
  ⟨rfl, fun _ _ => .inl rfl⟩

/-- Paths start where they did. -/
theorem ChangesOnly.start (h : ChangesOnly targets absolute way d d') :
    d'.start absolute = d.start absolute := by
  rw [Disk.start, Disk.start, h.here]

/-- Changes one after the other. -/
theorem ChangesOnly.trans (h : ChangesOnly targets absolute way d d')
    (h' : ChangesOnly others absolute way d' d'') :
    ChangesOnly (targets ++ others) absolute way d d'' := by
  refine ⟨h'.here.trans h.here, fun place hplace => ?_⟩
  obtain ⟨hfirst, hsecond⟩ := not_or.1 (mt List.mem_append.2 hplace)
  rcases h.standing place hfirst with hsame | ⟨hnone, hnew, hpasses⟩
  · rcases h'.standing place hsecond with hsame' | ⟨hnone, hnew, hpasses⟩
    · exact .inl (hsame'.trans hsame)
    · rw [h.start] at hpasses
      exact .inr ⟨hsame.symm.trans hnone, hnew, hpasses⟩
  · rcases h'.standing place hsecond with hsame' | ⟨hnone', -, -⟩
    · exact .inr ⟨hnone, hsame'.trans hnew, hpasses⟩
    · rw [hnew] at hnone'
      cases hnone'

/-- More places and a way that passes more. -/
theorem ChangesOnly.mono (h : ChangesOnly targets absolute way d d') (htargets : targets ⊆ others)
    (hway : ∀ place, Path.Passes (d.start absolute) way place →
      Path.Passes (d.start absolute) more place) :
    ChangesOnly others absolute more d d' :=
  ⟨h.here, fun place hplace => (h.standing place fun hmem => hplace (htargets hmem)).imp_right
    fun hnew => ⟨hnew.1, hnew.2.1, hway place hnew.2.2⟩⟩

/-- Putting something where no folder is changes what stands there only. -/
theorem standing?_put {item : Item} {other : List String}
    (hfree : (d.root.lookup? place).any Item.isFolder = false)
    (hnew : ∀ name rest, item.lookup? (name :: rest) = none) (hne : other ≠ place) :
    (d.put place item).standing? other = d.standing? other := by
  unfold put
  cases hset : Item.set? item d.root place with
  | none => rfl
  | some root => exact Item.map_content?_lookup?_of_set? hset hfree hnew hne

/-- Putting something does not move the place where paths start. -/
theorem here_put (d : Disk) (place : List String) (item : Item) :
    (d.put place item).here = d.here := by
  unfold put
  split <;> rfl

/-- A new folder is where the path leads. -/
theorem changesOnly_of_addFolder? (h : d.addFolder? p = some d') :
    ChangesOnly [] (Path.isAbsolute p) (Path.pieces p) d d' := by
  unfold addFolder? at h
  split at h
  · cases h
  rename_i place hplace
  split at h
  · cases h
  rename_i hnew
  cases h
  have hnone : d.root.lookup? place = none := by
    rwa [Bool.not_eq_true, Option.isSome_eq_false_iff, Option.isNone_iff_eq_none] at hnew
  have hpasses : Path.Passes (d.start (Path.isAbsolute p)) (Path.pieces p) place := by
    have hbare := withoutSlashes_ne_of_place? hplace
    obtain ⟨n, hpieces⟩ := exists_pieces_eq p
    rw [eq_target_of_place? hplace, ← isAbsolute_withoutSlashes hbare, hpieces]
    exact (Path.passes_end _ _).mono (List.prefix_append _ _)
  refine ⟨here_put _ _ _, fun other _ => ?_⟩
  by_cases hother : other = place
  · subst hother
    unfold put
    cases hset : Item.set? Item.emptyFolder d.root other with
    | none => exact .inl rfl
    | some root =>
      refine .inr ⟨?_, ?_, hpasses⟩
      · rw [standing?, hnone]
        rfl
      · rw [standing?, Item.lookup?_of_set? hset]
        rfl
  · refine .inl (standing?_put ?_ (fun _ _ => rfl) hother)
    rw [hnone]
    rfl

/-- New folders are where a path leads or at places that it passes. -/
theorem changesOnly_makeFolders (d : Disk) (p : Path) :
    ChangesOnly [] (Path.isAbsolute p) (Path.pieces p) d (d.makeFolders p).2 := by
  -- The folders around are named by paths that begin alike and pass no other places.
  refine rel_addFolders_of_parent
    (K := fun q => Path.isAbsolute q = Path.isAbsolute p ∧ ∀ start place,
      Path.Passes start (Path.pieces q) place → Path.Passes start (Path.pieces p) place)
    (ChangesOnly.refl _ _ _) ChangesOnly.trans ?_ ?_ _ ⟨rfl, fun _ _ h => h⟩ d
  · rintro q d d' ⟨habsolute, hpasses⟩ hadd
    have hchanges := changesOnly_of_addFolder? hadd
    rw [habsolute] at hchanges
    exact hchanges.mono (List.Subset.refl _) (hpasses _)
  · rintro q parent ⟨habsolute, hpasses⟩ hparent
    obtain ⟨habsolute', hpasses'⟩ := Path.passes_of_parent? hparent
    exact ⟨habsolute'.trans habsolute, fun start place h =>
      hpasses start place ((hpasses' h).mono (List.dropLast_prefix _))⟩

/-- A file is written where the path leads. -/
theorem changesOnly_of_write? {content : Bytes} (h : d.write? p content = some d') :
    ChangesOnly [d.target p] absolute way d d' := by
  obtain ⟨place, hplace, hfree, rfl⟩ := place?_of_write? h
  rw [eq_target_of_place? hplace] at hfree ⊢
  refine ⟨here_put _ _ _, fun other hother => .inl (standing?_put hfree (fun _ _ => rfl) ?_)⟩
  exact fun heq => hother (List.mem_singleton.2 heq)

/-- Writing a file with the folders above it changes what stands at its place, and makes folders at
places that the path passes before its end. -/
theorem changesOnly_writeDeep (d : Disk) (p : Path) (content : Bytes) :
    ChangesOnly [d.target p] (Path.isAbsolute p) (Path.pieces p).dropLast d
      (d.writeDeep p content).2 := by
  unfold writeDeep
  split
  rename_i made d₁ hfolders
  have habove : ChangesOnly [] (Path.isAbsolute p) (Path.pieces p).dropLast d d₁ := by
    split at hfolders
    · cases hfolders
      exact .refl _ _ _ d
    · rename_i parent hparent
      obtain ⟨habsolute, hpasses⟩ := Path.passes_of_parent? hparent
      have hmade := changesOnly_makeFolders d parent
      rw [hfolders, habsolute] at hmade
      exact hmade.mono (List.Subset.refl _) fun place => hpasses
  have hsome : ChangesOnly [d.target p] (Path.isAbsolute p) (Path.pieces p).dropLast d d₁ :=
    habove.mono (List.nil_subset _) fun place => id
  split
  · exact hsome
  · split
    · rename_i d₂ hwrite
      have htarget : d₁.target p = d.target p := by
        rw [target, target, habove.here]
      have hwritten :
          ChangesOnly [d₁.target p] (Path.isAbsolute p) (Path.pieces p).dropLast d₁ d₂ :=
        changesOnly_of_write? hwrite
      rw [htarget] at hwritten
      exact habove.trans hwritten
    · exact hsome

/-! ## Folders on the way -/

/-- Where a walk ends at a folder, all places that it passes are folders. -/
theorem isFolder_of_walk? {root : Item} {start pieces : List String}
    (h : walk? root start pieces = some place)
    (hfolder : (root.lookup? place).any Item.isFolder = true) {other : List String}
    (hpasses : Path.Passes start pieces other) : (root.lookup? other).any Item.isFolder = true := by
  induction pieces generalizing start with
  | nil =>
    cases h
    obtain ⟨before, hbefore, rfl⟩ := hpasses
    rwa [List.prefix_nil.1 hbefore]
  | cons piece pieces ih =>
    rw [walk?] at h
    split at h
    · cases h
    rename_i hstart
    rw [Bool.not_eq_false] at hstart
    rcases Path.passes_cons_iff.1 hpasses with rfl | hrest
    · exact hstart
    · refine ih ?_ hrest
      unfold Path.follow
      split_ifs at h ⊢ <;> exact h

/-- Where a path names a folder that is there, something stands at all places on the way. -/
theorem standing?_ne_none_of_onTheWay (h : d.hasFolder p = true) (hpasses : d.OnTheWay p place) :
    d.standing? place ≠ none := by
  obtain ⟨item, hitem, hfolder⟩ := (Option.any_eq_true _ _).1 h
  obtain ⟨reached, hreached, hfound⟩ := Option.bind_eq_some_iff.1 hitem
  unfold place? at hreached
  split at hreached
  · have hfolders : (d.root.lookup? place).any Item.isFolder = true := by
      refine isFolder_of_walk? hreached ?_ hpasses
      rw [hfound]
      exact hfolder
    obtain ⟨found, hplace, -⟩ := (Option.any_eq_true _ _).1 hfolders
    rw [standing?, hplace]
    exact Option.some_ne_none _
  · cases hreached

end Disk

end TraceGen
