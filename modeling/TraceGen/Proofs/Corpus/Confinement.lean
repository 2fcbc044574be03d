import TraceGen.Proofs.Corpus.Inputs
import TraceGen.Proofs.Files.Reach

/-!
# Where the inputs of a module are written

The name of a module is a path, and the files of the module are written where it leads from a
folder. A name that begins at the root or leads back further than it has led into folders leaves the
folder, as `LoadedModule.neighbour_overwritten` shows: there the corpus itself is overwritten.

`LoadedModule.inputs_stay_below` says what writing the inputs changes for any name, and that for
names that lead inward (`Path.isInward`) all of this lies below the folder. Other names leave every
folder whose own name they do not know. The way to this is a walk along the pieces of a name with
the depth that it has reached below the folder: `Path.prefix_of_passes` says that it stays
below as long as the depth does not run out, and `Path.not_prefix_of_leaving` that it never comes
back afterwards.
-/

namespace TraceGen

/-! ## Ways below a place -/

namespace Path

variable {top place extra way around : List String} {own : String} {depth : Nat}

/-- Whether a way that begins at some depth below a place never leads back above this place. -/
def staysBelow : Nat → List String → Bool
  | _, [] => true
  | depth, piece :: way =>
    if piece = "" ∨ piece = "." then staysBelow depth way
    else if piece = ".." then 0 < depth && staysBelow (depth - 1) way
    else staysBelow (depth + 1) way

/-- Whether a name leads inward: it does not begin at the root, and the folders that it names do not
lead back out of the one where it begins. -/
def isInward (name : String) : Bool :=
  !isAbsolute name && staysBelow 0 (pieces name).dropLast

/-- A place lies below another one. -/
def Below (top place : List String) : Prop :=
  top <+: place ∧ place ≠ top

/-- Being below is a matter of comparing names. -/
instance (top place : List String) : Decidable (Below top place) :=
  inferInstanceAs (Decidable (_ ∧ _))

/-- What is in a folder lies below all places that the folder is not above. -/
theorem below_concat_iff {name : String} : Below top (place ++ [name]) ↔ top <+: place := by
  constructor
  · rintro ⟨hbegins, hne⟩
    exact (List.prefix_concat_iff.1 hbegins).resolve_left hne.symm
  · intro hbegins
    refine ⟨hbegins.trans (List.prefix_append _ _), ?_⟩
    rintro rfl
    have hlength := hbegins.length_le
    rw [List.length_append, List.length_singleton] at hlength
    omega

/-- A step from within a place leaves it, or leads to a place within it whose depth is taken into
account. -/
theorem follow_append_cases (top extra : List String) (piece : String) (way : List String) :
    (follow (top ++ extra) piece = top.dropLast ∧
        staysBelow extra.length (piece :: way) = false) ∨
      ∃ next, follow (top ++ extra) piece = top ++ next ∧
        staysBelow extra.length (piece :: way) = staysBelow next.length way := by
  unfold follow
  rw [staysBelow]
  by_cases hidle : piece = "" ∨ piece = "."
  · rw [if_pos hidle, if_pos hidle]
    exact .inr ⟨extra, rfl, rfl⟩
  rw [if_neg hidle, if_neg hidle]
  by_cases hback : piece = ".."
  · rw [if_pos hback, if_pos hback]
    cases extra with
    | nil =>
      rw [List.append_nil]
      exact .inl ⟨rfl, rfl⟩
    | cons name extra =>
      refine .inr ⟨(name :: extra).dropLast, ?_, ?_⟩
      · exact List.dropLast_append_of_ne_nil (List.cons_ne_nil _ _)
      · rw [List.length_dropLast]
        rfl
  · rw [if_neg hback, if_neg hback]
    refine .inr ⟨extra ++ [piece], List.append_assoc _ _ _, ?_⟩
    rw [List.length_append, List.length_singleton]

/-- A way that stays below a place passes places within it only. -/
theorem prefix_of_passes (extra : List String) (hstays : staysBelow extra.length way = true)
    (h : Passes (top ++ extra) way place) : top <+: place := by
  -- The depth is the number of names behind the place.
  induction way generalizing extra with
  | nil =>
    obtain ⟨before, hbefore, rfl⟩ := h
    rw [List.prefix_nil.1 hbefore]
    exact List.prefix_append _ _
  | cons piece way ih =>
    rcases passes_cons_iff.1 h with rfl | h
    · exact List.prefix_append _ _
    rcases follow_append_cases top extra piece way with ⟨-, hdepth⟩ | ⟨next, hnext, hdepth⟩
    · rw [hdepth] at hstays
      cases hstays
    · rw [hdepth] at hstays
      rw [hnext] at h
      exact ih next hstays h

/-- A way that does not name a folder does not lead into it from outside. -/
theorem not_prefix_foldl (hown : own ∉ way) (h : ¬ around ++ [own] <+: place) :
    ¬ around ++ [own] <+: way.foldl follow place := by
  induction way generalizing place with
  | nil => exact h
  | cons piece way ih =>
    refine ih (fun hmem => hown (List.mem_cons_of_mem _ hmem)) fun hbegins => h ?_
    unfold follow at hbegins
    split at hbegins
    · exact hbegins
    · split at hbegins
      · exact hbegins.trans (List.dropLast_prefix _)
      · -- The last name would be that of the folder.
        refine (List.prefix_concat_iff.1 hbegins).resolve_left fun heq => hown ?_
        obtain ⟨-, hlast⟩ := List.append_inj' heq rfl
        cases hlast
        exact List.mem_cons_self

/-- A way that leaves a folder and does not name it does not come back. -/
theorem not_prefix_of_leaving (extra : List String) (hown : own ∉ way)
    (hleaves : staysBelow extra.length way = false) :
    ¬ around ++ [own] <+: way.foldl follow (around ++ [own] ++ extra) := by
  induction way generalizing extra with
  | nil => cases hleaves
  | cons piece way ih =>
    have hrest : own ∉ way := fun hmem => hown (List.mem_cons_of_mem _ hmem)
    rw [List.foldl_cons]
    rcases follow_append_cases (around ++ [own]) extra piece way with
      ⟨hnext, -⟩ | ⟨next, hnext, hdepth⟩
    · -- The step leaves the folder, and what follows does not name it.
      rw [hnext, List.dropLast_concat]
      refine not_prefix_foldl hrest fun hbegins => ?_
      have hlength := hbegins.length_le
      rw [List.length_append, List.length_singleton] at hlength
      omega
    · rw [hdepth] at hleaves
      rw [hnext]
      exact ih next hrest hleaves

end Path

/-! ## Files of a module -/

variable {d : Disk} {folder : Path} {name extension : String}

/-- The path of a module's file passes what the folder and then the name pass, and it ends with a
name of its own. -/
theorem exists_target_moduleFile (d : Disk) (folder : Path) (name : String)
    (h : Path.IsExtension ("." ++ extension)) :
    ∃ last, d.target (moduleFile folder name extension) =
      (Path.pieces (moduleFile folder name extension)).dropLast.foldl Path.follow
        (d.start (Path.isAbsolute (moduleFile folder name extension))) ++ [last] := by
  obtain ⟨stem, hstem⟩ := exists_moduleFile_eq folder name
  obtain ⟨front, last, hpieces⟩ := Path.exists_pieces_append stem
  refine ⟨String.ofList (last ++ ("." ++ extension).toList), ?_⟩
  rw [hstem _ h, hpieces _ h, List.dropLast_concat, ← Path.follow_extension h]
  rw [Disk.target, hpieces _ h, List.foldl_append]
  rfl

/-- All files of a module are reached on the same way. -/
theorem way_indexFile_eq (folder : Path) (name : String) :
    Path.isAbsolute (moduleFile folder name indexExtension) =
        Path.isAbsolute (moduleFile folder name codeExtension) ∧
      (Path.pieces (moduleFile folder name indexExtension)).dropLast =
        (Path.pieces (moduleFile folder name codeExtension)).dropLast := by
  obtain ⟨stem, hstem⟩ := exists_moduleFile_eq folder name
  rw [hstem _ isExtension_index, hstem _ isExtension_code,
    Path.isAbsolute_append isExtension_index, Path.isAbsolute_append isExtension_code,
    Path.dropLast_pieces_append stem isExtension_index,
    Path.dropLast_pieces_append stem isExtension_code]
  exact ⟨rfl, rfl⟩

/-- The way to the file of a module with a relative name goes to the folder, and then along the
name. -/
theorem exists_way_moduleFile (d : Disk) (folder : Path) (hrelative : Path.isAbsolute name = false)
    (h : Path.IsExtension ("." ++ extension)) :
    ∃ around, around <+: Path.pieces folder ∧
      (Path.pieces (moduleFile folder name extension)).dropLast =
        around ++ (Path.pieces name).dropLast ∧
      Path.isAbsolute (moduleFile folder name extension) = Path.isAbsolute folder ∧
      around.foldl Path.follow (d.start (Path.isAbsolute folder)) = d.target folder := by
  have hname : Path.isAbsolute (name ++ ("." ++ extension)) = false := by
    rw [Path.isAbsolute_append h, hrelative]
  obtain ⟨habsolute, around, hpieces, hbegins, hleads⟩ :=
    Path.exists_base_of_join folder hname
  rw [moduleFile, String.append_assoc]
  refine ⟨around, hbegins, ?_, habsolute, hleads _⟩
  rw [hpieces, List.dropLast_append_of_ne_nil (Path.pieces_ne_nil _),
    Path.dropLast_pieces_append name h]

/-- The file of a module with a relative name is below the folder exactly if the folders that the
name names end there. -/
theorem below_moduleFile_iff (hrelative : Path.isAbsolute name = false)
    (h : Path.IsExtension ("." ++ extension)) :
    Path.Below (d.target folder) (d.target (moduleFile folder name extension)) ↔
      d.target folder <+: (Path.pieces name).dropLast.foldl Path.follow (d.target folder) := by
  obtain ⟨last, hlast⟩ := exists_target_moduleFile d folder name h
  obtain ⟨around, -, hway, habsolute, hleads⟩ := exists_way_moduleFile d folder hrelative h
  rw [hlast, Path.below_concat_iff, hway, habsolute, List.foldl_append, hleads]

namespace LoadedModule

variable {m : LoadedModule} {result : Option (List String)} {d' : Disk}

/-- The places of the files that are written for a module. -/
def inputPlaces (m : LoadedModule) (folder : Path) (d : Disk) : List (List String) :=
  d.target (moduleFile folder m.name codeExtension) ::
    if m.index.isSome then [d.target (moduleFile folder m.name indexExtension)] else []

/-- Writing the inputs changes what stands at their places, and makes folders on the way there. -/
theorem changesOnly_buildCommandLine (m : LoadedModule) (folder : Path) (d : Disk) :
    Disk.ChangesOnly (m.inputPlaces folder d)
      (Path.isAbsolute (moduleFile folder m.name codeExtension))
      (Path.pieces (moduleFile folder m.name codeExtension)).dropLast d
      (m.buildCommandLine folder d).2 := by
  have hcode := Disk.changesOnly_writeDeep d (moduleFile folder m.name codeExtension) m.ir
  rcases m.disk_buildCommandLine folder d with hdisk | ⟨index, hindex, hdisk⟩
  · rw [hdisk]
    exact hcode.mono (List.cons_subset_cons _ (List.nil_subset _)) fun _ => id
  · -- The index is reached on the same way as the code, so that both changes are of one kind.
    have hsecond := Disk.changesOnly_writeDeep
      (d.writeDeep (moduleFile folder m.name codeExtension) m.ir).2
      (moduleFile folder m.name indexExtension) index
    obtain ⟨habsolute, hway⟩ := way_indexFile_eq folder m.name
    rw [habsolute, hway, Disk.target, hcode.here, ← Disk.target] at hsecond
    have hplaces : m.inputPlaces folder d =
        [d.target (moduleFile folder m.name codeExtension)] ++
          [d.target (moduleFile folder m.name indexExtension)] := by
      rw [inputPlaces, hindex]
      rfl
    rw [hdisk, hplaces]
    exact hcode.trans hsecond

/-- The files of a module whose name leads inward are below the folder. -/
theorem below_of_mem_inputPlaces (hname : Path.isInward m.name = true) {place : List String}
    (hplace : place ∈ m.inputPlaces folder d) : Path.Below (d.target folder) place := by
  obtain ⟨hrelative, hstays⟩ := Bool.and_eq_true_iff.1 hname
  rw [Bool.not_eq_true'] at hrelative
  have hbelow {extension : String} (h : Path.IsExtension ("." ++ extension)) :
      Path.Below (d.target folder) (d.target (moduleFile folder m.name extension)) := by
    refine (below_moduleFile_iff hrelative h).2 (Path.prefix_of_passes [] hstays ?_)
    rw [List.append_nil]
    exact Path.passes_end _ _
  unfold inputPlaces at hplace
  rcases List.mem_cons.1 hplace with rfl | hplace
  · exact hbelow isExtension_code
  · split at hplace
    · rw [List.mem_singleton.1 hplace]
      exact hbelow isExtension_index
    · cases hplace

/-- What the way to the files of a module passes is below the folder, if the name leads inward, or
on the way to the folder. -/
theorem below_or_onTheWay (hname : Path.isInward m.name = true) {place : List String}
    (hpasses : Path.Passes (d.start (Path.isAbsolute (moduleFile folder m.name codeExtension)))
      (Path.pieces (moduleFile folder m.name codeExtension)).dropLast place) :
    Path.Below (d.target folder) place ∨ d.OnTheWay folder place := by
  obtain ⟨hrelative, hstays⟩ := Bool.and_eq_true_iff.1 hname
  rw [Bool.not_eq_true'] at hrelative
  obtain ⟨around, hbegins, hway, habsolute, hleads⟩ :=
    exists_way_moduleFile d folder hrelative isExtension_code
  rw [hway, habsolute, Path.passes_append_iff, hleads] at hpasses
  rcases hpasses with hbefore | hbehind
  · exact .inr (hbefore.mono hbegins)
  · by_cases hend : place = d.target folder
    · rw [hend]
      exact .inr (Path.passes_end _ _)
    · refine .inl ⟨Path.prefix_of_passes [] hstays ?_, hend⟩
      rwa [List.append_nil]

/-- The code of a module is below a folder that its name does not name exactly if the name leads
inward. -/
theorem below_codeFile_iff {around : List String} {own : String}
    (hfolder : d.target folder = around ++ [own]) (hown : own ∉ (Path.pieces name).dropLast) :
    Path.Below (d.target folder) (d.target (moduleFile folder name codeExtension)) ↔
      Path.isInward name = true := by
  rw [Path.isInward]
  cases hrelative : Path.isAbsolute name with
  | false =>
    rw [below_moduleFile_iff hrelative isExtension_code, Bool.not_false, Bool.true_and]
    constructor
    · intro hbelow
      cases hstays : Path.staysBelow 0 (Path.pieces name).dropLast with
      | true => rfl
      | false =>
        have hleaves : ¬ around ++ [own] <+:
            (Path.pieces name).dropLast.foldl Path.follow (around ++ [own] ++ []) :=
          Path.not_prefix_of_leaving [] hown hstays
        rw [List.append_nil, ← hfolder] at hleaves
        exact absurd hbelow hleaves
    · intro hstays
      refine Path.prefix_of_passes [] hstays ?_
      rw [List.append_nil]
      exact Path.passes_end _ _
  | true =>
    -- The way begins at the root and does not lead into the folder.
    obtain ⟨last, hlast⟩ := exists_target_moduleFile d folder name isExtension_code
    have habsolute : Path.isAbsolute (name ++ ("." ++ codeExtension)) = true := by
      rw [Path.isAbsolute_append isExtension_code, hrelative]
    have hfile : moduleFile folder name codeExtension = name ++ ("." ++ codeExtension) := by
      rw [moduleFile, String.append_assoc, Path.join, if_pos habsolute]
    rw [hlast, hfolder, Path.below_concat_iff, hfile, habsolute,
      Path.dropLast_pieces_append name isExtension_code, Disk.start, if_pos rfl]
    refine iff_of_false (Path.not_prefix_foldl hown fun hbegins => ?_) (by simp)
    exact List.append_ne_nil_of_right_ne_nil around (List.cons_ne_nil own [])
      (List.prefix_nil.1 hbegins)

/-- Writing the inputs of a module changes what stands at their places. Beyond that it makes folders
where nothing stood, on the way to the file of the code. If the name of the module leads inward,
the files are below the folder, and all that changes elsewhere is that folders on the way to the
folder are made, which happens only if it is not there. If the inputs can be written, the code is
then in its file; and this is below a folder that the name of the module does not name exactly if
the name leads inward. -/
theorem inputs_stay_below (h : m.buildCommandLine folder d = (result, d')) :
    (∀ place, d'.standing? place ≠ d.standing? place →
      place ∈ m.inputPlaces folder d ∨
        d.standing? place = none ∧ d'.standing? place = some none ∧
          d.OnTheWay (moduleFile folder m.name codeExtension) place) ∧
    (Path.isInward m.name = true →
      (∀ place ∈ m.inputPlaces folder d, Path.Below (d.target folder) place) ∧
      ∀ place, d'.standing? place ≠ d.standing? place →
        Path.Below (d.target folder) place ∨
          d.hasFolder folder = false ∧ d.standing? place = none ∧ d'.standing? place = some none ∧
            d.OnTheWay folder place) ∧
    (result.isSome →
      d'.standing? (d.target (moduleFile folder m.name codeExtension)) = some (some m.ir)) ∧
    (∀ around own, d.target folder = around ++ [own] → own ∉ (Path.pieces m.name).dropLast →
      (Path.Below (d.target folder) (d.target (moduleFile folder m.name codeExtension)) ↔
        Path.isInward m.name = true)) := by
  have hchanges := m.changesOnly_buildCommandLine folder d
  rw [h] at hchanges
  refine ⟨fun place hchanged => ?_, fun hname => ⟨fun place => below_of_mem_inputPlaces hname,
    fun place hchanged => ?_⟩, fun hresult => ?_, fun around own => below_codeFile_iff⟩
  · by_cases hplace : place ∈ m.inputPlaces folder d
    · exact .inl hplace
    · obtain ⟨hnone, hnew, hpasses⟩ := (hchanges.standing place hplace).resolve_left hchanged
      exact .inr ⟨hnone, hnew, hpasses.mono (List.dropLast_prefix _)⟩
  · by_cases hplace : place ∈ m.inputPlaces folder d
    · exact .inl (below_of_mem_inputPlaces hname hplace)
    · obtain ⟨hnone, hnew, hpasses⟩ := (hchanges.standing place hplace).resolve_left hchanged
      refine (below_or_onTheWay hname hpasses).imp_right fun hway => ⟨?_, hnone, hnew, hway⟩
      rw [Bool.eq_false_iff]
      exact fun hfolder => Disk.standing?_ne_none_of_onTheWay hfolder hway hnone
  · obtain ⟨options, rfl⟩ := Option.isSome_iff_exists.1 hresult
    obtain ⟨hcode, -, -⟩ := buildCommandLine_spec h
    have hstands := Disk.standing?_of_read? hcode
    rwa [Disk.target, hchanges.here] at hstands

namespace Sample

/-- A folder to work in, beside the folder of a corpus. -/
def workplace : Disk :=
  ⟨.folder [("w", .folder []), ("c", .folder [("a.bc", .file [9])])], []⟩

/-- A module with an index, whose name leads into a folder and back. -/
def returning : LoadedModule where
  name := "lib/../a"
  ir := [1, 2]
  index := some [3]
  options := []

/-- A module whose name leads into the folder of the corpus. -/
def neighbour : LoadedModule where
  name := "../c/a"
  ir := [1]
  index := none
  options := []

end Sample

/-- The files of a module whose name leads into a folder and back are below the folder, and nothing
changes elsewhere. -/
theorem inputs_stay_below_of_returning :
    ∃ d', Sample.returning.buildCommandLine "w" Sample.workplace = (some [], d') ∧
      d'.standing? ["w", "a.bc"] = some (some [1, 2]) ∧
      ∀ place, ¬ Path.Below ["w"] place →
        d'.standing? place = Sample.workplace.standing? place := by
  have hoptions : (Sample.returning.buildCommandLine "w" Sample.workplace).1 = some [] := by
    decide +kernel
  have hbuild : Sample.returning.buildCommandLine "w" Sample.workplace = (some [], _) :=
    Prod.ext hoptions rfl
  obtain ⟨-, hinward, hcode, -⟩ := inputs_stay_below hbuild
  obtain ⟨-, hchanges⟩ := hinward (by decide)
  refine ⟨_, hbuild, hcode rfl, fun place hplace => ?_⟩
  by_contra hchanged
  obtain ⟨hmissing, -⟩ := (hchanges place hchanged).resolve_left hplace
  exact absurd hmissing (by decide)

/-- A name that leads out of the folder has the corpus overwritten beside it. -/
theorem neighbour_overwritten :
    ∃ d', Sample.neighbour.buildCommandLine "w" Sample.workplace = (some [], d') ∧
      Sample.workplace.hasFolder "w" = true ∧
      ¬ Path.Below (Sample.workplace.target "w") (Sample.workplace.target "c/a.bc") ∧
      Sample.workplace.read? "c/a.bc" = some [9] ∧ d'.read? "c/a.bc" = some [1] := by
  have hoptions : (Sample.neighbour.buildCommandLine "w" Sample.workplace).1 = some [] := by
    decide +kernel
  have hread : (Sample.neighbour.buildCommandLine "w" Sample.workplace).2.read? "c/a.bc" =
      some [1] := by
    decide +kernel
  exact ⟨_, Prod.ext hoptions rfl, by decide, by decide, by decide, hread⟩

end LoadedModule

end TraceGen
