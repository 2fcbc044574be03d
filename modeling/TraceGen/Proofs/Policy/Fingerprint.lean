import Mathlib.Algebra.BigOperators.Group.List.Basic
import Mathlib.Algebra.Ring.Nat
import Mathlib.Data.Set.Defs
import TraceGen.Policy
import TraceGen.Proofs.Text.ByteOrder

/-!
# What the digest of a folder tells

For a policy in a folder the relative paths and the contents of its files are digested, one after
the other and with nothing between them. So the digested bytes do not say where a path ends and a
content begins: a byte can move from the one to the other, and `Policy.moved_byte_collides` shows
two different policies with the same digest.

`Policy.digest_identifies` says when the bytes tell the folder. One way is that the sizes of the
paths and the contents are known, but for one of them (`eq_of_flatten_eq`): then there is one way
only to cut the bytes. The other is that the first files in which two folders differ disagree
already where both have bytes (`folderMessage_ne_of_parting`).
-/

namespace TraceGen.Policy

/-- The path of a file from the folder on. -/
def relativePath (names : List String) : Path :=
  String.intercalate "/" names

/-- The files below the entries of a folder as a set: relative paths with contents. -/
def fileSet (entries : List (String × Item)) : Set (Path × Bytes) :=
  {file | ∃ names, (names, file.2) ∈ filesOfEntries [] entries ∧ relativePath names = file.1}

/-- What is digested for files, piece by piece: each relative path and each content. -/
def pieces (files : List (List String × Bytes)) : List Bytes :=
  files.flatMap fun file => [Text.encode (relativePath file.1), file.2]

/-- The pieces are digested one after the other. -/
theorem folderMessage_eq_flatten (files : List (List String × Bytes)) :
    folderMessage files = (pieces files).flatten := by
  induction files with
  | nil => rfl
  | cons file files ih =>
    calc folderMessage (file :: files)
        = fileMessage file ++ folderMessage files := rfl
      _ = Text.encode (relativePath file.1) ++ (file.2 ++ (pieces files).flatten) := by
          rw [ih, fileMessage, List.append_assoc]
          rfl
      _ = (pieces (file :: files)).flatten := rfl

/-- The pieces tell the paths and the contents. -/
theorem map_eq_of_pieces_eq {files files' : List (List String × Bytes)}
    (h : pieces files = pieces files') :
    (files.map fun file => (relativePath file.1, file.2)) =
      files'.map fun file => (relativePath file.1, file.2) := by
  induction files generalizing files' with
  | nil =>
    cases files' with
    | nil => rfl
    | cons file files' => cases h
  | cons file files ih =>
    cases files' with
    | nil => cases h
    | cons file' files' =>
      simp only [pieces, List.flatMap_cons, List.cons_append, List.nil_append,
        List.cons.injEq] at h
      obtain ⟨hpath, hcontent, hrest⟩ := h
      rw [List.map_cons, List.map_cons, Text.encode_injective hpath, hcontent, ih hrest]

/-- The files of a folder in order make up its set of files. -/
theorem mem_fileSet_iff {entries : List (String × Item)} {file : Path × Bytes} :
    file ∈ fileSet entries ↔
      file ∈ (sortedFiles entries).map fun file => (relativePath file.1, file.2) := by
  rw [List.mem_map]
  constructor
  · rintro ⟨names, hmem, hpath⟩
    exact ⟨(names, file.2), List.mem_mergeSort.2 hmem, Prod.ext hpath rfl⟩
  · rintro ⟨⟨names, content⟩, hmem, rfl⟩
    exact ⟨names, List.mem_mergeSort.1 hmem, rfl⟩

/-- Folders with the same pieces have the same files. -/
theorem fileSet_eq_of_pieces_eq {entries entries' : List (String × Item)}
    (h : pieces (sortedFiles entries) = pieces (sortedFiles entries')) :
    fileSet entries = fileSet entries' := by
  ext file
  rw [mem_fileSet_iff, mem_fileSet_iff, map_eq_of_pieces_eq h]

/-! ## Cutting the bytes by sizes -/

/-- A change of one number that leaves the sum alone changes nothing. -/
theorem set_eq_self_of_sum {sizes : List Nat} {i n : Nat} (h : (sizes.set i n).sum = sizes.sum) :
    sizes.set i n = sizes := by
  by_cases hi : i < sizes.length
  · have hsplit : sizes.sum = (sizes.take i).sum + sizes[i] + (sizes.drop (i + 1)).sum := by
      conv_lhs => rw [← List.set_getElem_self hi, List.sum_set, if_pos hi]
    rw [List.sum_set, if_pos hi] at h
    have hn : n = sizes[i] := by omega
    rw [hn, List.set_getElem_self]
  · exact List.set_eq_of_length_le (Nat.le_of_not_lt hi)

/-- Pieces that make up the same bytes are the same if their sizes are, one of these apart. -/
theorem eq_of_flatten_eq {xs ys : List Bytes} {i n : Nat} (h : xs.flatten = ys.flatten)
    (hsizes : ys.map List.length = (xs.map List.length).set i n) : xs = ys := by
  -- The number of all bytes tells the size that is apart.
  have hsum : ((xs.map List.length).set i n).sum = (xs.map List.length).sum := by
    rw [← hsizes, ← List.length_flatten, ← List.length_flatten, h]
  rw [List.eq_iff_flatten_eq]
  exact ⟨h, (hsizes.trans (set_eq_self_of_sum hsum)).symm⟩

/-- The paths and the contents of two lists of files have the same sizes one by one, with one
exception at most. -/
def SameSizes (files files' : List (List String × Bytes)) : Prop :=
  ∃ i n, (pieces files').map List.length = ((pieces files).map List.length).set i n

/-! ## Files that part -/

/-- After files that are the same in two lists come two files of which neither is digested as a
beginning of the other. -/
def Parting (files files' : List (List String × Bytes)) : Prop :=
  ∃ common file file' rest rest', files = common ++ file :: rest ∧
    files' = common ++ file' :: rest' ∧ ¬ fileMessage file <+: fileMessage file' ∧
    ¬ fileMessage file' <+: fileMessage file

/-- Lists of files that part are digested differently. -/
theorem folderMessage_ne_of_parting {files files' : List (List String × Bytes)}
    (h : Parting files files') : folderMessage files ≠ folderMessage files' := by
  obtain ⟨common, file, file', rest, rest', rfl, rfl, hleft, hright⟩ := h
  intro heq
  have happend (f : List String × Bytes) (fs : List (List String × Bytes)) :
      folderMessage (common ++ f :: fs) =
        folderMessage common ++ (fileMessage f ++ folderMessage fs) := by
    rw [folderMessage, List.flatMap_append]
    rfl
  rw [happend, happend, List.append_cancel_left_eq] at heq
  -- Both messages begin the bytes behind the common files, so one of them begins the other.
  have hfirst : fileMessage file <+: fileMessage file' ++ folderMessage rest' :=
    heq ▸ List.prefix_append _ _
  rcases List.prefix_or_prefix_of_prefix hfirst (List.prefix_append _ _) with h | h
  · exact hleft h
  · exact hright h

/-! ## Digests -/

/-- The policy of a folder that holds a file. -/
theorem load_folder {d : Disk} {path : Path} {entries : List (String × Item)}
    (h : d.item? path = some (.folder entries)) (hfile : (fileSet entries).Nonempty) :
    load d path =
      .ok ⟨path, Text.hexText (Sha256.digest (folderMessage (sortedFiles entries)))⟩ := by
  unfold load
  simp only [h]
  obtain ⟨file, hmem⟩ := hfile
  rw [mem_fileSet_iff] at hmem
  cases hfiles : sortedFiles entries with
  | nil =>
    rw [hfiles] at hmem
    cases hmem
  | cons first files => rfl

/-- Two folders with different files whose sizes agree, one of them apart, or whose files part, are
digested as different bytes. So their digests differ, unless these bytes are a collision of the
hash. -/
theorem digest_identifies {d d' : Disk} {path path' : Path}
    {entries entries' : List (String × Item)}
    (hitem : d.item? path = some (.folder entries))
    (hitem' : d'.item? path' = some (.folder entries')) (hne : fileSet entries ≠ fileSet entries')
    (htold : SameSizes (sortedFiles entries) (sortedFiles entries') ∨
      Parting (sortedFiles entries) (sortedFiles entries')) :
    folderMessage (sortedFiles entries) ≠ folderMessage (sortedFiles entries') ∧
      ((fileSet entries).Nonempty → (fileSet entries').Nonempty →
        ∃ p p', load d path = .ok p ∧ load d' path' = .ok p' ∧
          ((Sha256.digest (folderMessage (sortedFiles entries)) =
              Sha256.digest (folderMessage (sortedFiles entries')) →
            folderMessage (sortedFiles entries) = folderMessage (sortedFiles entries')) →
          p.digest ≠ p'.digest)) := by
  have hbytes : folderMessage (sortedFiles entries) ≠ folderMessage (sortedFiles entries') := by
    rcases htold with ⟨i, n, hsizes⟩ | hparting
    · intro heq
      rw [folderMessage_eq_flatten, folderMessage_eq_flatten] at heq
      exact hne (fileSet_eq_of_pieces_eq (eq_of_flatten_eq heq hsizes))
    · exact folderMessage_ne_of_parting hparting
  refine ⟨hbytes, fun hfile hfile' =>
    ⟨_, _, load_folder hitem hfile, load_folder hitem' hfile', ?_⟩⟩
  intro hcollision hdigest
  exact hbytes (hcollision (Text.hexText_injective hdigest))

namespace Sample

/-- A disk with a folder `p`. -/
def disk (entries : List (String × Item)) : Disk :=
  ⟨.folder [("p", .folder entries)], []⟩

/-- A model with a file of weights. -/
def model (weights : Bytes) : List (String × Item) :=
  [("graph", .file [1, 2]), ("variables", .folder [("data", .file weights)])]

/-- The folder of a disk is found. -/
theorem item?_disk (entries : List (String × Item)) :
    (disk entries).item? "p" = some (.folder entries) := rfl

/-- The files of a model in order. -/
theorem sortedFiles_model (weights : Bytes) :
    sortedFiles (model weights) = [(["graph"], [1, 2]), (["variables", "data"], weights)] := by
  have hbefore : comesFirst ["graph"] ["variables", "data"] = true := by decide +kernel
  refine List.mergeSort_of_pairwise ?_
  simpa [model, filesOfEntries, filesBelow] using hbefore

/-- The weights are among the files of a model. -/
theorem mem_fileSet_model (weights : Bytes) :
    (relativePath ["variables", "data"], weights) ∈ fileSet (model weights) := by
  rw [mem_fileSet_iff, sortedFiles_model]
  exact List.mem_cons_of_mem _ List.mem_cons_self

end Sample

/-- Two models of which one has more weights than the other have different digests. -/
theorem digest_identifies_of_more_weights :
    ∃ p p', load (Sample.disk (Sample.model [3])) "p" = .ok p ∧
      load (Sample.disk (Sample.model [3, 4])) "p" = .ok p' ∧ p.digest ≠ p'.digest := by
  have hne : fileSet (Sample.model [3]) ≠ fileSet (Sample.model [3, 4]) := by
    intro heq
    have hmem := Sample.mem_fileSet_model [3]
    rw [heq, mem_fileSet_iff, Sample.sortedFiles_model] at hmem
    revert hmem
    decide +kernel
  have hsizes : SameSizes (sortedFiles (Sample.model [3])) (sortedFiles (Sample.model [3, 4])) := by
    rw [Sample.sortedFiles_model, Sample.sortedFiles_model]
    exact ⟨3, 2, by decide +kernel⟩
  obtain ⟨-, hdigests⟩ :=
    digest_identifies (Sample.item?_disk _) (Sample.item?_disk _) hne (.inl hsizes)
  obtain ⟨p, p', hp, hp', hdiffer⟩ :=
    hdigests ⟨_, Sample.mem_fileSet_model _⟩ ⟨_, Sample.mem_fileSet_model _⟩
  refine ⟨p, p', hp, hp', hdiffer fun hcollision => ?_⟩
  rw [Sample.sortedFiles_model, Sample.sortedFiles_model] at hcollision
  revert hcollision
  decide +kernel

/-- A folder with a file `a` of the bytes `bc` and one with a file `ab` of the byte `c` have
different files and the same digest. -/
theorem moved_byte_collides :
    fileSet [("a", .file (Text.encode "bc"))] ≠ fileSet [("ab", .file (Text.encode "c"))] ∧
      folderMessage (sortedFiles [("a", .file (Text.encode "bc"))]) =
        folderMessage (sortedFiles [("ab", .file (Text.encode "c"))]) ∧
      ∃ p p', load (Sample.disk [("a", .file (Text.encode "bc"))]) "p" = .ok p ∧
        load (Sample.disk [("ab", .file (Text.encode "c"))]) "p" = .ok p' ∧
        p.digest = p'.digest := by
  have hsorted (name : String) (content : Bytes) :
      sortedFiles [(name, .file content)] = [([name], content)] := List.mergeSort_singleton _
  have hmem (name : String) (content : Bytes) :
      (relativePath [name], content) ∈ fileSet [(name, .file content)] := by
    rw [mem_fileSet_iff, hsorted]
    exact List.mem_singleton.2 rfl
  have hbytes : folderMessage (sortedFiles [("a", .file (Text.encode "bc"))]) =
      folderMessage (sortedFiles [("ab", .file (Text.encode "c"))]) := by
    rw [hsorted, hsorted]
    decide +kernel
  refine ⟨fun heq => ?_, hbytes, _, _, load_folder (Sample.item?_disk _) ⟨_, hmem _ _⟩,
    load_folder (Sample.item?_disk _) ⟨_, hmem _ _⟩, ?_⟩
  · have ha := hmem "a" (Text.encode "bc")
    rw [heq, mem_fileSet_iff, hsorted] at ha
    revert ha
    decide +kernel
  · rw [hbytes]

end TraceGen.Policy
