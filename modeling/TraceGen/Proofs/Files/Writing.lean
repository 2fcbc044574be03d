import TraceGen.Proofs.Files.Frame

/-!
# Writing files with the folders above them

A file that was written with the folders above it (`Disk.writeDeep_spec`) is there, folders stay
folders, and the files at other places are kept. Whether two paths lead to different places can be
told from their ends: the files of one name with different extensions are
apart (`Disk.target_ne_of_extension`).
-/

namespace TraceGen

/-! ## Extensions -/

/-- An end of a path that counts as part of its last name. -/
structure Path.IsExtension (extension : String) : Prop where
  /-- It begins no new name. -/
  slashless : '/' ∉ extension.toList
  /-- A name that ends so is not one of those that lead back or nowhere. -/
  long : 2 < extension.toList.length

namespace Path

/-- Splitting a text that goes on without separators lengthens the last part. -/
theorem exists_splitOn_append (c : Char) (cs : List Char) :
    ∃ front last, ∀ more : List Char, c ∉ more →
      (cs ++ more).splitOn c = front ++ [last ++ more] := by
  simp only [List.splitOn_eq_splitOnP]
  induction cs with
  | nil =>
    refine ⟨[], [], fun more hmore => ?_⟩
    refine List.splitOnP_eq_singleton fun x hx => beq_eq_false_iff_ne.2 ?_
    rintro rfl
    exact hmore hx
  | cons x cs ih =>
    obtain ⟨front, last, ih⟩ := ih
    by_cases hx : (x == c) = true
    · refine ⟨[] :: front, last, fun more hmore => ?_⟩
      rw [List.cons_append, List.splitOnP_cons_eq_if_modifyHead, if_pos hx, ih more hmore,
        List.cons_append]
    · -- The character goes to the first part, which may also be the last.
      cases front with
      | nil =>
        refine ⟨[], x :: last, fun more hmore => ?_⟩
        rw [List.cons_append, List.splitOnP_cons_eq_if_modifyHead, if_neg hx, ih more hmore]
        rfl
      | cons first front =>
        refine ⟨(x :: first) :: front, last, fun more hmore => ?_⟩
        rw [List.cons_append, List.splitOnP_cons_eq_if_modifyHead, if_neg hx, ih more hmore]
        rfl

/-- A path has the same pieces with every extension, but for the end of the last one. -/
theorem exists_pieces_append (stem : String) :
    ∃ front last, ∀ extension, IsExtension extension →
      pieces (stem ++ extension) = front ++ [String.ofList (last ++ extension.toList)] := by
  obtain ⟨front, last, hsplit⟩ := exists_splitOn_append '/' stem.toList
  refine ⟨front.map String.ofList, last, fun extension hextension => ?_⟩
  rw [pieces, String.toList_append, hsplit _ hextension.slashless, List.map_append,
    List.map_singleton]

/-- An extension makes no path begin at the root. -/
theorem isAbsolute_append {extension : String} (h : IsExtension extension) (stem : String) :
    isAbsolute (stem ++ extension) = isAbsolute stem := by
  unfold isAbsolute
  rw [String.toList_append]
  cases stem.toList with
  | cons c cs => rfl
  | nil =>
    rw [List.nil_append]
    cases hchars : extension.toList with
    | nil => rfl
    | cons c cs =>
      have hc : c ≠ '/' := by
        rintro rfl
        exact h.slashless (hchars ▸ List.mem_cons_self)
      simpa using hc

/-- An extension stays at the end when a path continues another one. -/
theorem exists_join_append (base stem : Path) :
    ∃ front, ∀ extension, IsExtension extension →
      join base (stem ++ extension) = front ++ extension := by
  by_cases habsolute : isAbsolute stem
  · refine ⟨stem, fun extension h => ?_⟩
    rw [join, isAbsolute_append h, if_pos habsolute]
  · by_cases hslash : base.isEmpty || base.toList.getLast? == some '/'
    · refine ⟨base ++ stem, fun extension h => ?_⟩
      rw [join, isAbsolute_append h, if_neg habsolute, if_pos hslash, String.append_assoc]
    · refine ⟨base ++ "/" ++ stem, fun extension h => ?_⟩
      rw [join, isAbsolute_append h, if_neg habsolute, if_neg hslash]
      exact String.append_assoc.symm

/-- Joining two paths brings in no character but a slash. -/
theorem mem_join {base p : Path} {c : Char} (h : c ∈ (join base p).toList) :
    c ∈ base.toList ∨ c = '/' ∨ c ∈ p.toList := by
  unfold join at h
  split at h
  · exact .inr (.inr h)
  · split at h <;> simp only [String.toList_append, List.mem_append] at h
    · exact h.imp_right .inr
    · rcases h with (h | h) | h
      · exact .inl h
      · exact .inr (.inl (List.mem_singleton.1 h))
      · exact .inr (.inr h)

/-- A name with an extension leads on to the entry with this name. -/
theorem follow_extension {extension : String} (h : IsExtension extension) (place : List String)
    (last : List Char) :
    follow place (String.ofList (last ++ extension.toList)) =
      place ++ [String.ofList (last ++ extension.toList)] := by
  have hne {name : String} (hname : name.toList.length ≤ 2) :
      String.ofList (last ++ extension.toList) ≠ name := by
    rintro rfl
    rw [String.toList_ofList, List.length_append] at hname
    have := h.long
    omega
  unfold follow
  rw [if_neg (not_or.2 ⟨hne (by decide), hne (by decide)⟩), if_neg (hne (by decide))]

end Path

namespace Disk

/-- The files of one name with different extensions are at different places. -/
theorem target_ne_of_extension (d : Disk) (stem : String) {extension extension' : String}
    (h : Path.IsExtension extension) (h' : Path.IsExtension extension')
    (hne : extension ≠ extension') :
    d.target (stem ++ extension) ≠ d.target (stem ++ extension') := by
  obtain ⟨front, last, hpieces⟩ := Path.exists_pieces_append stem
  unfold target
  rw [hpieces _ h, hpieces _ h', Path.isAbsolute_append h, Path.isAbsolute_append h',
    List.foldl_append, List.foldl_append, List.foldl_cons, List.foldl_cons, List.foldl_nil,
    List.foldl_nil, Path.follow_extension h, Path.follow_extension h']
  intro heq
  obtain ⟨-, hlast⟩ := List.append_inj' heq rfl
  have hnames := String.ofList_injective (List.cons_eq_cons.1 hlast).1
  exact hne (String.toList_injective (List.append_cancel_left hnames))

end Disk

/-! ## Writing -/

namespace Disk

variable {d d' : Disk} {p : Path} {content : Bytes}

/-- The folders above a file keep every file. -/
theorem keeps_of_foldersAbove {made : Bool} (kept : List String)
    (h : (match Path.parent? p with
      | none => (true, d)
      | some parent => d.makeFolders parent) = (made, d')) : Keeps kept d d' := by
  split at h
  · cases h
    exact .refl kept d
  · rename_i parent _
    have hmade := keeps_makeFolders kept d parent
    rwa [h] at hmade

/-- A file is written after the folders above it, which leaves all other files alone. -/
theorem write?_of_writeDeep (h : d.writeDeep p content = (true, d')) :
    ∃ d₁, (∀ kept, Keeps kept d d₁) ∧ d₁.write? p content = some d' := by
  unfold writeDeep at h
  split at h
  rename_i made d₁ hfolders
  split at h
  · cases h
  · split at h
    · rename_i hwrite
      cases h
      exact ⟨d₁, fun kept => keeps_of_foldersAbove kept hfolders, hwrite⟩
    · cases h

/-- A file that was written with the folders above it is there, and the files at other places are
kept. -/
theorem writeDeep_spec (h : d.writeDeep p content = (true, d')) :
    d'.item? p = some (.file content) ∧ d.Extends d' ∧
      ∀ kept, d.target p ≠ kept → Keeps kept d d' := by
  obtain ⟨d₁, hfolders, hwrite⟩ := write?_of_writeDeep h
  have hextends : d.Extends d₁ := (hfolders []).toExtends
  refine ⟨item?_of_write? hwrite, hextends.trans (extends_of_write? hwrite), fun kept hne => ?_⟩
  rw [← hextends.target] at hne
  exact (hfolders kept).trans (keeps_of_write? hwrite hne)

end Disk

end TraceGen
