import TraceGen.Proofs.Corpus.Reading
import TraceGen.Proofs.Files.Writing
import TraceGen.Proofs.Text.Substitution

/-!
# The inputs of a compiler

`Corpus.inputs_referenced` follows a module from its corpus to the command line of a compiler. Its
options are those that the rules leave, with a placeholder for each input that none of them refers
to (`withPlaceholders_eq`). Building the command line writes the inputs, each with the bytes that
were loaded (`LoadedModule.buildCommandLine_spec`), and puts their paths for the placeholders.

The path of the code is put first and the path of the index after it. The second substitution
leaves the first path alone if it holds no brace, and the first one leaves the second placeholder
alone, as two placeholders never overlap.
-/

namespace TraceGen

/-! ## Placeholders -/

/-- The placeholder of the code stands between braces. -/
theorem toList_modulePlaceholder : modulePlaceholder.toList = Text.mark "module_path".toList := by
  decide

/-- The placeholder of the index stands between braces. -/
theorem toList_indexPlaceholder : indexPlaceholder.toList = Text.mark "thinlto_path".toList := by
  decide

/-- The placeholders never overlap. -/
theorem apart_placeholders : Text.Apart modulePlaceholder.toList indexPlaceholder.toList := by
  rw [toList_modulePlaceholder, toList_indexPlaceholder]
  exact Text.apart_of_marks ⟨by decide, by decide⟩ ⟨by decide, by decide⟩ (by decide)

/-- Some option holds a text. -/
def Mentions (options : List String) (text : String) : Prop :=
  ∃ option ∈ options, text.toList <:+: option.toList

/-- Whether some option holds a text is found by searching all of them. -/
theorem any_holds_iff {options : List String} {text : String} :
    options.any (Text.holds text) = true ↔ Mentions options text := by
  rw [List.any_eq_true]
  exact exists_congr fun option => and_congr_right fun _ => Text.holds_iff

/-- Searching decides whether some option holds a text. -/
instance (options : List String) (text : String) : Decidable (Mentions options text) :=
  decidable_of_iff _ any_holds_iff

/-- More options hold no less. -/
theorem Mentions.append {options : List String} {text : String} (h : Mentions options text)
    (more : List String) : Mentions (options ++ more) text := by
  obtain ⟨option, hoption, htext⟩ := h
  exact ⟨option, List.mem_append_left more hoption, htext⟩

/-- Placeholders are added for the inputs that no option refers to. -/
theorem withPlaceholders_eq (hasThinLto : Bool) (options : List String) :
    withPlaceholders hasThinLto options = options
      ++ (if Mentions options modulePlaceholder then [] else ["-x", "ir", modulePlaceholder])
      ++ (if hasThinLto = true ∧ ¬ Mentions options indexPlaceholder
        then ["-fthinlto-index=" ++ indexPlaceholder] else []) := by
  have hadds : (hasThinLto && !options.any (Text.holds indexPlaceholder)) = true ↔
      hasThinLto = true ∧ ¬ Mentions options indexPlaceholder := by
    rw [Bool.and_eq_true, Bool.not_eq_true', ← any_holds_iff, Bool.not_eq_true]
  unfold withPlaceholders
  simp only [hadds, any_holds_iff]

/-- Some option refers to the code. -/
theorem mentions_modulePlaceholder (hasThinLto : Bool) (options : List String) :
    Mentions (withPlaceholders hasThinLto options) modulePlaceholder := by
  rw [withPlaceholders_eq]
  refine Mentions.append ?_ _
  by_cases h : Mentions options modulePlaceholder
  · exact h.append _
  · rw [if_neg h]
    exact ⟨modulePlaceholder, by simp, List.infix_rfl⟩

/-- Some option of a module with an index refers to it. -/
theorem mentions_indexPlaceholder (options : List String) :
    Mentions (withPlaceholders true options) indexPlaceholder := by
  rw [withPlaceholders_eq]
  by_cases h : Mentions options indexPlaceholder
  · exact (h.append _).append _
  · have hadds : true = true ∧ ¬ Mentions options indexPlaceholder := ⟨rfl, h⟩
    rw [if_pos hadds]
    refine ⟨"-fthinlto-index=" ++ indexPlaceholder, by simp, ?_⟩
    rw [String.toList_append]
    exact (List.suffix_append ..).isInfix

/-! ## Paths of the inputs -/

/-- The path of a module's file ends with the extension. -/
theorem exists_moduleFile_eq (folder : Path) (name : String) :
    ∃ stem, ∀ extension, Path.IsExtension ("." ++ extension) →
      moduleFile folder name extension = stem ++ ("." ++ extension) := by
  obtain ⟨stem, hstem⟩ := Path.exists_join_append folder name
  refine ⟨stem, fun extension h => ?_⟩
  rw [moduleFile, String.append_assoc, hstem _ h]

/-- The end of a file with code counts as part of its name. -/
theorem isExtension_code : Path.IsExtension ("." ++ codeExtension) :=
  ⟨by decide, by decide⟩

/-- The end of a file with an index counts as part of its name. -/
theorem isExtension_index : Path.IsExtension ("." ++ indexExtension) :=
  ⟨by decide, by decide⟩

/-- A module's index is never at the place of its code. -/
theorem target_indexFile_ne (d : Disk) (folder : Path) (name : String) :
    d.target (moduleFile folder name indexExtension) ≠
      d.target (moduleFile folder name codeExtension) := by
  obtain ⟨stem, hstem⟩ := exists_moduleFile_eq folder name
  rw [hstem _ isExtension_code, hstem _ isExtension_index]
  exact d.target_ne_of_extension stem isExtension_index isExtension_code (by decide)

/-- The path of the code holds no brace if the folder and the name hold none. -/
theorem braceless_codeFile {folder : Path} {name : String} (hfolder : Text.Braceless folder.toList)
    (hname : Text.Braceless name.toList) :
    Text.Braceless (moduleFile folder name codeExtension).toList := by
  have hnone {c : Char} (hsep : c ≠ '/') (hend : c ∉ ("." ++ codeExtension).toList)
      (hfolder : c ∉ folder.toList) (hname : c ∉ name.toList) :
      c ∉ (moduleFile folder name codeExtension).toList := by
    intro hc
    rcases Path.mem_join hc with hc | rfl | hc
    · exact hfolder hc
    · exact hsep rfl
    · rw [String.append_assoc, String.toList_append, List.mem_append] at hc
      exact hc.elim hname hend
  exact ⟨hnone (by decide) (by decide) hfolder.1 hname.1,
    hnone (by decide) (by decide) hfolder.2 hname.2⟩

/-- The path of a module's file has a dot. -/
theorem dot_mem_moduleFile (folder : Path) (name : String) {extension : String}
    (h : Path.IsExtension ("." ++ extension)) :
    '.' ∈ (moduleFile folder name extension).toList := by
  obtain ⟨stem, hstem⟩ := exists_moduleFile_eq folder name
  rw [hstem _ h, String.toList_append, String.toList_append]
  exact List.mem_append_right _ (List.mem_append_left _ (by decide))

namespace LoadedModule

variable {m : LoadedModule} {folder : Path} {options : List String} {d d' : Disk}
  {codePath indexPath option : String}

/-! ## Substitution -/

/-- The path of the index is there if its placeholder was. -/
theorem isInfix_resolve_index (h : indexPlaceholder.toList <:+: option.toList) :
    indexPath.toList <:+: (resolve codePath indexPath option).toList := by
  unfold resolve Text.replaceAll
  rw [String.toList_ofList, String.toList_ofList]
  exact Text.isInfix_replaceFrom _ (by decide) (apart_placeholders.isInfix_replaceFrom _ h)

/-- The path of the code is there if its placeholder was, unless it has braces. -/
theorem isInfix_resolve_code (hbraces : Text.Braceless codePath.toList)
    (hdot : '.' ∈ codePath.toList) (h : modulePlaceholder.toList <:+: option.toList) :
    codePath.toList <:+: (resolve codePath indexPath option).toList := by
  -- The path has a dot and so does not lie between the braces of the other placeholder.
  have hapart : Text.Apart indexPlaceholder.toList codePath.toList := by
    rw [toList_indexPlaceholder]
    exact Text.apart_of_braceless hbraces fun hinside =>
      absurd (hinside.subset hdot) (by decide)
  unfold resolve Text.replaceAll
  rw [String.toList_ofList, String.toList_ofList]
  exact hapart.isInfix_replaceFrom _ (Text.isInfix_replaceFrom _ (by decide) h)

/-! ## Writing the inputs -/

/-- Building a command line writes the code and then perhaps the index. -/
theorem disk_buildCommandLine (m : LoadedModule) (folder : Path) (d : Disk) :
    (m.buildCommandLine folder d).2 =
        (d.writeDeep (moduleFile folder m.name codeExtension) m.ir).2 ∨
      ∃ index, m.index = some index ∧
        (m.buildCommandLine folder d).2 =
          ((d.writeDeep (moduleFile folder m.name codeExtension) m.ir).2.writeDeep
            (moduleFile folder m.name indexExtension) index).2 := by
  unfold buildCommandLine
  dsimp only
  rcases d.writeDeep (moduleFile folder m.name codeExtension) m.ir with ⟨written, d₁⟩
  cases written with
  | false => exact .inl rfl
  | true =>
    cases m.index with
    | none => exact .inl rfl
    | some index =>
      refine .inr ⟨index, rfl, ?_⟩
      dsimp only
      rcases d₁.writeDeep (moduleFile folder m.name indexExtension) index with ⟨written, d₂⟩
      cases written <;> rfl

/-- Building a command line writes the inputs and puts their paths into the options. -/
theorem buildCommandLine_spec (h : m.buildCommandLine folder d = (some options, d')) :
    d'.read? (moduleFile folder m.name codeExtension) = some m.ir ∧
    (∀ index, m.index = some index →
      d'.read? (moduleFile folder m.name indexExtension) = some index) ∧
    options = m.options.map (resolve (moduleFile folder m.name codeExtension)
      (if m.index.isSome then moduleFile folder m.name indexExtension else "")) := by
  unfold buildCommandLine at h
  cases hcode : d.writeDeep (moduleFile folder m.name codeExtension) m.ir with
  | mk written d₁ =>
    simp only [hcode] at h
    cases written with
    | false => cases h
    | true =>
      obtain ⟨hcode, -, -⟩ := Disk.writeDeep_spec hcode
      rw [Bool.not_true, if_neg Bool.false_ne_true] at h
      cases hindex : m.index with
      | none =>
        rw [hindex] at h
        cases h
        refine ⟨?_, nofun, rfl⟩
        rw [Disk.read?, hcode]
      | some index =>
        simp only [hindex] at h
        cases hwrite : d₁.writeDeep (moduleFile folder m.name indexExtension) index with
        | mk written d₂ =>
          simp only [hwrite] at h
          cases written with
          | false => cases h
          | true =>
            cases h
            obtain ⟨hwritten, -, hkeeps⟩ := Disk.writeDeep_spec hwrite
            -- The index is at another place than the code, which it therefore leaves alone.
            have hcode := (hkeeps _ (target_indexFile_ne d₁ folder m.name)).item? hcode
            refine ⟨by rw [Disk.read?, hcode], ?_, rfl⟩
            rintro _ ⟨⟩
            rw [Disk.read?, hwritten]

/-- The options of a module with the paths of its files below a folder. -/
def resolved (m : LoadedModule) (folder : Path) : List String :=
  m.options.map (resolve (moduleFile folder m.name codeExtension)
    (if m.index.isSome then moduleFile folder m.name indexExtension else ""))

/-- The files of a module can be written below a folder: that of the code, and after it that of the
index if the module has one. -/
def Fits (m : LoadedModule) (folder : Path) (d : Disk) : Prop :=
  ∃ d', d.writeDeep (moduleFile folder m.name codeExtension) m.ir = (true, d') ∧
    ∀ index, m.index = some index →
      (d'.writeDeep (moduleFile folder m.name indexExtension) index).1 = true

/-- A command line is built exactly if the files can be written. -/
theorem fits_iff :
    m.Fits folder d ↔ (m.buildCommandLine folder d).1 = some (m.resolved folder) := by
  unfold Fits buildCommandLine resolved
  cases hcode : d.writeDeep (moduleFile folder m.name codeExtension) m.ir with
  | mk written d₁ =>
    simp only [hcode, Prod.mk.injEq]
    cases written with
    | false => simp
    | true =>
      cases hindex : m.index with
      | none => simp
      | some index =>
        cases hwrite : d₁.writeDeep (moduleFile folder m.name indexExtension) index with
        | mk written d₂ => cases written <;> simp [hwrite]

/-- The options refer to the files that were written if their placeholders were there. -/
theorem mentions_inputs (h : m.buildCommandLine folder d = (some options, d')) :
    (Text.Braceless folder.toList → Text.Braceless m.name.toList →
      Mentions m.options modulePlaceholder →
      Mentions options (moduleFile folder m.name codeExtension)) ∧
    (m.index.isSome → Mentions m.options indexPlaceholder →
      Mentions options (moduleFile folder m.name indexExtension)) := by
  obtain ⟨-, -, rfl⟩ := buildCommandLine_spec h
  refine ⟨fun hfolder hname => ?_, fun hindex => ?_⟩
  · rintro ⟨option, hoption, hholds⟩
    exact ⟨_, List.mem_map_of_mem hoption, isInfix_resolve_code
      (braceless_codeFile hfolder hname) (dot_mem_moduleFile folder m.name isExtension_code) hholds⟩
  · rintro ⟨option, hoption, hholds⟩
    rw [if_pos hindex]
    exact ⟨_, List.mem_map_of_mem hoption, isInfix_resolve_index hholds⟩

end LoadedModule

/-! ## From the corpus to the compiler -/

namespace Corpus

variable {d d₁ : Disk} {root : Path} {filter : Option NameFilter} {rules : FlagRules}
  {corpus : Corpus} {spec : ModuleSpec} {loaded : LoadedModule}

/-- The options of a module of a corpus are what the rules make of those that it is given, with the
placeholders that are missing. -/
theorem exists_rewritten_of_read (h : read d root filter rules = .ok corpus)
    (hspec : spec ∈ corpus.modules) :
    ∃ description given rewritten, description? d root = some description ∧
      spec.hasThinLto = description.hasThinLto ∧
      givenOptions? d root description spec.name = some given ∧
      rules.apply given = .ok rewritten ∧
      spec.commandLine = withPlaceholders description.hasThinLto rewritten := by
  obtain ⟨-, description, hdescription, hmodules⟩ := read_eq_ok_iff.1 h
  obtain ⟨i, hi, rfl⟩ := List.getElem_of_mem hspec
  have hmade := hmodules.get (hmodules.length_eq.symm ▸ hi) hi
  obtain ⟨size, given, rewritten, -, hgiven, hrewritten, hmade⟩ := readModule_eq_ok_iff.1 hmade
  rw [List.get_eq_getElem] at hmade
  rw [hmade]
  exact ⟨description, given, rewritten, hdescription, rfl, hgiven, hrewritten, rfl⟩

/-- The inputs of a module are referenced and intact on the way to a compiler. Its options are those
that the rules leave of the given ones. They are followed by a reference to the code exactly if they
hold none, and then, in a corpus with indices, by one to the index exactly if they hold none.
Building the command line below any folder writes the code, and the index if there is one, with
the bytes of the corpus. Some option then holds the path of the index, and, unless the folder or
the name has braces, some option holds the path of the code. -/
theorem inputs_referenced (hread : read d root filter rules = .ok corpus)
    (hspec : spec ∈ corpus.modules) (hload : corpus.loadModule d₁ spec = .ok loaded) :
    ∃ description given rewritten, description? d root = some description ∧
      givenOptions? d root description spec.name = some given ∧
      rules.apply given = .ok rewritten ∧
      loaded.options = rewritten
        ++ (if Mentions rewritten modulePlaceholder then [] else ["-x", "ir", modulePlaceholder])
        ++ (if description.hasThinLto = true ∧ ¬ Mentions rewritten indexPlaceholder
          then ["-fthinlto-index=" ++ indexPlaceholder] else []) ∧
      ∀ folder d₂ options d', loaded.buildCommandLine folder d₂ = (some options, d') →
        (∃ code, d₁.read? (moduleFile root spec.name codeExtension) = some code ∧
          d'.read? (moduleFile folder spec.name codeExtension) = some code ∧
          (Text.Braceless folder.toList → Text.Braceless spec.name.toList →
            Mentions options (moduleFile folder spec.name codeExtension))) ∧
        (description.hasThinLto = true →
          ∃ index, d₁.read? (moduleFile root spec.name indexExtension) = some index ∧
            d'.read? (moduleFile folder spec.name indexExtension) = some index ∧
            Mentions options (moduleFile folder spec.name indexExtension)) := by
  obtain ⟨description, given, rewritten, hdescription, hthin, hgiven, hrewritten, hoptions⟩ :=
    exists_rewritten_of_read hread hspec
  obtain ⟨rfl, -⟩ := read_eq_ok_iff.1 hread
  obtain ⟨code, index, hcode, hindex, rfl⟩ := loadModule_eq_ok_iff.1 hload
  refine ⟨description, given, rewritten, hdescription, hgiven, hrewritten, ?_, ?_⟩
  · rw [hoptions, withPlaceholders_eq]
  · intro folder d₂ options d' hbuild
    obtain ⟨hcode', hindex', -⟩ := LoadedModule.buildCommandLine_spec hbuild
    obtain ⟨hmentions, hmentions'⟩ := LoadedModule.mentions_inputs hbuild
    refine ⟨⟨code, hcode, hcode', fun hfolder hname => hmentions hfolder hname ?_⟩, ?_⟩
    · show Mentions spec.commandLine modulePlaceholder
      rw [hoptions]
      exact mentions_modulePlaceholder _ rewritten
    · intro hhas
      rcases hindex with ⟨hnot, -⟩ | ⟨-, content, hcontent, rfl⟩
      · rw [hthin, hhas] at hnot
        cases hnot
      · refine ⟨content, hcontent, hindex' content rfl, hmentions' rfl ?_⟩
        show Mentions spec.commandLine indexPlaceholder
        rw [hoptions, hhas]
        exact mentions_indexPlaceholder rewritten

namespace Sample

/-- A corpus of one module with an index, whose options hold none of the placeholders. -/
def indexed : Disk where
  root := .folder
    [("c", .folder
      [(descriptionFile,
        .file (Text.encode "\x7b\"modules\": [\"a\"], \"has_thinlto\": true\x7d")),
      ("a.bc", .file [1, 2]), ("a.thinlto.bc", .file [3]),
      ("a.cmd", .file (Text.encode "-mllvm\x00-inline\x00-c"))])]
  here := []

/-- Rules that drop an option with its value. -/
def shortening : FlagRules :=
  ⟨[], ["-mllvm"], .empty⟩

/-- The module of the corpus. -/
def shortened : ModuleSpec :=
  ⟨"a", 2, withPlaceholders true ["-c"], true⟩

end Sample

/-- The code and the index of a module are referenced and intact below a folder that is made for
them. -/
theorem inputs_referenced_of_indexed :
    ∃ corpus spec loaded options d',
      read Sample.indexed "c" none Sample.shortening = .ok corpus ∧ spec ∈ corpus.modules ∧
      corpus.loadModule Sample.indexed spec = .ok loaded ∧
      loaded.buildCommandLine "s/t" Sample.indexed = (some options, d') ∧
      Mentions options "s/t/a.bc" ∧ d'.read? "s/t/a.bc" = some [1, 2] ∧
      Mentions options "s/t/a.thinlto.bc" ∧ d'.read? "s/t/a.thinlto.bc" = some [3] := by
  have hread : read Sample.indexed "c" none Sample.shortening = .ok ⟨"c", [Sample.shortened]⟩ := by
    decide +kernel
  have hload : (Corpus.mk "c" [Sample.shortened]).loadModule Sample.indexed Sample.shortened =
      .ok ⟨"a", [1, 2], some [3], Sample.shortened.commandLine⟩ := by
    decide +kernel
  obtain ⟨options, hoptions⟩ : ∃ options, (LoadedModule.buildCommandLine
      ⟨"a", [1, 2], some [3], Sample.shortened.commandLine⟩ "s/t"
      Sample.indexed).1 = some options := by
    refine Option.isSome_iff_exists.1 ?_
    decide +kernel
  have hbuild : LoadedModule.buildCommandLine _ "s/t" Sample.indexed = (some options, _) :=
    Prod.ext hoptions rfl
  obtain ⟨description, given, rewritten, hdescription, -, -, -, hinputs⟩ :=
    inputs_referenced hread List.mem_cons_self hload
  obtain ⟨⟨code, hcode, hcode', hmentions⟩, hindexed⟩ := hinputs _ _ _ _ hbuild
  have hthin : description.hasThinLto = true := by
    have hsample : description? Sample.indexed "c" = some ⟨["a"], true, none⟩ := by decide +kernel
    cases hsample.symm.trans hdescription
    rfl
  obtain ⟨index, hindex, hindex', hmentions'⟩ := hindexed hthin
  have hcode₂ : Sample.indexed.read? "c/a.bc" = some [1, 2] := by decide +kernel
  have hindex₂ : Sample.indexed.read? "c/a.thinlto.bc" = some [3] := by decide +kernel
  cases hcode₂.symm.trans hcode
  cases hindex₂.symm.trans hindex
  exact ⟨_, _, _, options, _, hread, List.mem_cons_self, hload, hbuild,
    hmentions (by decide) (by decide), hcode', hmentions', hindex'⟩

end Corpus

end TraceGen
