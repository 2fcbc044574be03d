import TraceGen.Proofs.Corpus.Inputs
import TraceGen.Proofs.Text.AtOnce

/-!
# Placeholders name the inputs

An option names the files of a module by placeholders. `PlaceholdersReplaced` says that the paths
stand in the place of both placeholders at once. The paths are put in one after the other, so that
the second substitution also reads what the first one wrote:
`LoadedModule.placeholders_name_inputs` says that an option names the files that were written
unless the path of the code makes a placeholder of the index there. It cannot if it holds no brace.
-/

namespace TraceGen

/-- The placeholders are different texts between braces. -/
theorem marks_placeholders : Text.Marks "module_path".toList "thinlto_path".toList :=
  ⟨⟨by decide, by decide⟩, ⟨by decide, by decide⟩, by decide⟩

/-- The option `out` is `option` with the paths in the place of all placeholders; a path that was
put in is not looked at. -/
def PlaceholdersReplaced (codePath indexPath : Path) (option out : String) : Prop :=
  Text.ReplacedAtOnce modulePlaceholder.toList codePath.toList
    indexPlaceholder.toList indexPath.toList option.toList out.toList

/-- The path of the code makes a placeholder of the index in an option. -/
def MakesPlaceholder (codePath : Path) (option : String) : Prop :=
  Text.Makes "module_path".toList codePath.toList "thinlto_path".toList option.toList

/-- The path of the code does not end like a part of the placeholder of the index. -/
theorem endsOff_codeFile (folder : Path) (name : String) :
    Text.EndsOff indexPlaceholder.toList (moduleFile folder name codeExtension).toList := by
  obtain ⟨stem, hstem⟩ := exists_moduleFile_eq folder name
  refine ⟨stem.toList ++ ['.', 'b'], 'c', ?_, by decide⟩
  have hend : ("." ++ codeExtension).toList = ['.', 'b'] ++ ['c'] := by decide
  rw [hstem _ isExtension_code, String.toList_append, hend, List.append_assoc]

namespace LoadedModule

variable {m : LoadedModule} {folder : Path} {options : List String} {d d' : Disk}

/-- The path that stands for the index: that of its file if there is one. -/
def indexPath (m : LoadedModule) (folder : Path) : Path :=
  if m.index.isSome then moduleFile folder m.name indexExtension else ""

/-- What stands for the index is not made of the same characters as its placeholder: it is empty or
has a dot. -/
theorem exists_count_ne (m : LoadedModule) (folder : Path) :
    ∃ c, indexPlaceholder.toList.count c ≠ (m.indexPath folder).toList.count c := by
  unfold indexPath
  by_cases hindex : m.index.isSome
  · rw [if_pos hindex]
    refine ⟨'.', ?_⟩
    have hnone : indexPlaceholder.toList.count '.' = 0 := by decide
    rw [hnone]
    exact (List.count_pos_iff.2 (dot_mem_moduleFile folder m.name isExtension_index)).ne
  · rw [if_neg hindex]
    exact ⟨'\x7b', by decide⟩

/-- Putting the paths in one after the other replaces both placeholders at once exactly if the path
of the code makes none. -/
theorem replaced_resolve_iff (m : LoadedModule) (folder : Path) (option : String) :
    PlaceholdersReplaced (moduleFile folder m.name codeExtension) (m.indexPath folder) option
        (resolve (moduleFile folder m.name codeExtension) (m.indexPath folder) option) ↔
      ¬ MakesPlaceholder (moduleFile folder m.name codeExtension) option := by
  have hends := endsOff_codeFile folder m.name
  obtain ⟨c, hc⟩ := m.exists_count_ne folder
  rw [toList_indexPlaceholder] at hends hc
  have hiff := Text.replacedAtOnce_iff marks_placeholders hends hc option.toList
  rw [← toList_modulePlaceholder, ← toList_indexPlaceholder] at hiff
  unfold PlaceholdersReplaced resolve Text.replaceAll
  rw [String.toList_ofList, String.toList_ofList]
  exact hiff

/-- The options of a command line name the files that were written. The code is in its file, and
the index is in its file if there is one. Every option that is returned is the one of the module
with the paths of these files in the place of all placeholders, and nothing in the place of those of
an index that is not there, exactly if the path of the code makes no placeholder in it. -/
theorem placeholders_name_inputs (h : m.buildCommandLine folder d = (some options, d')) :
    d'.read? (moduleFile folder m.name codeExtension) = some m.ir ∧
    (∀ index, m.index = some index →
      d'.read? (moduleFile folder m.name indexExtension) = some index) ∧
    List.Forall₂ (fun option out =>
        PlaceholdersReplaced (moduleFile folder m.name codeExtension) (m.indexPath folder)
            option out ↔
          ¬ MakesPlaceholder (moduleFile folder m.name codeExtension) option)
      m.options options := by
  obtain ⟨hcode, hindex, rfl⟩ := buildCommandLine_spec h
  refine ⟨hcode, hindex, ?_⟩
  rw [List.forall₂_map_right_iff, List.forall₂_same]
  exact fun option _ => m.replaced_resolve_iff folder option

namespace Sample

/-- A module with an index, whose options hold both placeholders, one of them twice. -/
def indexed : LoadedModule where
  name := "a"
  ir := [1, 2]
  index := some [3]
  options := ["-x=\x7bmodule_path\x7d,\x7bmodule_path\x7d", "-i=\x7bthinlto_path\x7d"]

/-- A module without an index, whose name is the placeholder of one. -/
def braced : LoadedModule where
  name := "\x7bthinlto_path\x7d"
  ir := [1]
  index := none
  options := ["\x7bmodule_path\x7d"]

end Sample

/-- The options of a module whose name holds no brace name its files. -/
theorem placeholders_name_inputs_of_index :
    ∃ options d', Sample.indexed.buildCommandLine "w" .empty = (some options, d') ∧
      d'.read? "w/a.bc" = some [1, 2] ∧ d'.read? "w/a.thinlto.bc" = some [3] ∧
      List.Forall₂ (PlaceholdersReplaced "w/a.bc" "w/a.thinlto.bc") Sample.indexed.options
        options := by
  obtain ⟨options, hoptions⟩ :
      ∃ options, (Sample.indexed.buildCommandLine "w" .empty).1 = some options := by
    refine Option.isSome_iff_exists.1 ?_
    decide +kernel
  have hbuild : Sample.indexed.buildCommandLine "w" .empty = (some options, _) :=
    Prod.ext hoptions rfl
  obtain ⟨hcode, hindex, hreplaced⟩ := placeholders_name_inputs hbuild
  have hcodePath : moduleFile "w" Sample.indexed.name codeExtension = "w/a.bc" := by decide
  have hindexPath : Sample.indexed.indexPath "w" = "w/a.thinlto.bc" := by decide
  rw [hcodePath, hindexPath] at hreplaced
  refine ⟨options, _, hbuild, hcode, hindex _ rfl, hreplaced.imp fun option out hout => ?_⟩
  exact hout.2 (Text.not_makes_of_braceless (by decide))

/-- The option that names the code of a module names another file instead, as the name of the module
holds the placeholder of the index: this is substituted too. -/
theorem placeholder_in_name :
    ∃ d', Sample.braced.buildCommandLine "w" .empty = (some ["w/.bc"], d') ∧
      d'.read? "w/\x7bthinlto_path\x7d.bc" = some [1] ∧
      PlaceholdersReplaced "w/\x7bthinlto_path\x7d.bc" "" "\x7bmodule_path\x7d"
        "w/\x7bthinlto_path\x7d.bc" ∧
      ¬ PlaceholdersReplaced "w/\x7bthinlto_path\x7d.bc" "" "\x7bmodule_path\x7d" "w/.bc" := by
  have hoptions : (Sample.braced.buildCommandLine "w" .empty).1 = some ["w/.bc"] := by
    decide +kernel
  have hread : (Sample.braced.buildCommandLine "w" .empty).2.read?
      "w/\x7bthinlto_path\x7d.bc" = some [1] := by
    decide +kernel
  have hwanted : PlaceholdersReplaced "w/\x7bthinlto_path\x7d.bc" "" "\x7bmodule_path\x7d"
      "w/\x7bthinlto_path\x7d.bc" := by
    have hfirst := Text.ReplacedAtOnce.first (p := modulePlaceholder.toList)
      (x := "w/\x7bthinlto_path\x7d.bc".toList) (q := indexPlaceholder.toList) (y := []) .done
    rw [List.append_nil, List.append_nil] at hfirst
    exact hfirst
  refine ⟨_, Prod.ext hoptions rfl, hread, hwanted, fun hgot => ?_⟩
  unfold PlaceholdersReplaced at hwanted hgot
  rw [toList_modulePlaceholder, toList_indexPlaceholder] at hwanted hgot
  exact absurd (marks_placeholders.replacedAtOnce_unique hwanted hgot) (by decide)

end LoadedModule

end TraceGen
