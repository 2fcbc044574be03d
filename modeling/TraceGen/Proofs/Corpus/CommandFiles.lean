import TraceGen.Proofs.Corpus.Reading
import TraceGen.Proofs.Text.Decoding
import TraceGen.Proofs.Text.Splitting

/-!
# Files with the options of a module

A file lists options with NULs between them, more of which may stand anywhere around the options
(`CommandFile.Joins`), and newlines after all of it. `Corpus.command_file_read_back` says that the
module gets the options of its file back, whatever its other NULs and newlines, and that what it
gets from any file that can be read are options.

Reading cuts off the newlines, splits at the NULs and drops empty pieces (`CommandFile.separated`).
`CommandFile.optionsOfText_eq_iff` says that a text is read as some options exactly if it lists
them, so that each text lists one sequence of options only.
`CommandFile.optionsOfText_intercalate_iff` tells which options can be written with one NUL between
each two: if the last one ended in a newline, this would be lost.
-/

namespace TraceGen

namespace CommandFile

variable {options : List String} {text : List Char} {option : String}

/-! ## Texts that list options -/

/-- An option is a text that is not empty and holds no NUL. -/
def IsOption (option : String) : Prop :=
  option ≠ "" ∧ '\x00' ∉ option.toList

/-- Looking at its characters decides whether a text is an option. -/
instance (option : String) : Decidable (IsOption option) :=
  inferInstanceAs (Decidable (_ ∧ _))

/-- The text joins the options: a NUL stands between each two of them, and any number of NULs may
stand besides between them and at both ends. -/
inductive Joins : List String → List Char → Prop
  /-- No text joins no options. -/
  | nothing : Joins [] []
  /-- An option may be the end of the text. -/
  | last (option : String) : Joins [option] option.toList
  /-- Otherwise a NUL follows it. -/
  | next {options : List String} {text : List Char} (option : String) :
      Joins options text → Joins (option :: options) (option.toList ++ '\x00' :: text)
  /-- A NUL more may stand in front. -/
  | more {options : List String} {text : List Char} :
      Joins options text → Joins options ('\x00' :: text)

/-- The last option does not end in a newline. -/
def EndsPlain (options : List String) : Prop :=
  ∀ option ∈ options.getLast?, option.toList.getLast? ≠ some '\n'

/-- The text lists the options: it joins them and then has any number of newlines. -/
structure Lists (options : List String) (text : List Char) : Prop where
  /-- Each of them is an option. -/
  isOption : ∀ option ∈ options, IsOption option
  /-- They are joined before the newlines. -/
  joins : ∃ body newlines, Joins options body ∧ body.getLast? ≠ some '\n' ∧
    text = body ++ List.replicate newlines '\n'

/-- A NUL is written between an option and the next one. -/
theorem toList_intercalate_cons (option option' : String) (options : List String) :
    ("\x00".intercalate (option :: option' :: options)).toList =
      option.toList ++ '\x00' :: ("\x00".intercalate (option' :: options)).toList := by
  rw [String.intercalate_cons_cons, String.toList_append, String.toList_append, List.append_assoc]
  rfl

/-- Options with one NUL between each two are joined. -/
theorem joins_intercalate (options : List String) :
    Joins options ("\x00".intercalate options).toList := by
  induction options with
  | nil => exact .nothing
  | cons option options ih =>
    cases options with
    | nil =>
      rw [String.intercalate_singleton]
      exact .last option
    | cons option' options =>
      rw [toList_intercalate_cons]
      exact .next option ih

/-- A text that joins options ends as the last one of them or in a NUL. -/
theorem Joins.getLast?_ne (h : Joins options text) (hends : EndsPlain options) :
    text.getLast? ≠ some '\n' := by
  -- A NUL comes last only if nothing follows it.
  have hbehind {text : List Char} (htext : text.getLast? ≠ some '\n') :
      ('\x00' :: text).getLast? ≠ some '\n' := by
    cases text with
    | nil => decide
    | cons c text => rwa [List.getLast?_cons_cons]
  induction h with
  | nothing => exact nofun
  | last option => exact hends option rfl
  | @next options text option _ ih =>
    rw [List.getLast?_append_cons]
    refine hbehind (ih fun option' hlast => hends option' ?_)
    rw [List.getLast?_cons, Option.mem_def.1 hlast]
    rfl
  | more _ ih => exact hbehind (ih hends)

/-! ## Separating -/

/-- The pieces of a text between NULs that are not empty. -/
def separated (text : List Char) : List String :=
  ((text.splitOn '\x00').map String.ofList).filter (· ≠ "")

/-- Reading separates what stands before the newlines at the end. -/
theorem optionsOfText_eq (text : String) :
    optionsOfText text = separated (Text.dropBack (· = '\n') text.toList) :=
  rfl

/-- What is separated are options. -/
theorem isOption_of_mem_separated (h : option ∈ separated text) : IsOption option := by
  obtain ⟨hpiece, hnonempty⟩ := List.mem_filter.1 h
  obtain ⟨piece, hsplit, rfl⟩ := List.mem_map.1 hpiece
  refine ⟨of_decide_eq_true hnonempty, fun hnul => ?_⟩
  rw [String.toList_ofList] at hnul
  exact (Text.of_mem_splitOn hsplit hnul).2 rfl

/-- A NUL in front separates nothing. -/
theorem separated_nul (text : List Char) : separated ('\x00' :: text) = separated text :=
  rfl

/-- The option in front of a NUL comes before those behind it. -/
theorem separated_next (h : IsOption option) (text : List Char) :
    separated (option.toList ++ '\x00' :: text) = option :: separated text := by
  unfold separated
  rw [List.splitOn_append_cons_self_of_not_mem h.2, List.map_cons, String.ofList_toList,
    List.filter_cons, if_pos (decide_eq_true h.1)]

/-- An option is separated as it is. -/
theorem separated_last (h : IsOption option) : separated option.toList = [option] := by
  unfold separated
  rw [List.splitOn_eq_singleton h.2, List.map_singleton, String.ofList_toList,
    List.filter_cons, if_pos (decide_eq_true h.1), List.filter_nil]

/-- Options that were joined are separated. -/
theorem Joins.separated_eq (h : Joins options text)
    (hoptions : ∀ option ∈ options, IsOption option) : separated text = options := by
  induction h with
  | nothing => rfl
  | last option => exact separated_last (hoptions option (List.mem_singleton_self option))
  | next option _ ih =>
    obtain ⟨hoption, hrest⟩ := List.forall_mem_cons.1 hoptions
    rw [separated_next hoption, ih hrest]
  | more _ ih => rw [separated_nul, ih hoptions]

/-- Pieces with NULs between them join those that are not empty: an empty piece is one NUL more. -/
theorem joins_pieces (pieces : List (List Char)) :
    Joins ((pieces.map String.ofList).filter (· ≠ "")) (['\x00'].intercalate pieces) := by
  induction pieces with
  | nil => exact .nothing
  | cons piece pieces ih =>
    rw [List.map_cons, List.filter_cons]
    by_cases hempty : piece = []
    · rw [hempty, if_neg (by decide)]
      cases pieces with
      | nil => exact .nothing
      | cons piece' pieces => exact .more ih
    · have hoption : String.ofList piece ≠ "" := fun h => hempty (String.ofList_injective h)
      have hpiece : piece = (String.ofList piece).toList := String.toList_ofList.symm
      rw [if_pos (decide_eq_true hoption)]
      cases pieces with
      | nil =>
        rw [List.intercalate_singleton, hpiece, String.ofList_toList]
        exact .last _
      | cons piece' pieces =>
        rw [List.intercalate_cons_cons, List.append_assoc, hpiece, String.ofList_toList]
        exact .next _ ih

/-- A text joins what is separated. -/
theorem joins_separated (text : List Char) : Joins (separated text) text := by
  have hjoins := joins_pieces (text.splitOn '\x00')
  rwa [List.intercalate_splitOn] at hjoins

/-- A text is read as some options exactly if it lists them. -/
theorem optionsOfText_eq_iff {text : String} :
    optionsOfText text = options ↔ Lists options text.toList := by
  rw [optionsOfText_eq]
  constructor
  · -- What is left without the newlines at the end joins whatever is separated in it.
    rintro rfl
    obtain ⟨⟨newlines, htext, hnewlines⟩, hlast⟩ :=
      Text.exists_dropBack (· = '\n') text.toList
    refine ⟨fun option => isOption_of_mem_separated, _, newlines.length, joins_separated _, ?_, ?_⟩
    · intro hnewline
      exact of_decide_eq_false (hlast '\n' hnewline) rfl
    · rw [← List.eq_replicate_of_mem fun c hc => of_decide_eq_true (hnewlines c hc)]
      exact htext
  · rintro ⟨hoptions, body, newlines, hjoins, hlast, htext⟩
    have hbody : Text.dropBack (· = '\n') text.toList = body := by
      rw [htext]
      refine Text.dropBack_append (fun c hc => decide_eq_true (List.eq_of_mem_replicate hc))
        fun c hc => decide_eq_false ?_
      rintro rfl
      exact hlast hc
    rw [hbody, hjoins.separated_eq hoptions]

/-- A text that joins options is not shorter than with one NUL between each two. -/
theorem Joins.length_le (h : Joins options text) :
    ("\x00".intercalate options).toList.length ≤ text.length := by
  induction h with
  | nothing => exact Nat.le_refl _
  | last option => rw [String.intercalate_singleton]
  | @next options text option _ ih =>
    rw [List.length_append, List.length_cons]
    cases options with
    | nil =>
      rw [String.intercalate_singleton]
      omega
    | cons option' options =>
      rw [toList_intercalate_cons, List.length_append, List.length_cons]
      omega
  | more _ ih => exact Nat.le_succ_of_le ih

/-- Options with one NUL between each two end as the last one of them. -/
theorem getLast?_intercalate {c : Char} (hoption : option ∈ options.getLast?)
    (hc : option.toList.getLast? = some c) :
    ("\x00".intercalate options).toList.getLast? = some c := by
  induction options with
  | nil => cases hoption
  | cons first options ih =>
    cases options with
    | nil =>
      obtain rfl : first = option := Option.some.inj hoption
      rw [String.intercalate_singleton, hc]
    | cons second options =>
      rw [List.getLast?_cons_cons] at hoption
      rw [toList_intercalate_cons, List.getLast?_append, List.getLast?_cons, ih hoption]
      rfl

/-- Texts with one NUL between each two are read back exactly if they are options and the last one
does not end in a newline. -/
theorem optionsOfText_intercalate_iff :
    optionsOfText ("\x00".intercalate options) = options ↔
      (∀ option ∈ options, IsOption option) ∧ EndsPlain options := by
  rw [optionsOfText_eq_iff]
  constructor
  · rintro ⟨hoptions, body, newlines, hjoins, hlast, htext⟩
    have hlength := congrArg List.length htext
    rw [List.length_append, List.length_replicate] at hlength
    -- The text is as short as can be, so that no newline was cut off.
    have hshort := hjoins.length_le
    obtain rfl : newlines = 0 := by omega
    rw [List.replicate_zero, List.append_nil] at htext
    refine ⟨hoptions, fun option hoption hnewline => hlast ?_⟩
    rw [← htext, getLast?_intercalate hoption hnewline]
  · rintro ⟨hoptions, hends⟩
    exact ⟨hoptions, _, 0, joins_intercalate options, (joins_intercalate options).getLast?_ne hends,
      (List.append_nil _).symm⟩

end CommandFile

namespace Corpus

open CommandFile

/-- A module whose description leaves the options to its file gets options from every file that can
be read. If options, the last of which does not end in a newline, are joined by one NUL between each
two, it gets just these. It gets the same if more NULs stand between them and at both ends and
newlines behind all of it, and it is read as if the description named these options. -/
theorem command_file_read_back {d : Disk} {root : Path} {description : CorpusDescription}
    {name : String} (hfile : description.commandOverride = none) :
    (∀ text, d.readText? (moduleFile root name optionsExtension) = some text →
      ∃ options, givenOptions? d root description name = some options ∧
        ∀ option ∈ options, IsOption option) ∧
    ∀ options text, (∀ option ∈ options, IsOption option) → EndsPlain options →
      (text = "\x00".intercalate options ∨ ∃ body newlines, Joins options body ∧
        text.toList = body ++ List.replicate newlines '\n') →
      d.read? (moduleFile root name optionsExtension) = some (Text.encode text) →
      givenOptions? d root description name = some options ∧
        ∀ rules, readModule d root rules description name =
          readModule d root rules { description with commandOverride := some options } name := by
  have hgiven {text : String}
      (htext : d.readText? (moduleFile root name optionsExtension) = some text) :
      givenOptions? d root description name = some (optionsOfText text) := by
    rw [givenOptions?, hfile, htext]
    rfl
  constructor
  · intro text htext
    exact ⟨_, hgiven htext, fun option hoption => isOption_of_mem_separated hoption⟩
  · intro options text hoptions hends hwritten hcontent
    obtain ⟨body, newlines, hjoins, htext⟩ : ∃ body newlines, Joins options body ∧
        text.toList = body ++ List.replicate newlines '\n' := by
      rcases hwritten with rfl | hpadded
      · exact ⟨_, 0, joins_intercalate options, (List.append_nil _).symm⟩
      · exact hpadded
    have hlists : Lists options text.toList :=
      ⟨hoptions, body, newlines, hjoins, hjoins.getLast?_ne hends, htext⟩
    have hreadable : d.readText? (moduleFile root name optionsExtension) = some text := by
      rw [Disk.readText?, hcontent, Option.bind_some, Text.decode?_encode]
    have hread : givenOptions? d root description name = some options := by
      rw [hgiven hreadable, optionsOfText_eq_iff.2 hlists]
    refine ⟨hread, fun rules => ?_⟩
    rw [readModule_eq, readModule_eq, hread]
    rfl

namespace Sample

/-- A disk with the options of a module, around which there are NULs and newlines. -/
def padded : Disk :=
  ⟨.folder [("a.cmd", .file (Text.encode "\x00-mllvm\x00\x00-D=x\ny\x00\n\n"))], []⟩

end Sample

/-- A newline within an option stays, and the NULs and newlines around the options go. -/
theorem command_file_read_back_of_padded :
    givenOptions? Sample.padded "" ⟨["a"], false, none⟩ "a" = some ["-mllvm", "-D=x\ny"] := by
  have hcontent : Sample.padded.read? (moduleFile "" "a" optionsExtension) =
      some (Text.encode "\x00-mllvm\x00\x00-D=x\ny\x00\n\n") := by
    decide +kernel
  have hjoins : Joins ["-mllvm", "-D=x\ny"] "\x00-mllvm\x00\x00-D=x\ny\x00".toList :=
    .more (.next "-mllvm" (.more (.next "-D=x\ny" .nothing)))
  have hends : EndsPlain ["-mllvm", "-D=x\ny"] := by
    unfold EndsPlain
    decide
  exact ((command_file_read_back rfl).2 _ _ (by decide) hends (.inr ⟨_, 2, hjoins, rfl⟩) hcontent).1

end Corpus

end TraceGen
