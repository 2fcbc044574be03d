import TraceGen.Corpus.FlagRules
import TraceGen.Proofs.Text.ByteOrder
import TraceGen.Proofs.Training.Lookup

/-!
# What rules mean for a command line

The rules see a command line as segments: an option that is deleted or replaced, with the value that
goes along with it, or an option that is kept. `FlagRules.Segmented` says which segments these are.
There is one way to read a command line so (`FlagRules.exists_segmented`,
`FlagRules.Segmented.unique`), and no option is lost on the way.

`FlagRules.apply_by_segments` gives the result of applying the rules in terms of the segments. Each
segment that is replaced chooses a flag. The rules apply if each of their flags is chosen once, and
then each segment is written for itself. The loop over the options is brought into this form by
`FlagRules.edit_eq`: looking for a flag that is chosen a second time, and writing the segments, are
two things that do not depend on each other.
-/

namespace TraceGen

/-- A part of a command line that rules treat as a whole. -/
inductive Segment where
  /-- An option that is dropped, with its value. -/
  | deleted (option : String) (value : Option String)
  /-- An option that a replace flag fits, with its value, the flag and what the flag is set to. -/
  | replaced (option : String) (value : Option String) (flag target : String)
  /-- An option that stays. -/
  | kept (option : String)
deriving DecidableEq

namespace Segment

/-- The options that make a segment. -/
def options : Segment → List String
  | deleted option value => option :: value.toList
  | replaced option value _ _ => option :: value.toList
  | kept option => [option]

/-- The replace flag that a segment chooses. -/
def flag? : Segment → Option String
  | deleted _ _ => none
  | replaced _ _ flag _ => some flag
  | kept _ => none

/-- What is written for a segment. -/
def written : Segment → List String
  | deleted _ _ => []
  | replaced option _ flag target =>
    if '=' ∈ option.toList then [flag ++ "=" ++ target] else [flag, target]
  | kept option => [option]

/-- The replace flags that segments choose, in order. -/
def chosen (segments : List Segment) : List String :=
  segments.filterMap flag?

/-- The first segment that chooses a flag for the second time chooses this one. -/
def RepeatsFirst (segments : List Segment) (flag : String) : Prop :=
  ∃ before segment after, segments = before ++ segment :: after ∧ segment.flag? = some flag ∧
    (chosen before).Nodup ∧ flag ∈ chosen before

/-- A segment that is deleted chooses nothing. -/
@[simp] theorem chosen_deleted (option : String) (value : Option String)
    (segments : List Segment) : chosen (deleted option value :: segments) = chosen segments := rfl

/-- A segment that is replaced chooses its flag. -/
@[simp] theorem chosen_replaced (option : String) (value : Option String) (flag target : String)
    (segments : List Segment) :
    chosen (replaced option value flag target :: segments) = flag :: chosen segments := rfl

/-- A segment that is kept chooses nothing. -/
@[simp] theorem chosen_kept (option : String) (segments : List Segment) :
    chosen (kept option :: segments) = chosen segments := rfl

end Segment

namespace FlagRules

open Segment (chosen RepeatsFirst)

variable {rules : FlagRules} {option flag target : String} {options rest : List String}
  {segments others : List Segment}

/-! ## Segments -/

/-- The value that goes along with an option: the next one, unless the option has an equals sign. -/
def valueOf? (option : String) (rest : List String) : Option String :=
  if '=' ∈ option.toList then none else rest.head?

/-- What comes after an option and the value that goes along with it. -/
def behind (option : String) (rest : List String) : List String :=
  if '=' ∈ option.toList then rest else rest.tail

/-- Some delete flag is a beginning of the option. -/
def Deletes (rules : FlagRules) (option : String) : Prop :=
  ∃ flag ∈ rules.delete, flag.toList <+: option.toList

/-- The flag is the least in byte order among the replace flags that are beginnings of the option,
and it is to be set to `target`. -/
structure Chooses (rules : FlagRules) (option flag target : String) : Prop where
  /-- The flag is one of the replace flags. -/
  listed : rules.replace.get? flag = some target
  /-- The option begins with it. -/
  begins : flag.toList <+: option.toList
  /-- Every other one with which the option begins is greater. -/
  least : ∀ other ∈ rules.replace.keys, other.toList <+: option.toList → other ≠ flag →
    Text.encode flag < Text.encode other

/-- The segments of a command line, from the left. -/
inductive Segmented (rules : FlagRules) : List String → List Segment → Prop where
  /-- All options have been read. -/
  | done : Segmented rules [] []
  /-- An option that a delete flag fits is dropped. -/
  | deleted {option : String} {rest : List String} {segments : List Segment}
    (hdeletes : rules.Deletes option) (hrest : Segmented rules (behind option rest) segments) :
    Segmented rules (option :: rest) (.deleted option (valueOf? option rest) :: segments)
  /-- Another option that a replace flag fits is replaced. -/
  | replaced {option flag target : String} {rest : List String} {segments : List Segment}
    (hkeeps : ¬ rules.Deletes option) (hchooses : rules.Chooses option flag target)
    (hrest : Segmented rules (behind option rest) segments) :
    Segmented rules (option :: rest)
      (.replaced option (valueOf? option rest) flag target :: segments)
  /-- An option that no flag fits stays. -/
  | kept {option : String} {rest : List String} {segments : List Segment}
    (hkeeps : ¬ rules.Deletes option)
    (hnone : ∀ flag ∈ rules.replace.keys, ¬ flag.toList <+: option.toList)
    (hrest : Segmented rules rest segments) :
    Segmented rules (option :: rest) (.kept option :: segments)

/-- An option and the value that goes along with it are put back before what follows them. -/
theorem value_append_behind (option : String) (rest : List String) :
    (valueOf? option rest).toList ++ behind option rest = rest := by
  unfold valueOf? behind
  by_cases hequals : '=' ∈ option.toList
  · rw [if_pos hequals, if_pos hequals]
    rfl
  · rw [if_neg hequals, if_neg hequals]
    cases rest <;> rfl

/-- The segments of a command line are made of its options. -/
theorem Segmented.flatMap_options (h : rules.Segmented options segments) :
    segments.flatMap Segment.options = options := by
  induction h with
  | done => rfl
  | @deleted option rest segments hdeletes hrest ih =>
    rw [List.flatMap_cons, ih, Segment.options, List.cons_append, value_append_behind]
  | @replaced option flag target rest segments hkeeps hchooses hrest ih =>
    rw [List.flatMap_cons, ih, Segment.options, List.cons_append, value_append_behind]
  | kept hkeeps hnone hrest ih =>
    rw [List.flatMap_cons, ih]
    rfl

/-- A flag that segments choose is one of the replace flags. -/
theorem Segmented.mem_keys_of_chosen (h : rules.Segmented options segments)
    (hflag : flag ∈ chosen segments) : flag ∈ rules.replace.keys := by
  induction h with
  | done => cases hflag
  | deleted hdeletes hrest ih => exact ih hflag
  | replaced hkeeps hchooses hrest ih =>
    rcases List.mem_cons.1 hflag with rfl | hflag
    · exact KeyMap.mem_keys_of_get? hchooses.listed
    · exact ih hflag
  | kept hkeeps hnone hrest ih => exact ih hflag

/-- One flag at most is the least. -/
theorem Chooses.unique {flag' target' : String} (h : rules.Chooses option flag target)
    (h' : rules.Chooses option flag' target') : flag = flag' ∧ target = target' := by
  -- Of two different flags each would be less than the other.
  have hflag : flag = flag' := by
    by_contra hne
    have hless := h.least flag' (KeyMap.mem_keys_of_get? h'.listed) h'.begins (Ne.symm hne)
    have hmore := h'.least flag (KeyMap.mem_keys_of_get? h.listed) h.begins hne
    exact List.lt_irrefl _ (List.lt_trans hless hmore)
  subst hflag
  exact ⟨rfl, Option.some.inj (h.listed.symm.trans h'.listed)⟩

/-- A command line has its segments in one way only. -/
theorem Segmented.unique (h : rules.Segmented options segments)
    (h' : rules.Segmented options others) : others = segments := by
  -- The first option decides of which kind the first segment is, and how far it goes.
  induction h generalizing others with
  | done =>
    cases h'
    rfl
  | deleted hdeletes hrest ih =>
    cases h' with
    | deleted hdeletes' hrest' => rw [ih hrest']
    | replaced hkeeps' hchooses' hrest' => exact absurd hdeletes hkeeps'
    | kept hkeeps' hnone' hrest' => exact absurd hdeletes hkeeps'
  | replaced hkeeps hchooses hrest ih =>
    cases h' with
    | deleted hdeletes' hrest' => exact absurd hdeletes' hkeeps
    | replaced hkeeps' hchooses' hrest' =>
      obtain ⟨rfl, rfl⟩ := hchooses.unique hchooses'
      rw [ih hrest']
    | kept hkeeps' hnone' hrest' =>
      exact absurd hchooses.begins (hnone' _ (KeyMap.mem_keys_of_get? hchooses.listed))
  | kept hkeeps hnone hrest ih =>
    cases h' with
    | deleted hdeletes' hrest' => exact absurd hdeletes' hkeeps
    | replaced hkeeps' hchooses' hrest' =>
      exact absurd hchooses'.begins (hnone _ (KeyMap.mem_keys_of_get? hchooses'.listed))
    | kept hkeeps' hnone' hrest' => rw [ih hrest']

/-! ## The tests of an option -/

/-- Looking for an equals sign. -/
theorem carriesValue_iff : carriesValue option = true ↔ '=' ∈ option.toList :=
  List.contains_iff_mem

/-- Looking through the delete flags. -/
theorem deletes_iff : rules.deletes option = true ↔ rules.Deletes option := by
  unfold deletes Deletes Text.startsWith
  simp only [List.any_eq_true, List.isPrefixOf_iff_prefix]

/-- No replace flag is found if none fits. -/
theorem replacement?_eq_none_iff : rules.replacement? option = none ↔
    ∀ flag ∈ rules.replace.keys, ¬ flag.toList <+: option.toList := by
  unfold replacement? Text.startsWith KeyMap.keys
  simp only [List.find?_eq_none, List.isPrefixOf_iff_prefix, List.forall_mem_map]

/-- The replace flag that is found first is the least one that fits. -/
theorem chooses_of_replacement? (h : rules.replacement? option = some (flag, target)) :
    rules.Chooses option flag target := by
  obtain ⟨hbegins, before, after, hentries, hbefore⟩ := List.find?_eq_some_iff_append.1 h
  have hmem : (flag, target) ∈ rules.replace.entries := by
    rw [hentries]
    exact List.mem_append_right _ List.mem_cons_self
  refine ⟨KeyMap.mem_entries_iff.1 hmem, List.isPrefixOf_iff_prefix.1 hbegins, ?_⟩
  intro other hother hfits hne
  obtain ⟨entry, hentry, rfl⟩ := List.mem_map.1 hother
  -- The flags before it do not fit, and those behind it are greater.
  have horder := rules.replace.pairwise_encode_lt
  rw [hentries] at hentry horder
  rcases List.mem_append.1 hentry with hentry | hentry
  · have hmisses := hbefore entry hentry
    rw [Text.startsWith, List.isPrefixOf_iff_prefix.2 hfits] at hmisses
    cases hmisses
  · rcases List.mem_cons.1 hentry with rfl | hentry
    · exact absurd rfl hne
    · have hafter := (List.pairwise_append.1 horder).2.1
      exact (List.pairwise_cons.1 hafter).1 entry hentry

/-- The replace flag that counts is the least one that fits. -/
theorem replacement?_eq_some_iff :
    rules.replacement? option = some (flag, target) ↔ rules.Chooses option flag target := by
  constructor
  · exact chooses_of_replacement?
  · intro h
    cases hfound : rules.replacement? option with
    | none =>
      have hnone := replacement?_eq_none_iff.1 hfound
      exact absurd h.begins (hnone flag (KeyMap.mem_keys_of_get? h.listed))
    | some entry =>
      obtain ⟨rfl, rfl⟩ := h.unique (chooses_of_replacement? hfound)
      rfl

/-- Every command line has segments. -/
theorem exists_segmented (rules : FlagRules) (options : List String) :
    ∃ segments, rules.Segmented options segments := by
  -- A segment of two options skips one, so the claim is carried along for the options but the
  -- first.
  suffices h : (∃ segments, rules.Segmented options segments) ∧
      ∃ segments, rules.Segmented options.tail segments from h.1
  induction options with
  | nil => exact ⟨⟨[], .done⟩, [], .done⟩
  | cons option rest ih =>
    refine ⟨?_, ih.1⟩
    have hbehind : ∃ segments, rules.Segmented (behind option rest) segments := by
      unfold behind
      split
      · exact ih.1
      · exact ih.2
    by_cases hdeletes : rules.Deletes option
    · obtain ⟨segments, hsegments⟩ := hbehind
      exact ⟨_, .deleted hdeletes hsegments⟩
    cases hfound : rules.replacement? option with
    | none =>
      obtain ⟨segments, hsegments⟩ := ih.1
      exact ⟨_, .kept hdeletes (replacement?_eq_none_iff.1 hfound) hsegments⟩
    | some entry =>
      obtain ⟨segments, hsegments⟩ := hbehind
      exact ⟨_, .replaced hdeletes (chooses_of_replacement? hfound) hsegments⟩

/-! ## A flag that is chosen a second time -/

/-- The first flag that has been used when its turn comes. -/
def firstRepeat? : List String → List String → Option String
  | _, [] => none
  | used, flag :: flags => if flag ∈ used then some flag else firstRepeat? (flag :: used) flags

/-- No flag is used again if all are different and new. -/
theorem firstRepeat?_eq_none_iff {used flags : List String} :
    firstRepeat? used flags = none ↔ flags.Nodup ∧ ∀ flag ∈ flags, flag ∉ used := by
  induction flags generalizing used with
  | nil => simp [firstRepeat?]
  | cons first flags ih =>
    rw [firstRepeat?, List.nodup_cons, List.forall_mem_cons]
    by_cases hused : first ∈ used
    · simp [hused]
    · rw [if_neg hused, ih]
      simp only [List.mem_cons, not_or]
      constructor
      · rintro ⟨hnodup, hnew⟩
        exact ⟨⟨fun hfirst => (hnew first hfirst).1 rfl, hnodup⟩, hused,
          fun flag hflag => (hnew flag hflag).2⟩
      · rintro ⟨⟨hfirst, hnodup⟩, -, hnew⟩
        refine ⟨hnodup, fun flag hflag => ⟨?_, hnew flag hflag⟩⟩
        rintro rfl
        exact hfirst hflag

/-- No flag is used twice if all are different. -/
theorem firstRepeat?_nil_eq_none_iff {flags : List String} :
    firstRepeat? [] flags = none ↔ flags.Nodup := by
  rw [firstRepeat?_eq_none_iff]
  exact and_iff_left fun flag _ => List.not_mem_nil

/-- The first flag that is used again stands behind different new ones, or is the first of all and
was used before. -/
theorem firstRepeat?_eq_some_iff {used flags : List String} :
    firstRepeat? used flags = some flag ↔ ∃ before after, flags = before ++ flag :: after ∧
      firstRepeat? used before = none ∧ (flag ∈ before ∨ flag ∈ used) := by
  induction flags generalizing used with
  | nil => simp [firstRepeat?]
  | cons first flags ih =>
    rw [firstRepeat?]
    by_cases hused : first ∈ used
    · -- This flag is the one that is used again.
      rw [if_pos hused, Option.some.injEq]
      constructor
      · rintro rfl
        exact ⟨[], flags, rfl, rfl, .inr hused⟩
      · rintro ⟨before, after, hflags, hbefore, -⟩
        cases before with
        | nil => exact (List.cons.inj hflags).1
        | cons second before =>
          obtain ⟨rfl, -⟩ := List.cons.inj hflags
          rw [firstRepeat?, if_pos hused] at hbefore
          cases hbefore
    · -- This flag is new, so that the one that is used again stands behind it.
      rw [if_neg hused, ih]
      constructor
      · rintro ⟨before, after, rfl, hbefore, hflag⟩
        refine ⟨first :: before, after, rfl, ?_, ?_⟩
        · rw [firstRepeat?, if_neg hused]
          exact hbefore
        · simp only [List.mem_cons] at hflag ⊢
          tauto
      · rintro ⟨before, after, hflags, hbefore, hflag⟩
        cases before with
        | nil =>
          obtain ⟨rfl, -⟩ := List.cons.inj hflags
          simp [hused] at hflag
        | cons second before =>
          obtain ⟨rfl, rfl⟩ := List.cons.inj hflags
          rw [firstRepeat?, if_neg hused] at hbefore
          refine ⟨before, after, rfl, hbefore, ?_⟩
          simp only [List.mem_cons] at hflag ⊢
          tauto

/-! ## The loop over the options -/

/-- Passing over the value of an option. -/
theorem edit_behind (rules : FlagRules) (used : List String) (option : String)
    (rest : List String) :
    rules.edit used (!carriesValue option) rest = rules.edit used false (behind option rest) := by
  unfold behind
  by_cases hequals : '=' ∈ option.toList
  · rw [if_pos hequals, carriesValue_iff.2 hequals]
    rfl
  · have hvalue : carriesValue option = false := by
      rwa [← Bool.not_eq_true, carriesValue_iff]
    rw [if_neg hequals, hvalue]
    cases rest <;> rfl

/-- Changing options writes each segment for itself, unless a flag is chosen that has been used. -/
theorem edit_eq (h : rules.Segmented options segments) (used : List String) :
    rules.edit used false options =
      match firstRepeat? used (chosen segments) with
      | some flag => .error (.replaceFlagMatchedTwice flag)
      | none => .ok (segments.flatMap Segment.written, (chosen segments).reverse ++ used) := by
  induction h generalizing used with
  | done => rfl
  | deleted hdeletes hrest ih =>
    rw [edit, if_pos (deletes_iff.2 hdeletes), edit_behind, ih used, Segment.chosen_deleted]
    rfl
  | @replaced option flag target rest segments hkeeps hchooses hrest ih =>
    have hwritten : replaced option flag target =
        (Segment.replaced option (valueOf? option rest) flag target).written := by
      unfold replaced Segment.written
      simp only [carriesValue_iff]
    rw [edit, if_neg (mt deletes_iff.1 hkeeps), replacement?_eq_some_iff.2 hchooses]
    simp only [Segment.chosen_replaced, firstRepeat?, List.contains_iff_mem, edit_behind,
      ih (flag :: used)]
    -- The loop stops here if the flag has been used, and else adds the segment to what follows.
    by_cases hused : flag ∈ used
    · rw [if_pos hused, if_pos hused]
    · rw [if_neg hused, if_neg hused]
      cases firstRepeat? (flag :: used) (chosen segments) with
      | some again => rfl
      | none =>
        rw [hwritten, List.flatMap_cons, List.reverse_cons, List.append_assoc]
        rfl
  | @kept option rest segments hkeeps hnone hrest ih =>
    rw [edit, if_neg (mt deletes_iff.1 hkeeps), replacement?_eq_none_iff.2 hnone, ih used,
      Segment.chosen_kept]
    cases firstRepeat? used (chosen segments) <;> rfl

/-- The replace flags that no segment chooses, in byte order. -/
def unchosen (rules : FlagRules) (segments : List Segment) : List String :=
  rules.replace.keys.filter fun flag => flag ∉ chosen segments

/-- Applying the rules writes each segment for itself, unless a flag is chosen twice or not at all.
-/
theorem apply_eq (h : rules.Segmented options segments) :
    rules.apply options =
      match firstRepeat? [] (chosen segments) with
      | some flag => .error (.replaceFlagMatchedTwice flag)
      | none =>
        if rules.unchosen segments = [] then .ok (segments.flatMap Segment.written ++ rules.add)
        else .error (.replaceFlagsNotFound (rules.unchosen segments)) := by
  rw [apply, edit_eq h []]
  cases firstRepeat? [] (chosen segments) with
  | some flag => rfl
  | none =>
    have hmissing : (rules.replace.keys.filter fun flag =>
        !((chosen segments).reverse ++ []).contains flag) = rules.unchosen segments := by
      refine List.filter_congr fun flag _ => ?_
      simp
    dsimp only [bind, Except.bind]
    rw [hmissing]
    simp only [List.isEmpty_iff]
    rfl

/-- The flags that are not chosen are all those, in byte order. -/
theorem unchosen_spec (rules : FlagRules) (segments : List Segment) :
    (rules.unchosen segments).Pairwise (fun a b => Text.encode a < Text.encode b) ∧
      ∀ flag, flag ∈ rules.unchosen segments ↔
        flag ∈ rules.replace.keys ∧ flag ∉ chosen segments := by
  constructor
  · have hkeys : rules.replace.keys.Pairwise fun a b => Text.encode a < Text.encode b :=
      List.pairwise_map.2 rules.replace.pairwise_encode_lt
    exact hkeys.filter _
  · intro flag
    rw [unchosen, List.mem_filter, decide_eq_true_iff]

/-- Each replace flag is chosen once if none is chosen twice and none is missing. -/
theorem count_eq_one_iff (h : rules.Segmented options segments) :
    (∀ flag ∈ rules.replace.keys, (chosen segments).count flag = 1) ↔
      (chosen segments).Nodup ∧ rules.unchosen segments = [] := by
  have hmissing : rules.unchosen segments = [] ↔
      ∀ flag ∈ rules.replace.keys, flag ∈ chosen segments := by
    rw [unchosen, List.filter_eq_nil_iff]
    simp only [decide_eq_true_eq, not_not]
  rw [hmissing]
  constructor
  · intro hcount
    refine ⟨List.nodup_iff_count_le_one.2 fun flag => ?_, fun flag hflag => ?_⟩
    · by_cases hflag : flag ∈ chosen segments
      · exact Nat.le_of_eq (hcount flag (h.mem_keys_of_chosen hflag))
      · rw [List.count_eq_zero.2 hflag]
        exact Nat.zero_le 1
    · refine List.count_pos_iff.1 ?_
      rw [hcount flag hflag]
      exact Nat.one_pos
  · rintro ⟨hnodup, hall⟩ flag hflag
    exact List.count_eq_one_of_mem hnodup (hall flag hflag)

/-- The first flag that is used again is that of the first segment that repeats a choice. -/
theorem firstRepeat?_chosen :
    firstRepeat? [] (chosen segments) = some flag ↔ RepeatsFirst segments flag := by
  rw [firstRepeat?_eq_some_iff, RepeatsFirst]
  constructor
  · rintro ⟨before, after, hchosen, hfirst, hagain⟩
    obtain ⟨front, back, rfl, rfl, hback⟩ := List.filterMap_eq_append_iff.1 hchosen
    obtain ⟨idle, segment, rest, rfl, hidle, hsegment, -⟩ := List.filterMap_eq_cons_iff.1 hback
    -- Segments that choose nothing may stand between the two.
    have hnone : idle.filterMap Segment.flag? = [] := List.filterMap_eq_nil_iff.2 hidle
    have hbefore : chosen (front ++ idle) = front.filterMap Segment.flag? := by
      rw [chosen, List.filterMap_append, hnone, List.append_nil]
    refine ⟨front ++ idle, segment, rest, (List.append_assoc ..).symm, hsegment, ?_, ?_⟩
    · rw [hbefore]
      exact firstRepeat?_nil_eq_none_iff.1 hfirst
    · rw [hbefore]
      simpa using hagain
  · rintro ⟨before, segment, after, rfl, hsegment, hnodup, hagain⟩
    refine ⟨chosen before, chosen after, ?_, ?_, .inl hagain⟩
    · rw [chosen, List.filterMap_append, List.filterMap_cons, hsegment]
      rfl
    · exact firstRepeat?_nil_eq_none_iff.2 hnodup

/-- The rules apply exactly if each replace flag is chosen by one segment, and then the segments are
written in order, followed by the options to add. -/
theorem apply_eq_ok_iff (h : rules.Segmented options segments) {written : List String} :
    rules.apply options = .ok written ↔
      (∀ flag ∈ rules.replace.keys, (chosen segments).count flag = 1) ∧
        written = segments.flatMap Segment.written ++ rules.add := by
  rw [count_eq_one_iff h, apply_eq h, ← firstRepeat?_nil_eq_none_iff]
  cases firstRepeat? [] (chosen segments) with
  | some flag => exact ⟨nofun, nofun⟩
  | none =>
    dsimp only
    by_cases hmissing : rules.unchosen segments = []
    · rw [if_pos hmissing, Except.ok.injEq, eq_comm]
      exact (and_iff_right ⟨rfl, hmissing⟩).symm
    · rw [if_neg hmissing]
      exact ⟨nofun, fun hall => absurd hall.1.2 hmissing⟩

/-- The rules fail with the first flag that is chosen a second time, and without one with the flags
that are not chosen. -/
theorem apply_eq_error_iff (h : rules.Segmented options segments) {e : CorpusError} :
    rules.apply options = .error e ↔
      (∃ flag, RepeatsFirst segments flag ∧ e = .replaceFlagMatchedTwice flag) ∨
      ((chosen segments).Nodup ∧ rules.unchosen segments ≠ [] ∧
        e = .replaceFlagsNotFound (rules.unchosen segments)) := by
  simp only [← firstRepeat?_chosen]
  rw [apply_eq h, ← firstRepeat?_nil_eq_none_iff]
  cases firstRepeat? [] (chosen segments) with
  | some flag =>
    dsimp only
    rw [Except.error.injEq]
    constructor
    · rintro rfl
      exact .inl ⟨flag, rfl, rfl⟩
    · rintro (⟨_, ⟨⟩, rfl⟩ | ⟨⟨⟩, -⟩)
      rfl
  | none =>
    dsimp only
    by_cases hmissing : rules.unchosen segments = []
    · rw [if_pos hmissing]
      refine ⟨nofun, ?_⟩
      rintro (⟨_, ⟨⟩, -⟩ | ⟨-, hfails, -⟩)
      exact absurd hmissing hfails
    · rw [if_neg hmissing, Except.error.injEq]
      constructor
      · rintro rfl
        exact .inr ⟨rfl, hmissing, rfl⟩
      · rintro (⟨_, ⟨⟩, -⟩ | ⟨-, -, rfl⟩)
        rfl

/-- Rules mean for a command line what they mean for its segments, into which it falls in one way.
They apply exactly if each replace flag is chosen by one segment, and then the segments are written
in order, followed by the options to add. Otherwise the first segment with a flag that was chosen
before is reported; and if there is none, the flags that no segment chooses are, in byte order. -/
theorem apply_by_segments (rules : FlagRules) (options : List String) :
    ∃ segments missing, rules.Segmented options segments ∧
      (∀ others, rules.Segmented options others → others = segments) ∧
      segments.flatMap Segment.options = options ∧
      missing.Pairwise (fun a b => Text.encode a < Text.encode b) ∧
      (∀ flag, flag ∈ missing ↔ flag ∈ rules.replace.keys ∧ flag ∉ chosen segments) ∧
      (∀ written, rules.apply options = .ok written ↔
        (∀ flag ∈ rules.replace.keys, (chosen segments).count flag = 1) ∧
          written = segments.flatMap Segment.written ++ rules.add) ∧
      (∀ e, rules.apply options = .error e ↔
        (∃ flag, RepeatsFirst segments flag ∧ e = .replaceFlagMatchedTwice flag) ∨
        ((chosen segments).Nodup ∧ missing ≠ [] ∧ e = .replaceFlagsNotFound missing)) := by
  obtain ⟨segments, h⟩ := exists_segmented rules options
  obtain ⟨hsorted, hmem⟩ := unchosen_spec rules segments
  exact ⟨segments, rules.unchosen segments, h, fun others hothers => h.unique hothers,
    h.flatMap_options, hsorted, hmem, fun written => apply_eq_ok_iff h,
    fun e => apply_eq_error_iff h⟩

namespace Sample

/-- Rules that set the output and drop what has to do with profiles. -/
def quiet : FlagRules :=
  ⟨["-c"], ["-fprofile"], KeyMap.empty.insert "-o" "/dev/null"⟩

/-- The segments of a command line in which the value behind `-o` begins with a delete flag. -/
def swallowing : List Segment :=
  [.replaced "-o" (some "-fprofile=a") "-o" "/dev/null", .kept "-O2", .deleted "-fprofile=b" none]

end Sample

/-- A value is dropped with its option although it looks like a flag itself. -/
theorem apply_by_segments_of_swallowed_value :
    Sample.quiet.Segmented ["-o", "-fprofile=a", "-O2", "-fprofile=b"] Sample.swallowing ∧
      Sample.quiet.apply ["-o", "-fprofile=a", "-O2", "-fprofile=b"] =
        .ok ["-o", "/dev/null", "-O2", "-c"] := by
  have hsegments : Sample.quiet.Segmented ["-o", "-fprofile=a", "-O2", "-fprofile=b"]
      Sample.swallowing := by
    have hkeeps {option : String} (h : Sample.quiet.deletes option = false) :
        ¬ Sample.quiet.Deletes option := by
      rw [← deletes_iff, h]
      exact Bool.false_ne_true
    refine .replaced (hkeeps (by decide)) (chooses_of_replacement? (by decide)) ?_
    refine .kept (hkeeps (by decide)) (replacement?_eq_none_iff.1 (by decide)) ?_
    exact .deleted (deletes_iff.1 (by decide)) .done
  obtain ⟨segments, missing, -, hunique, -, -, -, hok, -⟩ := apply_by_segments Sample.quiet
    ["-o", "-fprofile=a", "-O2", "-fprofile=b"]
  obtain rfl := hunique _ hsegments
  exact ⟨hsegments, (hok _).2 ⟨by decide, by decide⟩⟩

end FlagRules

end TraceGen
