import TraceGen.Proofs.Corpus.Segments

/-!
# Rules that can be satisfied

Of replace flags that begin an option the least one is chosen, and a flag is less than those that
begin with it. So a flag that begins with another one is never chosen (`Chooses.eq_of_prefix`), and
rules with such flags fail on every command line. Rules that apply are free of them, and then each
option leaves no choice of its flag (`FlagRules.overlapping_flags_fail`).

What such rules write is read in the same way when they are applied again, segment by segment
(`Segmented.exists_rewritten`). So rewriting a command line twice is rewriting it once
(`FlagRules.apply_again`).
-/

namespace TraceGen

/-- The option with which a segment begins. -/
def Segment.head : Segment → String
  | deleted option _ => option
  | replaced option _ _ _ => option
  | kept option => option

namespace FlagRules

open Segment (chosen)

variable {rules : FlagRules} {option flag other target : String} {options out : List String}
  {segments : List Segment}

/-! ## Overlapping flags -/

/-- No replace flag begins with another one. -/
def PrefixFree (rules : FlagRules) : Prop :=
  ∀ flag ∈ rules.replace.keys, ∀ other ∈ rules.replace.keys, flag.toList <+: other.toList →
    flag = other

/-- A flag that is chosen begins with no other one. -/
theorem Chooses.eq_of_prefix (h : rules.Chooses option flag target)
    (hother : other ∈ rules.replace.keys) (hfront : other.toList <+: flag.toList) :
    other = flag := by
  by_contra hne
  have hless := Text.encode_lt_encode_of_prefix hfront hne
  have hmore := h.least other hother (hfront.trans h.begins) hne
  exact List.lt_irrefl _ (List.lt_trans hless hmore)

/-- A flag that segments choose is chosen for some option. -/
theorem Segmented.exists_chooses (h : rules.Segmented options segments)
    (hflag : flag ∈ chosen segments) : ∃ option target, rules.Chooses option flag target := by
  induction h with
  | done => cases hflag
  | deleted hdeletes hrest ih => exact ih hflag
  | @replaced option _ target rest segments hkeeps hchooses hrest ih =>
    rcases List.mem_cons.1 hflag with rfl | hflag
    · exact ⟨option, target, hchooses⟩
    · exact ih hflag
  | kept hkeeps hnone hrest ih => exact ih hflag

/-- Rules of which every flag is chosen have no overlapping flags. -/
theorem Segmented.prefixFree (h : rules.Segmented options segments)
    (hall : ∀ flag ∈ rules.replace.keys, flag ∈ chosen segments) : rules.PrefixFree := by
  intro flag hflag other hother hfront
  obtain ⟨option, target, hchooses⟩ := h.exists_chooses (hall other hother)
  exact hchooses.eq_of_prefix hflag hfront

/-- Rules that apply have no overlapping flags. -/
theorem prefixFree_of_apply (h : rules.apply options = .ok out) : rules.PrefixFree := by
  obtain ⟨segments, hsegments⟩ := exists_segmented rules options
  obtain ⟨hcount, -⟩ := (apply_eq_ok_iff hsegments).1 h
  refine hsegments.prefixFree fun flag hflag => List.count_pos_iff.1 ?_
  rw [hcount flag hflag]
  exact Nat.one_pos

/-- Without overlapping flags an option begins with one flag at most. -/
theorem PrefixFree.eq (h : rules.PrefixFree) (hflag : flag ∈ rules.replace.keys)
    (hother : other ∈ rules.replace.keys) (hbegins : flag.toList <+: option.toList)
    (hbegins' : other.toList <+: option.toList) : flag = other := by
  rcases List.prefix_or_prefix_of_prefix hbegins hbegins' with hfront | hfront
  · exact h flag hflag other hother hfront
  · exact (h other hother flag hflag hfront).symm

/-- Without overlapping flags every flag that begins an option is chosen for it. -/
theorem PrefixFree.chooses (h : rules.PrefixFree) (hlisted : rules.replace.get? flag = some target)
    (hbegins : flag.toList <+: option.toList) : rules.Chooses option flag target := by
  refine ⟨hlisted, hbegins, fun other hother hfits hne => absurd ?_ hne⟩
  exact h.eq hother (KeyMap.mem_keys_of_get? hlisted) hfits hbegins

/-- A segment whose option begins with a flag is deleted, or set to the value of this flag. -/
theorem Segmented.deleted_or_replaced (h : rules.Segmented options segments)
    (hfree : rules.PrefixFree) {segment : Segment} (hsegment : segment ∈ segments)
    (hlisted : rules.replace.get? flag = some target)
    (hbegins : flag.toList <+: segment.head.toList) :
    ∃ value, segment = .deleted segment.head value ∨
      segment = .replaced segment.head value flag target := by
  -- The induction looks for the segment; only where it stands does its option matter.
  induction h with
  | done => cases hsegment
  | @deleted option rest segments hdeletes hrest ih =>
    rcases List.mem_cons.1 hsegment with rfl | hsegment
    · exact ⟨_, .inl rfl⟩
    · exact ih hsegment
  | @replaced option flag' target' rest segments hkeeps hchooses hrest ih =>
    rcases List.mem_cons.1 hsegment with rfl | hsegment
    · obtain ⟨rfl, rfl⟩ := hchooses.unique (hfree.chooses hlisted hbegins)
      exact ⟨_, .inr rfl⟩
    · exact ih hsegment
  | @kept option rest segments hkeeps hnone hrest ih =>
    rcases List.mem_cons.1 hsegment with rfl | hsegment
    · exact absurd hbegins (hnone flag (KeyMap.mem_keys_of_get? hlisted))
    · exact ih hsegment

/-- A flag that begins with another one is reported missing, unless some flag fits twice. -/
theorem apply_of_overlap (hflag : flag ∈ rules.replace.keys) (hother : other ∈ rules.replace.keys)
    (hne : flag ≠ other) (hfront : flag.toList <+: other.toList) (options : List String) :
    (∃ again, rules.apply options = .error (.replaceFlagMatchedTwice again)) ∨
      ∃ missing, other ∈ missing ∧
        rules.apply options = .error (.replaceFlagsNotFound missing) := by
  obtain ⟨segments, hsegments⟩ := exists_segmented rules options
  have hmissing : other ∈ rules.unchosen segments := by
    refine ((unchosen_spec rules segments).2 other).2 ⟨hother, fun hchosen => hne ?_⟩
    obtain ⟨option, target, hchooses⟩ := hsegments.exists_chooses hchosen
    exact hchooses.eq_of_prefix hflag hfront
  rw [apply_eq hsegments]
  cases firstRepeat? [] (chosen segments) with
  | some again => exact .inl ⟨again, rfl⟩
  | none =>
    refine .inr ⟨_, hmissing, ?_⟩
    dsimp only
    rw [if_neg (List.ne_nil_of_mem hmissing)]

/-- Rules with overlapping replace flags can never be satisfied: on every command line a flag is
reported that fits twice, or else the flag that begins with another one is among those that are
reported missing. So if rules apply, no replace flag begins with another one; and every option that
begins with a replace flag is deleted, or goes along with the option before it as its value, or is
rewritten with the value of this flag. -/
theorem overlapping_flags_fail (rules : FlagRules) (options : List String) :
    (∀ flag ∈ rules.replace.keys, ∀ other ∈ rules.replace.keys, flag ≠ other →
      flag.toList <+: other.toList →
        (∃ again, rules.apply options = .error (.replaceFlagMatchedTwice again)) ∨
          ∃ missing, other ∈ missing ∧
            rules.apply options = .error (.replaceFlagsNotFound missing)) ∧
    ∀ out, rules.apply options = .ok out → rules.PrefixFree ∧
      ∃ segments, rules.Segmented options segments ∧ segments.flatMap Segment.options = options ∧
        out = segments.flatMap Segment.written ++ rules.add ∧
        ∀ segment ∈ segments, ∀ flag target, rules.replace.get? flag = some target →
          flag.toList <+: segment.head.toList →
            ∃ value, segment = .deleted segment.head value ∨
              segment = .replaced segment.head value flag target := by
  refine ⟨fun flag hflag other hother hne hfront =>
    apply_of_overlap hflag hother hne hfront options, fun out h => ?_⟩
  have hfree := prefixFree_of_apply h
  obtain ⟨segments, hsegments⟩ := exists_segmented rules options
  exact ⟨hfree, segments, hsegments, hsegments.flatMap_options,
    ((apply_eq_ok_iff hsegments).1 h).2,
    fun segment hsegment flag target hlisted hbegins =>
      hsegments.deleted_or_replaced hfree hsegment hlisted hbegins⟩

namespace Sample

/-- Rules with a flag that begins with another one. -/
def overlapping : FlagRules :=
  ⟨[], [], (KeyMap.empty.insert "-o" "a").insert "-ob" "b"⟩

end Sample

/-- The flag that begins with another one is not found, and without it every option with the output
is set to the same value. -/
theorem overlapping_flags_fail_of_output :
    ((∃ again, Sample.overlapping.apply ["-ob=x"] = .error (.replaceFlagMatchedTwice again)) ∨
      ∃ missing, "-ob" ∈ missing ∧
        Sample.overlapping.apply ["-ob=x"] = .error (.replaceFlagsNotFound missing)) ∧
    Sample.quiet.apply ["-ob=x"] = .ok ["-o=/dev/null", "-c"] ∧ Sample.quiet.PrefixFree ∧
    ∃ segments, Sample.quiet.Segmented ["-ob=x"] segments ∧
      ∀ segment ∈ segments, segment.head = "-ob=x" →
        ∃ value, segment = .deleted "-ob=x" value ∨
          segment = .replaced "-ob=x" value "-o" "/dev/null" := by
  have happly : Sample.quiet.apply ["-ob=x"] = .ok ["-o=/dev/null", "-c"] := by decide
  obtain ⟨hfails, -⟩ := overlapping_flags_fail Sample.overlapping ["-ob=x"]
  obtain ⟨-, hsucceeds⟩ := overlapping_flags_fail Sample.quiet ["-ob=x"]
  obtain ⟨hfree, segments, hsegments, -, -, hset⟩ := hsucceeds _ happly
  refine ⟨hfails "-o" (by decide) "-ob" (by decide) (by decide) (by decide), happly, hfree,
    segments, hsegments, fun segment hsegment hhead => ?_⟩
  have hsegment := hset segment hsegment "-o" "/dev/null" (by decide) (by rw [hhead]; decide)
  rwa [hhead] at hsegment

/-! ## Rewriting again -/

/-- No delete flag begins with a replace flag and an equals sign. -/
def KeepsReplaced (rules : FlagRules) : Prop :=
  ∀ dropped ∈ rules.delete, ∀ flag ∈ rules.replace.keys, ¬ (flag ++ "=").toList <+: dropped.toList

/-- A flag that begins an option which is not deleted is not deleted itself. -/
theorem not_deletes_of_prefix (hkeeps : ¬ rules.Deletes option)
    (hbegins : flag.toList <+: option.toList) : ¬ rules.Deletes flag := by
  rintro ⟨dropped, hdropped, hfront⟩
  exact hkeeps ⟨dropped, hdropped, hfront.trans hbegins⟩

/-- Then it is not deleted with a value either. -/
theorem KeepsReplaced.not_deletes (h : rules.KeepsReplaced) (hflag : flag ∈ rules.replace.keys)
    (hkeeps : ¬ rules.Deletes flag) (target : String) :
    ¬ rules.Deletes (flag ++ "=" ++ target) := by
  rintro ⟨dropped, hdropped, hfront⟩
  have hlonger := h dropped hdropped flag hflag
  have hequals : (flag ++ "=").toList <+: (flag ++ "=" ++ target).toList := by
    rw [String.toList_append (s := flag ++ "=")]
    exact List.prefix_append ..
  rcases List.prefix_or_prefix_of_prefix hequals hfront with hbegins | hbegins
  · exact hlonger hbegins
  · rw [String.toList_append] at hbegins hlonger
    rcases List.prefix_concat_iff.1 hbegins with heq | hbegins
    · exact hlonger (heq ▸ List.prefix_rfl)
    · exact hkeeps ⟨dropped, hdropped, hbegins⟩

/-- What is written for a segment that is replaced is a segment that is replaced in the same way. -/
theorem PrefixFree.exists_rewritten (h : rules.PrefixFree) (hdelete : rules.KeepsReplaced)
    (hkeeps : ¬ rules.Deletes option) (hchooses : rules.Chooses option flag target)
    (value : Option String) (hrest : rules.Segmented options segments) :
    ∃ segment, segment.flag? = some flag ∧
      segment.written = (Segment.replaced option value flag target).written ∧
      rules.Segmented ((Segment.replaced option value flag target).written ++ options)
        (segment :: segments) := by
  have hflag := not_deletes_of_prefix hkeeps hchooses.begins
  by_cases hequals : '=' ∈ option.toList
  · -- The option that is written carries the value.
    have hcarries : '=' ∈ (flag ++ "=" ++ target).toList := by simp
    have hbegins : flag.toList <+: (flag ++ "=" ++ target).toList := by
      rw [String.append_assoc, String.toList_append]
      exact List.prefix_append ..
    rw [Segment.written, if_pos hequals]
    refine ⟨_, rfl, ?_, .replaced ?_ (h.chooses hchooses.listed hbegins) ?_⟩
    · rw [Segment.written, if_pos hcarries]
    · exact hdelete.not_deletes (KeyMap.mem_keys_of_get? hchooses.listed) hflag target
    · rwa [behind, if_pos hcarries]
  · -- The value that is written goes along with the flag.
    have hcarries : '=' ∉ flag.toList := fun hmem => hequals (hchooses.begins.subset hmem)
    rw [Segment.written, if_neg hequals]
    refine ⟨_, rfl, ?_, .replaced hflag (h.chooses hchooses.listed List.prefix_rfl) ?_⟩
    · rw [Segment.written, if_neg hcarries]
    · rwa [behind, if_neg hcarries]

/-- What is written for segments falls into segments that choose the same flags and are written in
the same way. -/
theorem Segmented.exists_rewritten (h : rules.Segmented options segments)
    (hfree : rules.PrefixFree) (hdelete : rules.KeepsReplaced) :
    ∃ segments', rules.Segmented (segments.flatMap Segment.written) segments' ∧
      chosen segments' = chosen segments ∧
      segments'.flatMap Segment.written = segments.flatMap Segment.written := by
  induction h with
  | done => exact ⟨[], .done, rfl, rfl⟩
  -- Nothing is written for what is deleted, and so there is nothing to read again.
  | deleted hdeletes hrest ih => exact ih
  | @replaced option flag target rest segments hkeeps hchooses hrest ih =>
    obtain ⟨segments', hsegments', hchosen, hwritten⟩ := ih
    obtain ⟨segment, hflag, hsame, hsegment⟩ := hfree.exists_rewritten hdelete hkeeps hchooses
      (valueOf? option rest) hsegments'
    refine ⟨segment :: segments', hsegment, ?_, ?_⟩
    · rw [Segment.chosen_replaced, ← hchosen, chosen, List.filterMap_cons, hflag]
      rfl
    · rw [List.flatMap_cons, List.flatMap_cons, hwritten, hsame]
  | @kept option rest segments hkeeps hnone hrest ih =>
    obtain ⟨segments', hsegments', hchosen, hwritten⟩ := ih
    refine ⟨.kept option :: segments', .kept hkeeps hnone hsegments', hchosen, ?_⟩
    rw [List.flatMap_cons, List.flatMap_cons, hwritten]

/-- Rewriting is stable: rules that add nothing, and by which no option that they write is deleted,
change nothing in a command line that they have rewritten. -/
theorem apply_again (hadd : rules.add = [])
    (hdelete : ∀ dropped ∈ rules.delete, ∀ flag ∈ rules.replace.keys,
      ¬ (flag ++ "=").toList <+: dropped.toList)
    (h : rules.apply options = .ok out) : rules.apply out = .ok out := by
  have hfree := prefixFree_of_apply h
  obtain ⟨segments, hsegments⟩ := exists_segmented rules options
  obtain ⟨hcount, rfl⟩ := (apply_eq_ok_iff hsegments).1 h
  obtain ⟨segments', hsegments', hchosen, hwritten⟩ := hsegments.exists_rewritten hfree hdelete
  rw [hadd, List.append_nil]
  refine (apply_eq_ok_iff hsegments').2 ⟨fun flag hflag => ?_, ?_⟩
  · rw [hchosen]
    exact hcount flag hflag
  · rw [hwritten, hadd, List.append_nil]

namespace Sample

/-- Rules that set the output to a value that looks like what they drop. -/
def misleading : FlagRules :=
  ⟨[], ["-fprofile"], KeyMap.empty.insert "-o" "-fprofile"⟩

end Sample

/-- A value that was written stays although it begins with a delete flag. -/
theorem apply_again_of_misleading_value :
    Sample.misleading.apply ["-o", "a.o", "-fprofile=b", "-O2"] = .ok ["-o", "-fprofile", "-O2"] ∧
      Sample.misleading.apply ["-o", "-fprofile", "-O2"] = .ok ["-o", "-fprofile", "-O2"] := by
  have happly : Sample.misleading.apply ["-o", "a.o", "-fprofile=b", "-O2"] =
      .ok ["-o", "-fprofile", "-O2"] := by
    decide
  exact ⟨happly, apply_again rfl (by decide) happly⟩

end FlagRules

end TraceGen
