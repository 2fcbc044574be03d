import TraceGen.NameFilter
import TraceGen.Proofs.Pattern.Locality
import TraceGen.Proofs.Pattern.Matching

/-!
# Anchored patterns

A filter puts an anchor before a pattern and the pattern into a group.
`NameFilter.anchored_matching` says when that is the same as to take the pattern on its own and to
ask for a match at the front. The group is written as text around the pattern, so that the pattern
decides where the group ends:

* A closing parenthesis that nothing in the pattern opens ends the group early (`ClosesEarly`), and
  what follows it is not anchored. Such a text is no pattern on its own, but around it the filter's
  own parenthesis may be the one that is missing.
* A comment on the last line takes in the filter's parenthesis, and the group is never closed
  (`Closes`).
* The anchor and the group count towards the limits.

Everything else is `readBody_takes`: a body is read in the same way at the end of a text and before
a closing parenthesis.
-/

namespace TraceGen

namespace Pattern

variable {text x y rest rest' : List Char} {p q : Pattern} {n m : Nat}

/-! ## Reading from the start -/

/-- From the start of a text the pattern `p` is read, and a rest is left. -/
def ReadsTo (text : List Char) (p : Pattern) (rest : List Char) : Prop :=
  ∃ n r, readBody? n [] [] ⟨false, [], text⟩ = some (p, r) ∧ r.rest = rest

/-- Reading ends at a closing parenthesis that nothing before it opens. -/
def ClosesEarly (text : List Char) : Prop :=
  ∃ p rest, ReadsTo text p (')' :: rest)

/-- Reading a text before a closing parenthesis ends at this one. -/
def Closes (text : List Char) : Prop :=
  ∃ p, ReadsTo (text ++ [')']) p [')']

/-- What is left is a tail, and any other one that it can be exchanged for would be left. -/
theorem ReadsTo.stands (h : ReadsTo text p rest) :
    Tail rest ∧ ∃ used, text = used ++ rest ∧
      ∀ rest', Exchange used rest rest' → ∃ r, r.rest = rest' ∧
        ∀ m, used.length < m → readBody? m [] [] ⟨false, [], used ++ rest'⟩ = some (p, r) := by
  obtain ⟨n, r, hread, rfl⟩ := h
  obtain ⟨htail, used, htext, htakes⟩ := readBody_takes hread
  exact ⟨htail, used, htext, fun rest' hrest =>
    ⟨⟨r.verbose, r.names, rest'⟩, rfl, fun m hm => htakes rest' m hrest hm⟩⟩

/-- The length of the text is fuel enough. -/
theorem ReadsTo.fuel (h : ReadsTo text p rest) :
    ∃ r, r.rest = rest ∧
      ∀ m, text.length < m → readBody? m [] [] ⟨false, [], text⟩ = some (p, r) := by
  obtain ⟨htail, used, rfl, htakes⟩ := h.stands
  obtain ⟨r, hr, hread⟩ := htakes rest ⟨.tail htail htail, fun hnil hne => absurd hnil hne⟩
  exact ⟨r, hr, fun m hm => hread m (by rw [List.length_append] at hm; omega)⟩

/-- A text is read in one way. -/
theorem ReadsTo.unique (h : ReadsTo text p rest) (h' : ReadsTo text q rest') :
    p = q ∧ rest = rest' := by
  obtain ⟨r, rfl, hread⟩ := h.fuel
  obtain ⟨r', rfl, hread'⟩ := h'.fuel
  have heq := (hread _ (Nat.lt_succ_self _)).symm.trans (hread' _ (Nat.lt_succ_self _))
  obtain ⟨rfl, rfl⟩ := Prod.mk.inj (Option.some.inj heq)
  exact ⟨rfl, rfl⟩

/-- What is left can be exchanged. -/
theorem ReadsTo.exchange (h : ReadsTo (x ++ rest) p rest) (hrest : Exchange x rest rest') :
    ReadsTo (x ++ rest') p rest' := by
  obtain ⟨-, used, htext, htakes⟩ := h.stands
  obtain rfl := List.append_cancel_right htext
  obtain ⟨r, hr, hread⟩ := htakes rest' hrest
  exact ⟨_, r, hread _ (Nat.lt_succ_self _), hr⟩

/-- What stands before a closing parenthesis at which reading ends is read on its own. -/
theorem ReadsTo.alone (h : ReadsTo (x ++ ')' :: y) p (')' :: y)) : ReadsTo x p [] := by
  have hend := h.exchange ⟨.tail (.paren y) .nil, nofun⟩
  rwa [List.append_nil] at hend

/-- What is read on its own is read before a closing parenthesis, unless it ends in a comment. -/
theorem ReadsTo.closes (h : ReadsTo x p []) (hopen : ¬ OpenLine x) : Closes x := by
  rw [← List.append_nil x] at h
  exact ⟨p, h.exchange ⟨.tail .nil (.paren []), fun _ _ => hopen⟩⟩

/-- A text is a pattern if it is read to its end and does not nest too deep. -/
theorem parse?_eq_some : parse? text = some p ↔ ReadsTo text p [] ∧ p.depth ≤ maxDepth := by
  unfold parse?
  constructor
  · intro h
    split at h
    · rename_i q r hread
      split at h
      · rename_i hcond
        obtain rfl := Option.some.inj h
        exact ⟨⟨_, r, hread, hcond.1⟩, hcond.2⟩
      · cases h
    · cases h
  · rintro ⟨hreads, hdepth⟩
    obtain ⟨r, hr, hread⟩ := hreads.fuel
    rw [hread _ (Nat.lt_succ_self _)]
    exact if_pos ⟨hr, hdepth⟩

/-! ## Behind the anchor -/

/-- A pattern in a group behind an anchor. -/
def behindAnchor (p : Pattern) : Pattern :=
  .seq (.assertion .lineStart) (.group [] p)

/-- The anchor and the opening of the group are read, then the group, then what is behind it. -/
theorem readBody_anchor (n : Nat) (cs : List Char) :
    readBody? (n + 2) [] [] ⟨false, [], '^' :: '(' :: '?' :: ':' :: cs⟩ =
      (readBody? n [] [] ⟨false, [], cs⟩).bind fun x =>
        match x.2.rest with
        | ')' :: rest => readBody? n [] [.assertion .lineStart, .group [] x.1]
            ⟨false, x.2.names, rest⟩
        | _ => none := by
  have hopening : readOpening? (skip false ('?' :: ':' :: cs)) = some (.flagged [], cs) := rfl
  rw [readBody_primitive rfl (by simp [isStructural])]
  show readBody? (n + 1) [] [.assertion .lineStart] ⟨false, [], '(' :: '?' :: ':' :: cs⟩ = _
  exact readBody_group rfl hopening rfl

/-- Before a closing parenthesis reading ends at this one, unless it ends early. -/
theorem ReadsTo.early (h : ReadsTo (text ++ [')']) p (')' :: rest)) (hrest : rest ≠ []) :
    ClosesEarly text := by
  obtain ⟨-, used, hused, -⟩ := h.stands
  -- The rest ends with the parenthesis put behind the text, so this can be taken off both.
  obtain ⟨z, c, rfl⟩ := (List.eq_nil_or_concat rest).resolve_left hrest
  rw [List.concat_eq_append] at h hused
  rw [← List.cons_append, ← List.append_assoc] at hused
  obtain ⟨rfl, hc⟩ := List.append_inj' hused rfl
  rw [← hc, List.append_assoc, List.cons_append] at h
  exact ⟨p, z, h.exchange ⟨.tail (.paren _) (.paren z), nofun⟩⟩

/-- The group ends at the parenthesis put behind the text, unless it ends early. -/
theorem readsTo_anchor (hearly : ¬ ClosesEarly text) :
    ReadsTo ('^' :: '(' :: '?' :: ':' :: (text ++ [')'])) q [] ↔
      ∃ p, q = p.behindAnchor ∧ ReadsTo (text ++ [')']) p [')'] := by
  constructor
  · intro h
    obtain ⟨r, -, hread⟩ := h.fuel
    specialize hread (text.length + 4 + 2) (by simp)
    rw [readBody_anchor] at hread
    obtain ⟨⟨p, inner⟩, hbody, hnext⟩ := Option.bind_eq_some_iff.1 hread
    dsimp only at hnext
    split at hnext
    · rename_i after hinner
      have hgroup : ReadsTo (text ++ [')']) p (')' :: after) := ⟨_, _, hbody, hinner⟩
      obtain rfl : after = [] := by
        by_contra hafter
        exact hearly (hgroup.early hafter)
      rw [readBody_nil rfl] at hnext
      obtain ⟨rfl, -⟩ := Prod.mk.inj (Option.some.inj hnext)
      exact ⟨p, rfl, hgroup⟩
    · cases hnext
  · rintro ⟨p, rfl, hreads⟩
    obtain ⟨r, hr, hread⟩ := hreads.fuel
    refine ⟨text.length + 2 + 2, ⟨false, r.names, []⟩, ?_, rfl⟩
    rw [readBody_anchor, hread _ (by simp), Option.bind_some, hr]
    exact readBody_nil rfl

/-- The anchor and the group make a pattern deeper by two. -/
theorem depth_behindAnchor (p : Pattern) : p.behindAnchor.depth = p.depth + 2 := by
  show max (1 + 0) (1 + (1 + p.depth)) = p.depth + 2
  omega

/-- The anchor takes room too. -/
theorem expr?_behindAnchor {g : Expr} :
    p.behindAnchor.expr? = some g ↔ ∃ e, p.expr? = some e ∧ e.weight + 1 ≤ maxWeight ∧
      g = .seq (.look (Assertion.lineStart.holds .initial)) e := by
  have hmeaning : p.behindAnchor.meaning? .initial = (p.meaning? .initial).map fun x =>
      (.seq (.look (Assertion.lineStart.holds .initial)) x.1, .initial) := by
    show ((p.meaning? .initial).map fun x => (x.1, PatternFlags.initial)).bind _ = _
    cases p.meaning? .initial <;> rfl
  have hweight (e : Expr) :
      (Expr.seq (.look (Assertion.lineStart.holds .initial)) e).weight = e.weight + 1 :=
    Nat.add_comm 1 e.weight
  unfold expr?
  rw [hmeaning]
  cases p.meaning? .initial with
  | none => simp
  | some x =>
    dsimp only [Option.map_some]
    rw [hweight]
    constructor
    · intro h
      split at h
      · rename_i hfits
        exact ⟨x.1, if_pos (by omega), hfits, (Option.some.inj h).symm⟩
      · cases h
    · rintro ⟨e, he, hfits, rfl⟩
      split at he
      · obtain rfl := Option.some.inj he
        exact if_pos hfits
      · cases he

/-- Behind the anchor an expression matches from the front only. -/
theorem occursIn_behindAnchor {e : Expr} :
    (Expr.seq (.look (Assertion.lineStart.holds .initial)) e).occursIn text = true ↔
      ∃ k, e.Matches text 0 k := by
  -- Only the first place has no neighbour before it.
  have hfront (i : Nat) : (i ≤ text.length ∧ Assertion.lineStart.holds .initial
      (Places.before text i) text[i]? = true) ↔ i = 0 := by
    show (i ≤ text.length ∧ (Places.before text i).isNone = true) ↔ i = 0
    cases i with
    | zero => simp [Places.before]
    | succ i =>
      rw [Nat.succ_le_iff]
      simp [Places.before]
  rw [Expr.occursIn_iff]
  simp only [Expr.Matches, hfront]
  constructor
  · rintro ⟨i, k, -, j, ⟨rfl, rfl⟩, hmatch⟩
    exact ⟨k, hmatch⟩
  · rintro ⟨k, hmatch⟩
    exact ⟨0, k, Nat.zero_le _, 0, ⟨rfl, rfl⟩, hmatch⟩

end Pattern

namespace NameFilter

open Pattern

variable {pattern : String} {f : NameFilter}

/-- The filters of patterns that do not close the group early. -/
theorem ofPattern?_eq_some (hearly : ¬ ClosesEarly pattern.toList) :
    ofPattern? pattern = some f ↔ ∃ p e,
      ReadsTo (pattern.toList ++ [')']) p [')'] ∧ p.depth + 2 ≤ maxDepth ∧
      p.expr? = some e ∧ e.weight + 1 ≤ maxWeight ∧
      f = ⟨pattern, .seq (.look (Assertion.lineStart.holds .initial)) e⟩ := by
  have hparse (q : Pattern) : parse? (anchored pattern) = some q ↔
      ∃ p, q = p.behindAnchor ∧ ReadsTo (pattern.toList ++ [')']) p [')'] ∧
        p.depth + 2 ≤ maxDepth := by
    rw [parse?_eq_some]
    show ReadsTo ('^' :: '(' :: '?' :: ':' :: (pattern.toList ++ [')'])) q [] ∧ _ ↔ _
    rw [readsTo_anchor hearly]
    constructor
    · rintro ⟨⟨p, rfl, hreads⟩, hdepth⟩
      exact ⟨p, rfl, hreads, depth_behindAnchor p ▸ hdepth⟩
    · rintro ⟨p, rfl, hreads, hdepth⟩
      exact ⟨⟨p, rfl, hreads⟩, (depth_behindAnchor p).symm ▸ hdepth⟩
  constructor
  · intro h
    obtain ⟨q, hq, h₁⟩ := Option.bind_eq_some_iff.1 h
    obtain ⟨g, hg, h₂⟩ := Option.bind_eq_some_iff.1 h₁
    obtain ⟨p, rfl, hreads, hdepth⟩ := (hparse q).1 hq
    obtain ⟨e, he, hweight, rfl⟩ := expr?_behindAnchor.1 hg
    exact ⟨p, e, hreads, hdepth, he, hweight, (Option.some.inj h₂).symm⟩
  · rintro ⟨p, e, hreads, hdepth, he, hweight, rfl⟩
    have hq := (hparse p.behindAnchor).2 ⟨p, rfl, hreads, hdepth⟩
    have hg := expr?_behindAnchor.2 ⟨e, he, hweight, rfl⟩
    exact Option.bind_eq_some_iff.2 ⟨_, hq, Option.bind_eq_some_iff.2 ⟨_, hg, rfl⟩⟩

/-- A filter is the pattern on its own, matched at the front of a name. This holds of every filter
whose pattern does not close the group early, which is then a pattern on its own. A pattern on its
own never does so, and there is a filter for it unless a comment takes in the parenthesis of the
group, for which it must have a `#` on its last line, or the anchor and the group are above a
limit. -/
theorem anchored_matching (pattern : String) :
    (∀ f, ofPattern? pattern = some f → ¬ ClosesEarly pattern.toList →
      ∃ p e, parse? pattern.toList = some p ∧ p.expr? = some e ∧
        ∀ name : String, f.selects name = e.matchesFront name.toList ∧
          (f.selects name = true ↔ ∃ k, e.Matches name.toList 0 k)) ∧
    ∀ p e, parse? pattern.toList = some p → p.expr? = some e →
      ¬ ClosesEarly pattern.toList ∧
      ((∃ f, ofPattern? pattern = some f) ↔
        Closes pattern.toList ∧ p.depth + 2 ≤ maxDepth ∧ e.weight + 1 ≤ maxWeight) ∧
      (¬ OpenLine pattern.toList → Closes pattern.toList) := by
  refine ⟨fun f hf hearly => ?_, fun p e hp he => ?_⟩
  · obtain ⟨p, e, hreads, hdepth, he, -, rfl⟩ := (ofPattern?_eq_some hearly).1 hf
    have hp : parse? pattern.toList = some p :=
      parse?_eq_some.2 ⟨hreads.alone, by omega⟩
    refine ⟨p, e, hp, he, fun name => ⟨?_, occursIn_behindAnchor⟩⟩
    exact Bool.eq_iff_iff.2 (occursIn_behindAnchor.trans Expr.matchesFront_iff.symm)
  · obtain ⟨hreads, -⟩ := parse?_eq_some.1 hp
    -- A text is read in one way: what is read to its end does not end before.
    have hearly : ¬ ClosesEarly pattern.toList := by
      rintro ⟨q, rest, hrest⟩
      exact List.cons_ne_nil _ _ (hrest.unique hreads).2
    refine ⟨hearly, ⟨?_, ?_⟩, hreads.closes⟩
    · rintro ⟨f, hf⟩
      obtain ⟨q, g, hgroup, hdepth, hg, hweight, -⟩ := (ofPattern?_eq_some hearly).1 hf
      obtain rfl := (hgroup.alone.unique hreads).1
      obtain rfl := Option.some.inj (hg.symm.trans he)
      exact ⟨⟨q, hgroup⟩, hdepth, hweight⟩
    · rintro ⟨⟨q, hgroup⟩, hdepth, hweight⟩
      -- What is read inside the group is what is read on its own.
      obtain rfl := (hgroup.alone.unique hreads).1
      exact ⟨_, (ofPattern?_eq_some hearly).2 ⟨q, e, hgroup, hdepth, he, hweight, rfl⟩⟩

/-- A pattern with a group, a comment that ends and a parenthesis in a class. -/
theorem anchored_matching_of_alternatives :
    let pattern := "(?x)ma(i|y)n # (\n|h[e)]lp"
    ∃ p e f, parse? pattern.toList = some p ∧ p.expr? = some e ∧
      ofPattern? pattern = some f ∧ ¬ ClosesEarly pattern.toList ∧
      ¬ OpenLine pattern.toList ∧ Closes pattern.toList ∧
      (∀ name : String, f.selects name = e.matchesFront name.toList ∧
        (f.selects name = true ↔ ∃ k, e.Matches name.toList 0 k)) ∧
      f.selects "main_loop" = true ∧ f.selects "h)lper" = true ∧ f.selects "domain" = false := by
  intro pattern
  have hvalid : ((parse? pattern.toList).bind expr?).isSome = true := by decide +kernel
  have hfilter : ∃ f ∈ ofPattern? pattern, f.selects "main_loop" = true ∧
      f.selects "h)lper" = true ∧ f.selects "domain" = false := by decide +kernel
  have hopen : ¬ OpenLine pattern.toList := by decide +kernel
  obtain ⟨e, hread⟩ := Option.isSome_iff_exists.1 hvalid
  obtain ⟨p, hp, he⟩ := Option.bind_eq_some_iff.1 hread
  obtain ⟨f, hf, hnames⟩ := hfilter
  obtain ⟨hearly, -, hcloses⟩ := (anchored_matching pattern).2 p e hp he
  obtain ⟨p', e', hp', he', hmatches⟩ := (anchored_matching pattern).1 f hf hearly
  obtain rfl := Option.some.inj (hp.symm.trans hp')
  obtain rfl := Option.some.inj (he.symm.trans he')
  exact ⟨p, e, f, hp, he, hf, hearly, hopen, hcloses hopen, hmatches, hnames⟩

/-- A text that closes the group early is no pattern, yet it has a filter, which selects a name
whose match is behind the front. A comment leaves a pattern without a filter. -/
theorem unanchored_filter :
    (∃ f, ofPattern? "a)|(b" = some f ∧ f.selects "xb" = true) ∧
    parse? "a)|(b".toList = none ∧
    (∃ p e, parse? "(?x)a # b".toList = some p ∧ p.expr? = some e) ∧
    ofPattern? "(?x)a # b" = none := by
  have hfilter : ∃ f ∈ ofPattern? "a)|(b", f.selects "xb" = true := by decide +kernel
  have hnone : (parse? "a)|(b".toList).isNone = true := by decide +kernel
  have hvalid : ((parse? "(?x)a # b".toList).bind expr?).isSome = true := by decide +kernel
  have hrefused : (ofPattern? "(?x)a # b").isNone = true := by decide +kernel
  obtain ⟨e, hread⟩ := Option.isSome_iff_exists.1 hvalid
  obtain ⟨p, hp, he⟩ := Option.bind_eq_some_iff.1 hread
  exact ⟨hfilter, Option.isNone_iff_eq_none.1 hnone, ⟨p, e, hp, he⟩,
    Option.isNone_iff_eq_none.1 hrefused⟩

end NameFilter

end TraceGen
