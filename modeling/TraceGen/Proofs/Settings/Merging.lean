import TraceGen.Proofs.Settings.Bindings

/-!
# Merging and binding are one language of updates

Merging lays a document over another one: what comes of each key is said by `Mapping.Overlaid`, and
laying the same document over the result changes nothing (`Mapping.merge_again`). Both need that no
mapping of the overlay has a key twice (`Mapping.Distinct`), which is so for every document that was
read (`Mapping.distinct_of_ofText?`).

The key of a binding describes a document with one entry on each level (`Binding.document`).
`Mapping.setPath?_laid` compares the walk of a binding with merging this document: merging sets, at
the same place, what the value becomes when it is laid over the value that was there. So the two
differ by mappings that meet at this place, and `Mapping.one_update_language` spells this out.
-/

namespace TraceGen

open Yaml (Node)

namespace Mapping

variable {m m' base overlay nested : Mapping} {k v value : Node} {segment : String}
  {path : List String}

/-! ## Documents without repeated keys -/

/-- No mapping at a place of the document has a key twice. -/
def Distinct (m : Mapping) : Prop :=
  ∀ place es, m.at? place = some (.mapping es) → (es.map (·.1)).Nodup

/-- The document itself has no key twice. -/
theorem Distinct.nodup (h : m.Distinct) : (m.map (·.1)).Nodup :=
  h [] m rfl

/-- A mapping below a key has no key twice either. -/
theorem Distinct.below (h : m.Distinct) (hnested : get? k m = some (.mapping nested)) :
    nested.Distinct := by
  intro place es hes
  refine h (k :: place) es ?_
  rw [at?_cons, hnested]
  exact hes

/-- An entry is what is found at its key if there is no other one with this key. -/
theorem get?_of_mem (hkeys : (m.map (·.1)).Nodup) (h : (k, v) ∈ m) : get? k m = some v := by
  induction m with
  | nil => cases h
  | cons e m ih =>
    obtain ⟨l, w⟩ := e
    rw [List.map_cons, List.nodup_cons] at hkeys
    rw [get?]
    rcases List.mem_cons.1 h with heq | h
    · cases heq
      rw [if_pos rfl]
    · have hl : l ≠ k := by
        rintro rfl
        exact hkeys.1 (List.mem_map.2 ⟨_, h, rfl⟩)
      rw [if_neg hl, ih hkeys.2 h]

/-- A document has no keys twice if it has none itself and the mappings in its entries have none. -/
theorem distinct_of_forall_mem (hkeys : (m.map (·.1)).Nodup)
    (h : ∀ e ∈ m, ∀ es, e.2 = .mapping es → Distinct es) : m.Distinct := by
  intro place es hes
  cases place with
  | nil =>
    cases hes
    exact hkeys
  | cons k place =>
    obtain ⟨w, hw, hes⟩ := Option.bind_eq_some_iff.1 hes
    have hbelow := h _ (mem_of_get? hw)
    cases w with
    | mapping nested => exact hbelow nested rfl place es hes
    | null | bool | number | text | sequence | tagged => cases place <;> cases hes

/-- What a node means has no keys twice. -/
theorem distinct_of_ofTree? {r : Node.References} {depth : Nat} {t : Yaml.Tree}
    {steps steps' : Nat} (h : Node.ofTree? r depth t steps = some (.mapping m, steps')) :
    m.Distinct := by
  induction depth generalizing m t steps steps' with
  | zero =>
    obtain ⟨depth, trees, steps₁, hdepth, -⟩ := Node.exists_of_ofTree?_mapping h
    cases hdepth
  | succ depth ih =>
    obtain ⟨depth', trees, steps₁, hdepth, hentries⟩ := Node.exists_of_ofTree?_mapping h
    cases hdepth
    refine distinct_of_forall_mem (Node.nodup_of_ofTree? h) fun e he es hes => ?_
    rcases Node.exists_child_of_entries? hentries he with hnone | ⟨t', before, after, hchild⟩
    · cases hnone
    · exact ih (hes ▸ hchild)

/-- A mapping that a text means has no keys twice. -/
theorem distinct_of_ofText? {text : String} (h : Node.ofText? text = some (.mapping m)) :
    m.Distinct := by
  obtain ⟨r, depth, t, steps, steps', hn⟩ := Node.exists_ofTree?_of_ofText? h
  exact distinct_of_ofTree? hn

/-- A mapping below a key is smaller. -/
theorem sizeOf_lt_of_get? (h : get? k m = some (.mapping nested)) : sizeOf nested < sizeOf m := by
  have hentry := List.sizeOf_lt_of_mem (mem_of_get? h)
  simp only [Prod.mk.sizeOf_spec, Node.mapping.sizeOf_spec] at hentry
  omega

/-- What holds of a document if it holds of the mappings below its keys holds of every document. -/
@[elab_as_elim]
theorem induction_below {P : Mapping → Prop}
    (step : ∀ m, (∀ k nested, get? k m = some (.mapping nested) → P nested) → P m) (m : Mapping) :
    P m :=
  step m fun _ nested _ => induction_below step nested
termination_by sizeOf m
decreasing_by exact sizeOf_lt_of_get? (by assumption)

/-! ## Merging -/

/-- The document `m` is `overlay` laid over `base`. A key that the overlay does not have keeps its
value, two mappings at one key are laid over one another in the same way, and in all other cases the
overlay's value counts. -/
inductive Overlaid : Mapping → Mapping → Mapping → Prop
  | of {base overlay m : Mapping} (absent : ∀ k, get? k overlay = none → get? k m = get? k base)
    (taken : ∀ k v, get? k overlay = some v →
      v.isMapping = false ∨ (∀ old, get? k base ≠ some (.mapping old)) → get? k m = some v)
    (met : ∀ k old new, get? k base = some (.mapping old) → get? k overlay = some (.mapping new) →
      (get? k m).any Node.isMapping)
    (below : ∀ k old new es, get? k base = some (.mapping old) →
      get? k overlay = some (.mapping new) → get? k m = some (.mapping es) → Overlaid old new es) :
    Overlaid base overlay m

/-- A value takes the place of what was there unless this is a mapping. -/
theorem laid_of_no_mapping {old : Option Node} (v : Node) (h : ∀ es, old ≠ some (.mapping es)) :
    laid old v = v := by
  unfold laid
  split
  · exact absurd rfl (h _)
  · rfl

/-- Merging lays the overlay over the base. -/
theorem overlaid_merge (h : overlay.Distinct) (base : Mapping) :
    Overlaid base overlay (merge base overlay) := by
  -- The induction follows the overlay, below which alone merging goes on.
  induction overlay using induction_below generalizing base with
  | step overlay ih =>
    have hmerge {k v : Node} (hv : get? k overlay = some v) :
        get? k (merge base overlay) = some (laid (get? k base) v) := by
      rw [get?_merge h.nodup, hv]
    refine .of (fun k hk => ?_) (fun k v hv htaken => ?_) (fun k old new hold hnew => ?_)
      (fun k old new es hold hnew hes => ?_)
    · rw [get?_merge h.nodup, hk]
    · rw [hmerge hv]
      rcases htaken with hnot | hnone
      · rw [laid_of_not_mapping _ hnot]
      · rw [laid_of_no_mapping v hnone]
    · rw [hmerge hnew, hold]
      rfl
    · rw [hmerge hnew, hold] at hes
      cases hes
      exact ih k new hnew (h.below hnew) old

/-- Merging changes nothing if all that it would set is there. -/
theorem merge_eq_self (h : ∀ k v, (k, v) ∈ overlay → ∃ w, get? k m = some w ∧ laid (some w) v = w) :
    merge m overlay = m := by
  induction overlay with
  | nil => rw [merge]
  | cons e overlay ih =>
    obtain ⟨k, v⟩ := e
    obtain ⟨w, hget, hlaid⟩ := h k v List.mem_cons_self
    rw [merge_cons, hget, hlaid, put_of_get? hget]
    exact ih fun k v hmem => h k v (List.mem_cons_of_mem _ hmem)

/-- Laying a document over itself changes nothing. -/
theorem merge_self (h : m.Distinct) : merge m m = m := by
  induction m using induction_below with
  | step m ih =>
    refine merge_eq_self fun k v hmem => ?_
    have hget := get?_of_mem h.nodup hmem
    refine ⟨v, hget, ?_⟩
    cases v with
    | mapping nested => rw [laid, ih k nested hget (h.below hget)]
    | null | bool | number | text | sequence | tagged => exact laid_of_not_mapping _ rfl

/-- Laying an overlay over a document for the second time changes nothing. -/
theorem merge_again (h : overlay.Distinct) (base : Mapping) :
    merge (merge base overlay) overlay = merge base overlay := by
  induction overlay using induction_below generalizing base with
  | step overlay ih =>
    refine merge_eq_self fun k v hmem => ?_
    have hget := get?_of_mem h.nodup hmem
    refine ⟨laid (get? k base) v, by rw [get?_merge h.nodup, hget], ?_⟩
    cases v with
    | mapping nested =>
      have hbelow := h.below hget
      -- The mapping was merged into one that was there, or it took the place of something else.
      by_cases hold : ∃ old, get? k base = some (.mapping old)
      · obtain ⟨old, hold⟩ := hold
        rw [hold, laid, laid, ih k nested hget hbelow]
      · rw [laid_of_no_mapping _ (not_exists.1 hold), laid, merge_self hbelow]
    | null | bool | number | text | sequence | tagged =>
      rw [laid_of_not_mapping _ rfl, laid_of_not_mapping _ rfl]

/-! ## Binding -/

/-- The document with one entry on each level that leads to a value. -/
def nest (value : Node) (segment : String) : List String → Mapping
  | [] => [(.text segment, value)]
  | next :: path => [(.text segment, .mapping (nest value next path))]

/-- Merging one entry sets what its value becomes. -/
theorem merge_singleton (m : Mapping) (k v : Node) :
    merge m [(k, v)] = put k (laid (get? k m) v) m := by
  rw [merge_cons, merge]

/-- A document with one entry on each level can be made by merging it. -/
theorem merge_nil_nest (value : Node) (segment : String) (path : List String) :
    merge [] (nest value segment path) = nest value segment path := by
  cases path <;> exact merge_singleton ..

/-- A mapping is laid over a value by merging it into the mapping that this is, or into a new
one. -/
theorem laid_mapping {old : Option Node} (h : merge [] nested = nested) :
    laid old (.mapping nested) = .mapping (merge (inner old) nested) := by
  cases old with
  | none =>
    rw [laid_of_no_mapping _ (by simp)]
    exact congrArg _ h.symm
  | some w =>
    cases w with
    | mapping es => rfl
    | null | bool | number | text | sequence | tagged =>
      rw [laid_of_no_mapping _ (by simp)]
      exact congrArg _ h.symm

/-- Merging the document that leads to a value is setting what the value becomes when it is laid
over the one at its place. -/
theorem setPath?_laid (value : Node) (h : m.Passable ((segment :: path).map .text)) :
    setPath? (laid (m.at? ((segment :: path).map .text)) value) m segment path =
      some (merge m (nest value segment path)) := by
  induction path generalizing m segment with
  | nil =>
    have hat : m.at? [.text segment] = get? (.text segment) m := Option.bind_fun_some _
    rw [setPath?_nil, nest, merge_singleton, List.map_singleton, hat]
  | cons next path ih =>
    -- Both go on in the mapping below the key, or in an empty one if there is no mapping.
    have hat : m.at? ((segment :: next :: path).map .text) =
        (inner (get? (.text segment) m)).at? ((next :: path).map .text) :=
      (at?_inner _ (List.cons_ne_nil _ _)).symm
    rw [setPath?_cons, if_neg h.first, hat, ih h.rest, nest, merge_singleton,
      laid_mapping (merge_nil_nest ..)]
    rfl

end Mapping

namespace Binding

variable {b b' : Binding} {text : String}

/-- The document that the key of a binding describes, with the value of the binding. -/
def document (b : Binding) : Mapping :=
  Mapping.nest b.value b.segment b.path

/-- A text that spells a binding is not malformed. -/
theorem Spelled.not_malformed (h : b.Spelled text) : ¬ Malformed text := by
  rw [← ofText?_eq_none_iff, ofText?_eq_some_iff.2 h]
  exact nofun

/-- A text spells one binding at most. -/
theorem Spelled.unique (h : b.Spelled text) (h' : b'.Spelled text) : b = b' :=
  Option.some.inj ((ofText?_eq_some_iff.2 h).symm.trans (ofText?_eq_some_iff.2 h'))

end Binding

namespace Mapping

/-! ## Main result -/

variable {m m' base overlay : Mapping} {text : String} {b : Binding}

/-- What comes of a binding that turns a document `m` into `m'`, compared with merging the document
that its key describes. -/
structure Merges (b : Binding) (m m' : Mapping) : Prop where
  /-- A value that is no mapping is set as merging sets it. -/
  scalar : b.value.isMapping = false → m' = merge m b.document
  /-- A mapping replaces what was at its place, and nothing changes apart from it. -/
  replaced : ∀ new, b.value = .mapping new →
    m'.at? b.place = some (.mapping new) ∧ ∀ p, Apart p b.place → m'.at? p = m.at? p
  /-- Merging would have merged it into a mapping that was there. -/
  met : ∀ old new, m.at? b.place = some (.mapping old) → b.value = .mapping new →
    (merge m b.document).at? b.place = some (.mapping (merge old new))
  /-- If there was none, merging does the same. -/
  alone : (∀ old, m.at? b.place ≠ some (.mapping old)) → m' = merge m b.document

/-- A binding that is applied sets its value as merging does, unless two mappings meet. -/
theorem merges_of_setPath? (hm : m.Untagged)
    (hset : setPath? b.value m b.segment b.path = some m') : Merges b m m' := by
  have hlaid : setPath? (laid (m.at? b.place) b.value) m b.segment b.path =
      some (merge m b.document) :=
    setPath?_laid b.value (hm.passable b.place)
  have hfound {value : Node} {m' : Mapping} (h : setPath? value m b.segment b.path = some m') :
      m'.at? b.place = some value := by
    have hfound := (sets_of_setPath? h).found []
    rwa [List.append_nil] at hfound
  refine ⟨fun hscalar => ?_, fun new hnew => ⟨?_, ?_⟩, fun old new hold hnew => ?_,
    fun halone => ?_⟩
  · rw [laid_of_not_mapping _ hscalar, hset] at hlaid
    exact Option.some.inj hlaid
  · rw [hfound hset, hnew]
  · exact (sets_of_setPath? hset).frame
  · rw [hfound hlaid, hold, hnew, laid]
  · rw [laid_of_no_mapping _ halone, hset] at hlaid
    exact Option.some.inj hlaid

/-- Merging files and applying bindings are one language of updates. Merging gives each key the
value that the overlay has there; two mappings are merged in turn, and keys that the overlay does
not have keep their values. Merging the same overlay again changes nothing. In a document without
tags every well-formed binding is applied, and gives what merging the document that its key
describes gives; only a mapping replaces another one at its place, where merging would have merged
the two. -/
theorem one_update_language (hoverlay : overlay.Distinct) (base : Mapping) :
    Overlaid base overlay (merge base overlay) ∧
      merge (merge base overlay) overlay = merge base overlay ∧
      ∀ (m : Mapping) text, m.Untagged → ¬ Binding.Malformed text →
        ∃ b m', b.Spelled text ∧ m.applyBinding text = (.ok (), m') ∧ Merges b m m' := by
  refine ⟨overlaid_merge hoverlay base, merge_again hoverlay base, fun m text hm htext => ?_⟩
  obtain ⟨b, hb⟩ := Option.ne_none_iff_exists'.1 (mt Binding.ofText?_eq_none_iff.1 htext)
  have hspelled := Binding.ofText?_eq_some_iff.1 hb
  obtain ⟨m', happlied, hset⟩ := exists_applyBinding hspelled (hm.passable b.place)
  exact ⟨b, m', hspelled, happlied, merges_of_setPath? hm hset⟩

namespace Sample

/-- A binding of a mapping to a key of the document that holds a mapping. -/
def replacing : Binding :=
  ⟨"a", [], .mapping [(.text "c", .null)]⟩

/-- The text spells the binding. -/
theorem spelled_replacing : replacing.Spelled "a=\x7bc: ~\x7d" := by
  refine Binding.ofText?_eq_some_iff.1 ?_
  decide +kernel

end Sample

/-- A mapping is merged twice from a text, and then it replaces the one that is there. -/
theorem one_update_language_of_mapping :
    ∃ overlay m', Node.ofText? "a: \x7bc: ~\x7d" = some (.mapping overlay) ∧
      merge (merge Sample.document overlay) overlay = merge Sample.document overlay ∧
      Sample.document.applyBinding "a=\x7bc: ~\x7d" = (.ok (), m') ∧
      m'.at? [.text "a"] = some (.mapping [(.text "c", .null)]) ∧
      (merge Sample.document overlay).at? [.text "a"] =
        some (.mapping [(.text "b", .bool true), (.text "d", .null), (.text "c", .null)]) := by
  have hread : Node.ofText? "a: \x7bc: ~\x7d" = some (.mapping Sample.replacing.document) := by
    decide +kernel
  obtain ⟨-, hagain, hbind⟩ := one_update_language (distinct_of_ofText? hread) Sample.document
  obtain ⟨b, m', hspelled, happlied, hmerges⟩ :=
    hbind _ _ Sample.untagged_document Sample.spelled_replacing.not_malformed
  obtain rfl := hspelled.unique Sample.spelled_replacing
  have hmerged : merge [(.text "b", .bool true), (.text "d", .null)] [(.text "c", .null)] =
      [(.text "b", .bool true), (.text "d", .null), (.text "c", .null)] := by
    decide
  refine ⟨_, m', hread, hagain, happlied, (hmerges.replaced _ rfl).1, ?_⟩
  rw [← hmerged]
  exact hmerges.met _ _ rfl rfl

end Mapping

end TraceGen
