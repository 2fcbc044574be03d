import TraceGen.Proofs.Settings.Loading
import TraceGen.Proofs.Settings.Overlaying

/-!
# Places of a document

A place is a list of keys, each of which leads into the mapping at the one before it
(`Mapping.at?`). Two places are apart if neither lies at or below the other. Setting a value at a
place is told by what is found afterwards at every place (`Mapping.Sets`), and this is all that
`Mapping.setPath?` does (`Mapping.sets_of_setPath?`).

So two documents are the same, as maps, if the same is found in them at every place
(`Mapping.Same`); `Mapping.same_iff` says this by recursion. Values can be set at places that are
apart in either order (`Mapping.Sets.comm`).
-/

namespace TraceGen

open Yaml (Node)

/-! ## Looking up -/

/-- The value at a place below a value. -/
def Yaml.Node.at? : List Node → Node → Option Node
  | [], v => some v
  | k :: place, .mapping es => (Mapping.get? k es).bind (at? place)
  | _ :: _, _ => none

namespace Mapping

variable {m m' m₁ m₂ m₁₂ m₂₁ : Mapping} {k value w : Node} {p q place : List Node}
  {segment : String} {path : List String}

/-- The value at a place of a document. -/
def at? (m : Mapping) (place : List Node) : Option Node :=
  Node.at? place (.mapping m)

/-- A place begins with a key of the document. -/
theorem at?_cons (m : Mapping) (k : Node) (place : List Node) :
    m.at? (k :: place) = (get? k m).bind (Node.at? place) :=
  rfl

/-- Below a key stands what stands in the mapping there. -/
theorem at?_inner (old : Option Node) (h : place ≠ []) :
    (inner old).at? place = old.bind (Node.at? place) := by
  obtain ⟨k, place, rfl⟩ := List.exists_cons_of_ne_nil h
  cases old with
  | none => rfl
  | some v => cases v <;> rfl

/-! ## Places that are apart -/

/-- Neither of two places lies at or below the other. -/
def Apart (p q : List Node) : Prop :=
  ¬ p <+: q ∧ ¬ q <+: p

/-- Places that are apart are so in either order. -/
theorem Apart.symm (h : Apart p q) : Apart q p :=
  ⟨h.2, h.1⟩

/-- A place lies at or below another one, above it, or apart from it. -/
theorem below_or_above_or_apart (p q : List Node) :
    q <+: p ∨ p <+: q ∧ p ≠ q ∨ Apart p q := by
  by_cases hbelow : q <+: p
  · exact .inl hbelow
  · by_cases habove : p <+: q
    · exact .inr (.inl ⟨habove, fun heq => hbelow (heq ▸ List.prefix_rfl)⟩)
    · exact .inr (.inr ⟨habove, hbelow⟩)

/-! ## Setting a value -/

/-- A document `m'` differs from `m` by the value that was set at a place. -/
structure Sets (place : List Node) (value : Node) (m m' : Mapping) : Prop where
  /-- The value stands at the place. -/
  found : ∀ rest, m'.at? (place ++ rest) = Node.at? rest value
  /-- Mappings stand above it. -/
  passed : ∀ p, p <+: place → p ≠ place → ∃ es, m'.at? p = some (.mapping es)
  /-- Apart from it everything is as before. -/
  frame : ∀ p, Apart p place → m'.at? p = m.at? p

/-- A value is set below a key by setting an entry there that holds it, and otherwise what stood
there before. -/
theorem Sets.of_put {v : Node} (hfound : ∀ rest, Node.at? (place ++ rest) v = Node.at? rest value)
    (hpassed : ∀ p, p <+: place → p ≠ place → ∃ es, Node.at? p v = some (.mapping es))
    (hframe : ∀ p, Apart p place → Node.at? p v = (get? k m).bind (Node.at? p)) :
    Sets (k :: place) value m (put k v m) := by
  have hbelow (p : List Node) : (put k v m).at? (k :: p) = Node.at? p v := by
    rw [at?_cons, get?_put, if_pos rfl, Option.bind_some]
  refine ⟨fun rest => (hbelow _).trans (hfound rest), fun p hp hne => ?_, fun p hp => ?_⟩
  · cases p with
    | nil => exact ⟨_, rfl⟩
    | cons l p =>
      obtain ⟨rfl, hrest⟩ := List.cons_prefix_cons.1 hp
      rw [hbelow]
      exact hpassed p hrest fun heq => hne (heq ▸ rfl)
  · cases p with
    | nil => exact absurd List.nil_prefix hp.1
    | cons l p =>
      by_cases hl : k = l
      · subst hl
        rw [hbelow]
        exact hframe p ⟨fun hpre => hp.1 (List.cons_prefix_cons.2 ⟨rfl, hpre⟩),
          fun hpre => hp.2 (List.cons_prefix_cons.2 ⟨rfl, hpre⟩)⟩
      · rw [at?_cons, at?_cons, get?_put, if_neg hl]

/-- Setting an entry sets the value at its key. -/
theorem Sets.single (k value : Node) (m : Mapping) : Sets [k] value m (put k value m) :=
  .of_put (fun _ => rfl) (fun _ hp hne => absurd (List.prefix_nil.1 hp) hne)
    (fun _ hp => absurd List.nil_prefix hp.2)

/-- Setting a value in the mapping at a key sets it below this key. -/
theorem Sets.cons (h : Sets place value (inner (get? k m)) m') :
    Sets (k :: place) value m (put k (.mapping m') m) := by
  refine .of_put h.found h.passed fun p hp => ?_
  have hne : p ≠ [] := fun hnil => hp.1 (hnil ▸ List.nil_prefix)
  rw [← at?_inner (get? k m) hne]
  exact h.frame p hp

/-- Setting a path sets the value at its place. -/
theorem sets_of_setPath? (h : setPath? value m segment path = some m') :
    Sets ((segment :: path).map .text) value m m' := by
  induction path generalizing m m' segment with
  | nil =>
    rw [setPath?_nil] at h
    cases h
    exact .single ..
  | cons next path ih =>
    obtain ⟨nested, hnested, rfl⟩ := exists_of_setPath?_cons h
    exact .cons (ih hnested)

/-- What stands at a key can be set there. -/
theorem put_of_get? (h : get? k m = some value) : put k value m = m := by
  induction m with
  | nil => cases h
  | cons e m ih =>
    obtain ⟨l, v⟩ := e
    rw [get?] at h
    rw [put]
    split at h
    · rename_i hl
      rw [if_pos hl, Option.some.inj h]
    · rename_i hl
      rw [if_neg hl, ih h]

/-- Setting a path again changes nothing. -/
theorem setPath?_again (h : setPath? value m segment path = some m') :
    setPath? value m' segment path = some m' := by
  induction path generalizing m m' segment with
  | nil =>
    rw [setPath?_nil] at h
    cases h
    have hget : get? (.text segment) (put (.text segment) value m) = some value := by
      rw [get?_put, if_pos rfl]
    rw [setPath?_nil, put_of_get? hget]
  | cons next path ih =>
    obtain ⟨nested, hnested, rfl⟩ := exists_of_setPath?_cons h
    have hget : get? (.text segment) (put (.text segment) (.mapping nested) m) =
        some (.mapping nested) := by
      rw [get?_put, if_pos rfl]
    -- The mapping that was put there is entered, and in it nothing changes.
    have hinner : setPath? value (inner (some (.mapping nested))) next path = some nested :=
      ih hnested
    rw [setPath?_cons, hget, hinner, Option.map_some, put_of_get? hget]
    rfl

/-! ## Tags -/

/-- No place of a document holds a value with a tag. -/
def Untagged (m : Mapping) : Prop :=
  ∀ place v, m.at? place = some v → v.isTagged = false

/-- No tagged mapping stands above a place. -/
def Passable (m : Mapping) (place : List Node) : Prop :=
  ∀ p v, p <+: place → p ≠ place → m.at? p = some v → isTaggedMapping v = false

/-- What stands at a key is an entry. -/
theorem mem_of_get? (h : get? k m = some value) : (k, value) ∈ m := by
  induction m with
  | nil => cases h
  | cons e m ih =>
    obtain ⟨l, v⟩ := e
    rw [get?] at h
    split at h
    · rename_i hl
      rw [hl, Option.some.inj h]
      exact List.mem_cons_self
    · exact List.mem_cons_of_mem _ (ih h)

/-- A document has no tags if its entries have none, and none below them. -/
theorem untagged_of_forall_mem
    (h : ∀ e ∈ m, e.2.isTagged = false ∧ ∀ es, e.2 = .mapping es → Untagged es) :
    m.Untagged := by
  intro place v hv
  cases place with
  | nil =>
    cases hv
    rfl
  | cons k place =>
    obtain ⟨w, hw, hv⟩ := Option.bind_eq_some_iff.1 hv
    obtain ⟨hfree, hbelow⟩ := h _ (mem_of_get? hw)
    cases w with
    | mapping es => exact hbelow es rfl place v hv
    | tagged => cases hfree
    | null | bool | number | text | sequence =>
      cases place with
      | nil =>
        cases hv
        rfl
      | cons l place => cases hv

/-- A value without a tag is no tagged mapping. -/
theorem isTaggedMapping_eq_false {v : Node} (h : v.isTagged = false) :
    isTaggedMapping v = false := by
  cases v with
  | tagged => cases h
  | null | bool | number | text | sequence | mapping => rfl

/-- Without tags every place can be reached. -/
theorem Untagged.passable (h : m.Untagged) (place : List Node) : m.Passable place :=
  fun p v _ _ hv => isTaggedMapping_eq_false (h p v hv)

/-- A place can be reached after a value was set apart from it. -/
theorem Sets.passable (h : Sets p value m m') (hapart : Apart p q) (hq : m.Passable q) :
    m'.Passable q := by
  intro r v hr hne hv
  rcases below_or_above_or_apart r p with hbelow | ⟨habove, hne'⟩ | hr'
  · exact absurd (hbelow.trans hr) hapart.1
  · obtain ⟨es, hes⟩ := h.passed r habove hne'
    cases hes.symm.trans hv
    rfl
  · exact hq r v hr hne ((h.frame r hr').symm.trans hv)

/-- No tagged mapping stands at the first key of a place that goes on. -/
theorem Passable.first {next : String}
    (h : m.Passable ((segment :: next :: path).map .text)) :
    ¬ (get? (.text segment) m).any isTaggedMapping = true := by
  rw [Option.any_eq_true]
  rintro ⟨v, hv, htagged⟩
  have hstep : m.at? [.text segment] = some v := by
    rw [at?_cons, hv]
    rfl
  have hfree := h _ v (List.cons_prefix_cons.2 ⟨rfl, List.nil_prefix⟩) (by simp) hstep
  rw [hfree] at htagged
  cases htagged

/-- The rest of a place can be reached in the mapping at its first key. -/
theorem Passable.rest {next : String}
    (h : m.Passable ((segment :: next :: path).map .text)) :
    (inner (get? (.text segment) m)).Passable ((next :: path).map .text) := by
  -- What stands above the rest of the place stands above the place.
  intro p v hp hne hv
  by_cases hnil : p = []
  · subst hnil
    cases hv
    rfl
  · rw [at?_inner _ hnil] at hv
    exact h (.text segment :: p) v (List.cons_prefix_cons.2 ⟨rfl, hp⟩)
      (fun heq => hne (List.cons.inj heq).2) hv

/-- A path is set if its place can be reached. -/
theorem exists_setPath? (value : Node) (h : m.Passable ((segment :: path).map .text)) :
    ∃ m', setPath? value m segment path = some m' := by
  induction path generalizing m segment with
  | nil => exact ⟨_, setPath?_nil ..⟩
  | cons next path ih =>
    obtain ⟨nested, hnested⟩ := ih h.rest
    rw [setPath?_cons, if_neg h.first, hnested]
    exact ⟨_, rfl⟩

/-! ## Documents as maps -/

/-- Two documents are the same as maps: at every place both hold nothing, or the same value, or a
mapping. -/
def Same (m m' : Mapping) : Prop :=
  ∀ place, Option.Rel Node.Alike (m.at? place) (m'.at? place)

/-- Two values are alike if they are the same. -/
theorem rel_of_eq {x y : Option Node} (h : x = y) : Option.Rel Node.Alike x y := by
  subst h
  cases x with
  | none => exact .none
  | some v => exact .some (.inl rfl)

/-- Two values are alike if they are mappings. -/
theorem rel_of_mappings {x y : Option Node} (hx : ∃ es, x = some (.mapping es))
    (hy : ∃ es, y = some (.mapping es)) : Option.Rel Node.Alike x y := by
  obtain ⟨es, rfl⟩ := hx
  obtain ⟨es', rfl⟩ := hy
  exact .some (.inr ⟨rfl, rfl⟩)

/-- Documents are the same as maps if they hold the same values at the same keys, where values are
also the same that are mappings and the same as maps. -/
theorem same_iff :
    m.Same m' ↔ ∀ k, Option.Rel
      (fun v w => v = w ∨ ∃ es es', v = .mapping es ∧ w = .mapping es' ∧ Same es es')
      (get? k m) (get? k m') := by
  constructor
  · intro h k
    have hkey := h [k]
    have hbelow := fun p => h (k :: p)
    simp only [at?_cons] at hkey hbelow
    cases hv : get? k m with
    | none =>
      cases hw : get? k m' with
      | none => exact .none
      | some w => rw [hv, hw] at hkey; cases hkey
    | some v =>
      cases hw : get? k m' with
      | none => rw [hv, hw] at hkey; cases hkey
      | some w =>
        rw [hv, hw] at hkey hbelow
        rcases hkey with ⟨heq | ⟨hmap, hmap'⟩⟩ | _
        · exact .some (.inl heq)
        · obtain ⟨es, rfl⟩ := Node.exists_of_isMapping hmap
          obtain ⟨es', rfl⟩ := Node.exists_of_isMapping hmap'
          exact .some (.inr ⟨es, es', rfl, rfl, hbelow⟩)
  · intro h place
    cases place with
    | nil => exact .some (.inr ⟨rfl, rfl⟩)
    | cons k place =>
      rw [at?_cons, at?_cons]
      have hkey := h k
      generalize get? k m = x at hkey ⊢
      generalize get? k m' = y at hkey ⊢
      rcases hkey with ⟨rfl | ⟨es, es', rfl, rfl, hsame⟩⟩ | _
      · exact rel_of_eq rfl
      · exact hsame place
      · exact .none

/-- Values can be set at places that are apart in either order. -/
theorem Sets.comm (h₁ : Sets p value m m₁) (h₂ : Sets q w m m₂) (h₁₂ : Sets q w m₁ m₁₂)
    (h₂₁ : Sets p value m₂ m₂₁) (hapart : Apart p q) : Same m₁₂ m₂₁ := by
  intro r
  rcases below_or_above_or_apart r p with ⟨rest, rfl⟩ | ⟨hr, hne⟩ | hr
  · -- Below `p` stands what was set there, and this is apart from `q`.
    have hq : Apart (p ++ rest) q := by
      refine ⟨fun hpre => hapart.1 ((List.prefix_append p rest).trans hpre), fun hpre => ?_⟩
      rcases List.prefix_or_prefix_of_prefix hpre (List.prefix_append p rest) with hqp | hpq
      · exact hapart.2 hqp
      · exact hapart.1 hpq
    rw [h₁₂.frame _ hq, h₁.found, h₂₁.found]
    exact rel_of_eq rfl
  · -- Above `p` stands a mapping.
    refine rel_of_mappings ?_ (h₂₁.passed r hr hne)
    rcases below_or_above_or_apart r q with hrq | ⟨hrq, hne'⟩ | hrq
    · exact absurd (hrq.trans hr) hapart.2
    · exact h₁₂.passed r hrq hne'
    · rw [h₁₂.frame r hrq]
      exact h₁.passed r hr hne
  · rw [h₂₁.frame r hr]
    rcases below_or_above_or_apart r q with ⟨rest, rfl⟩ | ⟨hrq, hne⟩ | hrq
    · rw [h₁₂.found, h₂.found]
      exact rel_of_eq rfl
    · exact rel_of_mappings (h₁₂.passed r hrq hne) (h₂.passed r hrq hne)
    · rw [h₁₂.frame r hrq, h₁.frame r hr, h₂.frame r hrq]
      exact rel_of_eq rfl

end Mapping

end TraceGen
