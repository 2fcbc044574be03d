import Mathlib.Data.List.Nodup
import TraceGen.Yaml.Document

/-!
# The keys of a mapping that was read

No two entries of a mapping that is the meaning of a text have the same key
(`Node.nodup_of_ofText?`). So what such a mapping says about a key does not depend on the order of
its entries.
-/

namespace TraceGen.Yaml.Node

variable {child : Tree → Nat → Option (Node × Nat)} {es result : List (Node × Node)}

/-- Entries that are read keep the keys different. -/
theorem nodup_of_entries? {done : List (Node × Node)} {trees : List (Tree × Tree)}
    {steps steps' : Nat} (h : entries? child done trees steps = some (result, steps'))
    (hdone : (done.map (·.1)).Nodup) : (result.map (·.1)).Nodup := by
  induction trees generalizing done steps with
  | nil =>
    cases h
    exact hdone
  | cons tree trees ih =>
    obtain ⟨k, v⟩ := tree
    rw [entries?, Option.bind_eq_bind, Option.bind_eq_some_iff] at h
    obtain ⟨⟨key, steps₁⟩, -, h⟩ := h
    dsimp only at h
    split at h
    · cases h
    · rename_i hnew
      obtain ⟨⟨value, steps₂⟩, -, h⟩ := Option.bind_eq_some_iff.1 h
      -- The key is not among those that are there.
      refine ih h ?_
      rw [List.map_append, List.map_singleton, List.nodup_append]
      refine ⟨hdone, List.nodup_singleton _, ?_⟩
      rintro a ha b hb rfl
      obtain ⟨e, he, rfl⟩ := List.mem_map.1 ha
      rw [List.mem_singleton] at hb
      exact hnew (List.any_eq_true.2 ⟨e, he, decide_eq_true hb⟩)

/-- The values of entries that are read are meanings of nodes. -/
theorem exists_child_of_entries? {done : List (Node × Node)} {trees : List (Tree × Tree)}
    {steps steps' : Nat} (h : entries? child done trees steps = some (result, steps'))
    {e : Node × Node} (he : e ∈ result) :
    e ∈ done ∨ ∃ t before after, child t before = some (e.2, after) := by
  induction trees generalizing done steps with
  | nil =>
    cases h
    exact .inl he
  | cons tree trees ih =>
    obtain ⟨k, v⟩ := tree
    rw [entries?, Option.bind_eq_bind, Option.bind_eq_some_iff] at h
    obtain ⟨⟨key, steps₁⟩, -, h⟩ := h
    dsimp only at h
    split at h
    · cases h
    · obtain ⟨⟨value, steps₂⟩, hvalue, h⟩ := Option.bind_eq_some_iff.1 h
      rcases ih h with hdone | hchild
      · rcases List.mem_append.1 hdone with hdone | hnew
        · exact .inl hdone
        · rw [List.mem_singleton.1 hnew]
          exact .inr ⟨v, steps₁, steps₂, hvalue⟩
      · exact .inr hchild

/-- A plain scalar is no mapping. -/
theorem ofPlain?_ne_mapping (s : String) : ofPlain? s ≠ some (.mapping es) := by
  unfold ofPlain?
  split
  · nofun
  · split
    · nofun
    · split
      · rw [Ne, Option.map_eq_some_iff]
        rintro ⟨n, -, ⟨⟩⟩
      · split
        · nofun
        · split <;> nofun

/-- A scalar under a tag of the language is no mapping. -/
theorem ofStandardTag?_ne_mapping (name s : String) :
    ofStandardTag? name s ≠ some (.mapping es) := by
  intro h
  unfold ofStandardTag? at h
  split at h
  · obtain ⟨b, -, ⟨⟩⟩ := Option.map_eq_some_iff.1 h
  · obtain ⟨n, -, h⟩ := Option.bind_eq_some_iff.1 h
    obtain ⟨k, -, ⟨⟩⟩ := Option.map_eq_some_iff.1 h
  · obtain ⟨x, -, h⟩ := Option.map_eq_some_iff.1 h
    cases h
  · split at h <;> cases h
  · cases h

/-- A tag is put in front or left out. -/
theorem withTag?_eq_some {tag : Option String} {n m : Node} (h : withTag? tag n = some m) :
    m = n ∨ ∃ name, m = .tagged name n := by
  unfold withTag? at h
  split at h
  · exact .inl (Option.some.inj h).symm
  · cases h
  · exact .inr ⟨_, (Option.some.inj h).symm⟩

/-- A scalar is no mapping. -/
theorem ofScalar?_ne_mapping (p : Properties) (s : String) (isPlain : Bool) :
    ofScalar? p s isPlain ≠ some (.mapping es) := by
  have huntagged : (if isPlain then ofPlain? s else some (.text s)) ≠ some (.mapping es) := by
    split
    · exact ofPlain?_ne_mapping s
    · nofun
  intro h
  unfold ofScalar? at h
  dsimp only at h
  split at h
  · exact huntagged h
  · split at h
    · obtain ⟨n, hn, h⟩ := Option.bind_eq_some_iff.1 h
      rcases withTag?_eq_some h with rfl | ⟨name, h⟩
      · exact huntagged hn
      · cases h
    · split at h
      · exact ofStandardTag?_ne_mapping _ _ h
      · cases h

/-- A mapping that a node means is read entry by entry, one level further down. -/
theorem exists_of_ofTree?_mapping {r : References} {depth : Nat} {t : Tree} {steps steps' : Nat}
    (h : ofTree? r depth t steps = some (.mapping es, steps')) :
    ∃ depth' trees steps₁, depth = depth' + 1 ∧
      entries? (ofTree? r depth') [] trees steps₁ = some (es, steps') := by
  have hscalar {p : Properties} {s : String} {isPlain : Bool} {steps : Nat} :
      ((ofScalar? p s isPlain).bind fun n => some (n, steps)) ≠ some (.mapping es, steps') := by
    intro h
    obtain ⟨n, hn, h⟩ := Option.bind_eq_some_iff.1 h
    cases h
    exact ofScalar?_ne_mapping p s isPlain hn
  cases depth with
  | zero =>
    obtain ⟨⟨t, steps⟩, -, h⟩ := Option.bind_eq_some_iff.1 h
    split at h
    · exact absurd h hscalar
    · cases h
  | succ depth =>
    obtain ⟨⟨t, steps⟩, -, h⟩ := Option.bind_eq_some_iff.1 h
    split at h
    · cases h
    · exact absurd h hscalar
    · -- A sequence stays one behind a tag.
      obtain ⟨⟨ns, steps⟩, -, h⟩ := Option.bind_eq_some_iff.1 h
      obtain ⟨n, hn, h⟩ := Option.bind_eq_some_iff.1 h
      cases h
      rcases withTag?_eq_some hn with hn | ⟨name, hn⟩ <;> cases hn
    · obtain ⟨⟨done, steps⟩, hentries, h⟩ := Option.bind_eq_some_iff.1 h
      obtain ⟨n, hn, h⟩ := Option.bind_eq_some_iff.1 h
      cases h
      rcases withTag?_eq_some hn with hn | ⟨name, hn⟩
      · cases hn
        exact ⟨depth, _, _, rfl, hentries⟩
      · cases hn

/-- A mapping that a node means has different keys. -/
theorem nodup_of_ofTree? {r : References} {depth : Nat} {t : Tree} {steps steps' : Nat}
    (h : ofTree? r depth t steps = some (.mapping es, steps')) : (es.map (·.1)).Nodup := by
  obtain ⟨depth, trees, steps₁, rfl, hentries⟩ := exists_of_ofTree?_mapping h
  exact nodup_of_entries? hentries List.nodup_nil

/-- A mapping that a text means is what a node means. -/
theorem exists_ofTree?_of_ofText? {text : String} (h : ofText? text = some (.mapping es)) :
    ∃ r depth t steps steps', ofTree? r depth t steps = some (.mapping es, steps') := by
  obtain ⟨document, -, h⟩ := Option.bind_eq_some_iff.1 h
  cases document with
  | none => cases h
  | some t =>
    obtain ⟨⟨numbered, known⟩, -, h⟩ := Option.bind_eq_some_iff.1 h
    obtain ⟨⟨n, steps⟩, hn, h⟩ := Option.bind_eq_some_iff.1 h
    cases h
    exact ⟨_, _, _, _, _, hn⟩

/-- A mapping that a text means has different keys. -/
theorem nodup_of_ofText? {text : String} (h : ofText? text = some (.mapping es)) :
    (es.map (·.1)).Nodup := by
  obtain ⟨r, depth, t, steps, steps', hn⟩ := exists_ofTree?_of_ofText? h
  exact nodup_of_ofTree? hn

end TraceGen.Yaml.Node
