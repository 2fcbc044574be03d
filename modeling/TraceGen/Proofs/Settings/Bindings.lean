import TraceGen.Proofs.Settings.Places

/-!
# Bindings are exact updates

The text of a binding is malformed (`Binding.Malformed`), or it spells a binding
(`Binding.Spelled`). `Mapping.applyBinding` applies it in place: the walk to its place makes a
mapping wherever there is none, and stops at a tagged mapping. It stops only where nothing has been
made yet (`Mapping.assign_eq`), so that a binding that fails leaves no trace, and loading settings
applies bindings in this way (`Settings.applyBindings_cons`).

`Mapping.applyBinding_exact` says what comes of a binding in a document without tags.
-/

namespace TraceGen

open Yaml (Node)

/-! ## Texts of bindings -/

namespace Text

variable {c : Char} {text before after : List Char}

/-- A text is cut at its first character or behind it. -/
theorem cutAt_cons (c x : Char) (text : List Char) :
    cutAt c (x :: text) =
      if x = c then some ([], text) else (cutAt c text).map fun cut => (x :: cut.1, cut.2) := by
  unfold cutAt
  by_cases hx : x = c
  · rw [if_pos hx, List.dropWhile_cons_of_neg (by simpa using hx),
      List.takeWhile_cons_of_neg (by simpa using hx)]
  · rw [if_neg hx, List.dropWhile_cons_of_pos (by simpa using hx),
      List.takeWhile_cons_of_pos (by simpa using hx)]
    split <;> rfl

/-- A text cannot be cut at a character that it does not have. -/
theorem cutAt_eq_none_iff : cutAt c text = none ↔ c ∉ text := by
  induction text with
  | nil => exact ⟨fun _ => List.not_mem_nil, fun _ => rfl⟩
  | cons x text ih =>
    rw [cutAt_cons, List.mem_cons, not_or, ← ih]
    by_cases hx : x = c
    · rw [if_pos hx]
      exact ⟨nofun, fun h => absurd hx.symm h.1⟩
    · rw [if_neg hx, Option.map_eq_none_iff]
      exact ⟨fun h => ⟨Ne.symm hx, h⟩, fun h => h.2⟩

/-- A text is cut where the character stands for the first time. -/
theorem cutAt_eq_some_iff :
    cutAt c text = some (before, after) ↔ text = before ++ c :: after ∧ c ∉ before := by
  induction text generalizing before with
  | nil => exact ⟨nofun, fun h => by simpa using h.1⟩
  | cons x text ih =>
    rw [cutAt_cons]
    by_cases hx : x = c
    · subst hx
      rw [if_pos rfl]
      constructor
      · rintro ⟨⟩
        exact ⟨rfl, List.not_mem_nil⟩
      · rintro ⟨htext, hbefore⟩
        cases before with
        | nil => rw [List.nil_append] at htext; cases htext; rfl
        | cons y before =>
          cases htext
          exact absurd List.mem_cons_self hbefore
    · rw [if_neg hx, Option.map_eq_some_iff]
      constructor
      · rintro ⟨⟨front, rest⟩, hcut, heq⟩
        cases heq
        obtain ⟨rfl, hfront⟩ := ih.1 hcut
        exact ⟨rfl, fun hmem => (List.mem_cons.1 hmem).elim (Ne.symm hx) hfront⟩
      · rintro ⟨htext, hbefore⟩
        cases before with
        | nil => cases htext; exact absurd rfl hx
        | cons y before =>
          cases htext
          exact ⟨_, ih.2 ⟨rfl, fun hmem => hbefore (List.mem_cons_of_mem _ hmem)⟩, rfl⟩

end Text

namespace Mapping

variable {key : List Char} {segment : String} {path : List String}

/-- A key has no path if one of its pieces between dots is empty. -/
theorem keyPath?_eq_none_iff : keyPath? key = none ↔ [] ∈ key.splitOn '.' := by
  -- There is at least one piece, and so a first segment.
  have hpieces : (key.splitOn '.').map String.ofList ≠ [] := by
    rw [Ne, List.map_eq_nil_iff, List.splitOn_eq_splitOnP]
    exact List.splitOnP_ne_nil _ _
  unfold keyPath?
  dsimp only
  split
  · rename_i hany
    obtain ⟨piece, hpiece, hempty⟩ := List.any_eq_true.1 hany
    rw [List.isEmpty_iff.1 hempty] at hpiece
    exact ⟨fun _ => hpiece, fun _ => rfl⟩
  · rename_i hany
    constructor
    · intro h
      split at h
      · exact absurd (by assumption) hpieces
      · cases h
    · exact fun hmem => absurd (List.any_eq_true.2 ⟨[], hmem, rfl⟩) hany

/-- The path of a key consists of its pieces between dots if none of them is empty. -/
theorem keyPath?_eq_some_iff :
    keyPath? key = some (segment, path) ↔
      key.splitOn '.' = (segment :: path).map String.toList ∧ [] ∉ key.splitOn '.' := by
  constructor
  · intro h
    have hfull : [] ∉ key.splitOn '.' := by
      rw [← keyPath?_eq_none_iff, h]
      exact nofun
    unfold keyPath? at h
    dsimp only at h
    split at h
    · cases h
    · split at h
      · cases h
      · rename_i hmap
        cases h
        refine ⟨?_, hfull⟩
        rw [← hmap, List.map_map]
        exact (List.map_id' _).symm.trans (List.map_congr_left fun s _ => String.toList_ofList.symm)
  · rintro ⟨hpieces, hfull⟩
    have hmap : (key.splitOn '.').map String.ofList = segment :: path := by
      rw [hpieces, List.map_map]
      exact (List.map_congr_left fun s _ => String.ofList_toList).trans (List.map_id' _)
    have hany : ¬ (key.splitOn '.').any List.isEmpty = true := by
      rw [List.any_eq_true]
      rintro ⟨piece, hpiece, hempty⟩
      exact hfull (List.isEmpty_iff.1 hempty ▸ hpiece)
    unfold keyPath?
    rw [if_neg hany, hmap]

end Mapping

namespace Binding

variable {b : Binding} {text : String} {key value : List Char}

/-- The place that a binding sets. -/
def place (b : Binding) : List Node :=
  (b.segment :: b.path).map .text

/-- The text of a binding is not of the form `key=value`. -/
inductive Malformed (text : String) : Prop
  /-- There is no equals sign. -/
  | noEquals (h : '=' ∉ text.toList)
  /-- There is nothing but blanks in front of the first one. -/
  | emptyKey (key value : List Char) (htext : text.toList = key ++ '=' :: value) (hkey : '=' ∉ key)
      (h : Text.trim key = [])
  /-- A piece of the key between dots is empty. -/
  | emptySegment (key value : List Char) (htext : text.toList = key ++ '=' :: value)
      (hkey : '=' ∉ key) (h : [] ∈ (Text.trim key).splitOn '.')
  /-- What stands behind the equals sign is not YAML. -/
  | invalidValue (key value : List Char) (htext : text.toList = key ++ '=' :: value)
      (hkey : '=' ∉ key) (h : Node.ofText? (String.ofList (Text.trim value)) = none)

/-- A text spells a binding: the key, of which the segments are the pieces between dots, an equals
sign and the value. -/
inductive Spelled (b : Binding) (text : String) : Prop
  | of (key value : List Char) (htext : text.toList = key ++ '=' :: value) (hkey : '=' ∉ key)
      (hsegments : (Text.trim key).splitOn '.' = (b.segment :: b.path).map String.toList)
      (hfull : [] ∉ (Text.trim key).splitOn '.')
      (hvalue : Node.ofText? (String.ofList (Text.trim value)) = some b.value)

/-- A binding is read from what stands on both sides of the first equals sign. -/
theorem ofText?_of_cut (htext : text.toList = key ++ '=' :: value) (hkey : '=' ∉ key) :
    ofText? text = (Mapping.keyPath? (Text.trim key)).bind fun place =>
      (Node.ofText? (String.ofList (Text.trim value))).map fun v => ⟨place.1, place.2, v⟩ := by
  unfold ofText?
  rw [Text.cutAt_eq_some_iff.2 ⟨htext, hkey⟩]
  simp only [Option.bind_eq_bind, Option.bind_some]
  cases Mapping.keyPath? (Text.trim key) with
  | none => rfl
  | some place => cases Node.ofText? (String.ofList (Text.trim value)) <;> rfl

/-- A binding is read from the texts that spell it. -/
theorem ofText?_eq_some_iff : ofText? text = some b ↔ b.Spelled text := by
  constructor
  · intro h
    cases hcut : Text.cutAt '=' text.toList with
    | none =>
      unfold ofText? at h
      rw [hcut] at h
      cases h
    | some cut =>
      obtain ⟨htext, hkey⟩ := Text.cutAt_eq_some_iff.1 hcut
      rw [ofText?_of_cut htext hkey] at h
      obtain ⟨⟨segment, path⟩, hpath, h⟩ := Option.bind_eq_some_iff.1 h
      obtain ⟨v, hvalue, rfl⟩ := Option.map_eq_some_iff.1 h
      obtain ⟨hsegments, hfull⟩ := Mapping.keyPath?_eq_some_iff.1 hpath
      exact ⟨_, _, htext, hkey, hsegments, hfull, hvalue⟩
  · rintro ⟨key, value, htext, hkey, hsegments, hfull, hvalue⟩
    rw [ofText?_of_cut htext hkey, Mapping.keyPath?_eq_some_iff.2 ⟨hsegments, hfull⟩, hvalue]
    rfl

/-- No binding is read exactly from malformed texts. -/
theorem ofText?_eq_none_iff : ofText? text = none ↔ Malformed text := by
  constructor
  · intro h
    cases hcut : Text.cutAt '=' text.toList with
    | none => exact .noEquals (Text.cutAt_eq_none_iff.1 hcut)
    | some cut =>
      obtain ⟨htext, hkey⟩ := Text.cutAt_eq_some_iff.1 hcut
      rw [ofText?_of_cut htext hkey] at h
      cases hpath : Mapping.keyPath? (Text.trim cut.1) with
      | none => exact .emptySegment _ _ htext hkey (Mapping.keyPath?_eq_none_iff.1 hpath)
      | some place =>
        rw [hpath, Option.bind_some, Option.map_eq_none_iff] at h
        exact .invalidValue _ _ htext hkey h
  · rintro (h | ⟨key, value, htext, hkey, h⟩ | ⟨key, value, htext, hkey, h⟩ |
      ⟨key, value, htext, hkey, h⟩)
    · unfold ofText?
      rw [Text.cutAt_eq_none_iff.2 h]
      rfl
    · rw [ofText?_of_cut htext hkey, h]
      rfl
    · rw [ofText?_of_cut htext hkey, Mapping.keyPath?_eq_none_iff.2 h]
      rfl
    · rw [ofText?_of_cut htext hkey, h]
      cases Mapping.keyPath? (Text.trim key) <;> rfl

end Binding

/-! ## Bindings in place -/

namespace Mapping

variable {m m' : Mapping} {value : Node} {segment : String} {path : List String} {text : String}

/-- What stands at a key when the walk goes on there. Something else than a mapping, with or without
tags, gives way to a new mapping. -/
def opened (old : Option Node) : Node :=
  match old with
  | none => .mapping []
  | some node => if node.isMapping || isTaggedMapping node then node else .mapping []

/-- Walks to a place and sets the value there, in place: whether the place was reached, and the
document as it is then. -/
def assign (value : Node) (m : Mapping) (segment : String) : List String → Bool × Mapping
  | [] => (true, put (.text segment) value m)
  | next :: path =>
    match opened (get? (.text segment) m) with
    | .mapping nested =>
      let (reached, nested) := assign value nested next path
      (reached, put (.text segment) (.mapping nested) m)
    | node => (false, put (.text segment) node m)

/-- Applies the text of a binding in place. -/
def applyBinding (m : Mapping) (text : String) : Except SettingsError Unit × Mapping :=
  match Binding.ofText? text with
  | none => (.error (.invalidBinding text), m)
  | some b =>
    match assign b.value m b.segment b.path with
    | (true, m) => (.ok (), m)
    | (false, m) => (.error (.invalidBinding text), m)

/-- Without a tagged mapping the walk goes on in the mapping that is there, or in a new one. -/
theorem opened_eq (old : Option Node) (h : ¬ old.any isTaggedMapping = true) :
    opened old = .mapping (inner old) := by
  cases old with
  | none => rfl
  | some node =>
    rw [Option.any_some, Bool.not_eq_true] at h
    rw [opened, h, Bool.or_false]
    cases node <;> rfl

/-- In a new mapping every place can be reached. -/
theorem passable_nil (place : List Node) : Passable [] place := by
  intro p v _ _ hv
  cases p with
  | nil => cases hv; rfl
  | cons k p => cases hv

/-- The walk does what `setPath?` does. If it does not reach its place, it leaves the document as it
was: only mappings that were there lie before a tagged one. -/
theorem assign_eq (value : Node) (m : Mapping) (segment : String) (path : List String) :
    assign value m segment path =
      match setPath? value m segment path with
      | some m' => (true, m')
      | none => (false, m) := by
  induction path generalizing m segment with
  | nil => rw [assign, setPath?_nil]
  | cons next path ih =>
    rw [assign, setPath?_cons]
    by_cases htagged : (get? (.text segment) m).any isTaggedMapping = true
    · obtain ⟨node, hget, hnode⟩ := (Option.any_eq_true _ _).1 htagged
      have hopened : opened (some node) = node := by
        rw [opened, hnode, Bool.or_true, if_pos rfl]
      rw [if_pos htagged, hget, hopened]
      cases node with
      | tagged =>
        dsimp only
        rw [put_of_get? hget]
      | null | bool | number | text | sequence | mapping => cases hnode
    · rw [if_neg htagged, opened_eq _ htagged]
      dsimp only
      rw [ih]
      cases hset : setPath? value (inner (get? (.text segment) m)) next path with
      | some nested => rfl
      | none =>
        -- The walk was stopped further on, so that it has not entered a new mapping here.
        have hget : get? (.text segment) m = some (.mapping (inner (get? (.text segment) m))) := by
          by_contra hne
          have hnew : inner (get? (.text segment) m) = [] := by
            cases hold : get? (.text segment) m with
            | none => rfl
            | some node =>
              rw [hold] at hne
              cases node with
              | mapping => exact absurd rfl hne
              | null | bool | number | text | sequence | tagged => rfl
          obtain ⟨nested, hnested⟩ := exists_setPath? value
            (passable_nil ((next :: path).map .text))
          rw [hnew, hnested] at hset
          cases hset
        rw [Option.map_none, put_of_get? hget]

/-- Applying a binding in place gives what `bind?` gives, and leaves a document as it was if there
is nothing to give. -/
theorem applyBinding_eq (m : Mapping) (text : String) :
    m.applyBinding text =
      match m.bind? text with
      | some m' => (.ok (), m')
      | none => (.error (.invalidBinding text), m) := by
  rw [applyBinding, Binding.bind?_eq]
  cases Binding.ofText? text with
  | none => rfl
  | some b =>
    rw [Option.bind_some, Binding.applyTo?]
    dsimp only
    rw [assign_eq]
    cases setPath? b.value m b.segment b.path <;> rfl

end Mapping

/-- Bindings are applied one after the other until one of them fails. -/
theorem Settings.applyBindings_cons (m : Mapping) (text : String) (texts : List String) :
    applyBindings m (text :: texts) =
      match m.applyBinding text with
      | (.ok _, m') => applyBindings m' texts
      | (.error e, _) => .error e := by
  rw [applyBindings, Mapping.applyBinding_eq]
  cases m.bind? text <;> rfl

namespace Mapping

/-! ## Main result -/

variable {m m' : Mapping} {text : String} {b : Binding}

/-- A binding is applied by setting its value if its place can be reached. -/
theorem exists_applyBinding (hb : b.Spelled text) (h : m.Passable b.place) :
    ∃ m', m.applyBinding text = (.ok (), m') ∧ setPath? b.value m b.segment b.path = some m' := by
  obtain ⟨m', hset⟩ := exists_setPath? b.value h
  refine ⟨m', ?_, hset⟩
  rw [applyBinding_eq, Binding.bind?_eq, Binding.ofText?_eq_some_iff.2 hb, Option.bind_some,
    Binding.applyTo?, hset]

/-- What comes of the text of a binding that turns a document `m` into `m'`. -/
structure ExactUpdate (b : Binding) (text : String) (m m' : Mapping) : Prop where
  /-- The text spells the binding. -/
  spelled : b.Spelled text
  /-- The binding is applied. -/
  applied : m.applyBinding text = (.ok (), m')
  /-- Exactly its value is found at its place. -/
  found : m'.at? b.place = some b.value
  /-- Nothing changes at places that are apart from it. -/
  frame : ∀ p, Apart p b.place → m'.at? p = m.at? p
  /-- Applying it again changes nothing. -/
  again : m'.applyBinding text = (.ok (), m')
  /-- Before or after a binding whose place is apart from its own, it gives the same document. -/
  either : ∀ other (b' : Binding), b'.Spelled other → Apart b.place b'.place →
    ∃ m₂ m₁₂ m₂₁, m'.applyBinding other = (.ok (), m₁₂) ∧
      m.applyBinding other = (.ok (), m₂) ∧ m₂.applyBinding text = (.ok (), m₂₁) ∧ m₁₂.Same m₂₁

/-- A text that spells a binding is an exact update of every document without tags. -/
theorem exists_exactUpdate (hm : m.Untagged) (hb : b.Spelled text) :
    ∃ m', ExactUpdate b text m m' := by
  obtain ⟨m', happlied, hset⟩ := exists_applyBinding hb (hm.passable b.place)
  have hsets : Sets b.place b.value m m' := sets_of_setPath? hset
  refine ⟨m', hb, happlied, ?_, hsets.frame, ?_, fun other b' hb' hapart => ?_⟩
  · have hfound := hsets.found []
    rwa [List.append_nil] at hfound
  · rw [applyBinding_eq, Binding.bind?_eq, Binding.ofText?_eq_some_iff.2 hb, Option.bind_some,
      Binding.applyTo?, setPath?_again hset]
  · obtain ⟨m₂, happlied₂, hset₂⟩ := exists_applyBinding hb' (hm.passable b'.place)
    have hsets₂ : Sets b'.place b'.value m m₂ := sets_of_setPath? hset₂
    obtain ⟨m₁₂, happlied₁₂, hset₁₂⟩ :=
      exists_applyBinding hb' (hsets.passable hapart (hm.passable b'.place))
    obtain ⟨m₂₁, happlied₂₁, hset₂₁⟩ :=
      exists_applyBinding hb (hsets₂.passable hapart.symm (hm.passable b.place))
    exact ⟨m₂, m₁₂, m₂₁, happlied₁₂, happlied₂, happlied₂₁,
      hsets.comm hsets₂ (sets_of_setPath? hset₁₂) (sets_of_setPath? hset₂₁) hapart⟩

/-- Applying a binding to a document without tags is an exact update, or fails and leaves the
document as it was. It fails exactly if the text has no equals sign, if the key is empty or has an
empty piece between dots, or if the value is not YAML. Loading settings applies bindings in this
way. -/
theorem applyBinding_exact (hm : m.Untagged) (text : String) :
    (Binding.Malformed text ↔ ∃ e, (m.applyBinding text).1 = .error e) ∧
      (Binding.Malformed text → m.applyBinding text = (.error (.invalidBinding text), m)) ∧
      (¬ Binding.Malformed text → ∃ b m', ExactUpdate b text m m') ∧
      ∀ texts, Settings.applyBindings m (text :: texts) =
        match m.applyBinding text with
        | (.ok _, m') => Settings.applyBindings m' texts
        | (.error e, _) => .error e := by
  have hbad (h : Binding.Malformed text) :
      m.applyBinding text = (.error (.invalidBinding text), m) := by
    rw [applyBinding, Binding.ofText?_eq_none_iff.2 h]
  have hgood (h : ¬ Binding.Malformed text) : ∃ b m', ExactUpdate b text m m' := by
    obtain ⟨b, hb⟩ := Option.ne_none_iff_exists'.1 (mt Binding.ofText?_eq_none_iff.1 h)
    exact ⟨b, exists_exactUpdate hm (Binding.ofText?_eq_some_iff.1 hb)⟩
  refine ⟨⟨fun h => ⟨_, congrArg Prod.fst (hbad h)⟩, fun ⟨e, he⟩ => ?_⟩, hbad, hgood,
    Settings.applyBindings_cons m text⟩
  by_contra h
  obtain ⟨b, m', hupdate⟩ := hgood h
  rw [hupdate.applied] at he
  cases he

namespace Sample

/-- A document with a scalar where a binding needs a mapping. -/
def document : Mapping :=
  [(.text "a", .mapping [(.text "b", .bool true), (.text "d", .null)])]

/-- The document has no tags. -/
theorem untagged_document : document.Untagged := by
  refine untagged_of_forall_mem (List.forall_mem_singleton.2 ⟨rfl, ?_⟩)
  rintro es ⟨⟩
  refine untagged_of_forall_mem (List.forall_mem_cons.2 ⟨⟨rfl, nofun⟩, ?_⟩)
  exact List.forall_mem_singleton.2 ⟨rfl, nofun⟩

/-- The text spells a binding that leads through the scalar. -/
theorem spelled_through : Binding.Spelled ⟨"a", ["b", "c"], .number (.natural 1)⟩ "a.b.c = 1" := by
  refine Binding.ofText?_eq_some_iff.1 ?_
  decide +kernel

end Sample

/-- The scalar gives way to a mapping, and what stands beside it stays. -/
theorem applyBinding_exact_of_scalar :
    ∃ m', Sample.document.applyBinding "a.b.c = 1" = (.ok (), m') ∧
      m'.at? [.text "a", .text "b", .text "c"] = some (.number (.natural 1)) ∧
      m'.at? [.text "a", .text "d"] = some .null := by
  obtain ⟨-, -, hgood, -⟩ := applyBinding_exact Sample.untagged_document "a.b.c = 1"
  have hnot : ¬ Binding.Malformed "a.b.c = 1" := by
    rw [← Binding.ofText?_eq_none_iff, Binding.ofText?_eq_some_iff.2 Sample.spelled_through]
    exact nofun
  obtain ⟨b, m', hupdate⟩ := hgood hnot
  have hb := (Binding.ofText?_eq_some_iff.2 hupdate.spelled).symm.trans
    (Binding.ofText?_eq_some_iff.2 Sample.spelled_through)
  obtain rfl := Option.some.inj hb
  refine ⟨m', hupdate.applied, hupdate.found, hupdate.frame _ ⟨?_, ?_⟩⟩
  · decide
  · decide

end Mapping

end TraceGen
