import TraceGen.Proofs.Training.Lookup
import TraceGen.Proofs.Training.Retaining
import TraceGen.Training.Log

/-!
# Trajectories of a training log

The trajectory of each entry of a training log is an object whose fields stand in order
(`TrainingLog.ordered_of_parse`), so that one of its fields can be set without touching the others.
-/

namespace TraceGen

namespace Json.Value

/-- An object whose fields stand in order. -/
def Ordered (value : Value) : Prop :=
  ∃ fields, value = .object fields ∧ Entries.Sorted fields

/-- Reading members keeps the fields in order. -/
theorem sorted_of_ofMembers? {depth : Nat} {members : List (List Nat × Document)}
    {fields fields' : List (String × Value)} (hfields : Entries.Sorted fields)
    (h : ofMembers? depth fields members = some fields') : Entries.Sorted fields' := by
  induction members generalizing fields with
  | nil =>
    rw [ofMembers?] at h
    exact Option.some.inj h ▸ hfields
  | cons member members ih =>
    obtain ⟨points, document⟩ := member
    rw [ofMembers?] at h
    obtain ⟨name, -, h⟩ := Option.bind_eq_some_iff.1 h
    obtain ⟨value, -, h⟩ := Option.bind_eq_some_iff.1 h
    exact ih (Entries.sorted_put hfields) h

/-- The fields of an object that was read stand in order. -/
theorem ordered_of_ofDocument? {depth : Nat} {document : Document} {value : Value}
    (h : ofDocument? depth document = some value) (hobject : value.isObject = true) :
    value.Ordered := by
  cases value with
  | null | bool | number | string | array => cases hobject
  | object fields =>
    refine ⟨fields, rfl, ?_⟩
    cases document with
    | object members =>
      rw [ofDocument?] at h
      split at h
      · cases h
      · obtain ⟨fields', hfields, heq⟩ := Option.map_eq_some_iff.1 h
        obtain rfl := object.inj heq
        exact sorted_of_ofMembers? List.Pairwise.nil hfields
    | null | bool | number | string => simp [ofDocument?] at h
    | array items =>
      rw [ofDocument?] at h
      split at h <;> simp at h

end Json.Value

namespace TrainingLog

/-- The trajectory of an entry that was read is an object whose fields stand in order. -/
theorem ordered_of_readLine {number : Nat} {line : List Char} {entry : LogEntry}
    (h : readLine number line = .ok (some entry)) : entry.measurement.trajectory.Ordered := by
  unfold readLine at h
  dsimp only at h
  split at h
  · cases h
  · split at h
    · cases h
    · rename_i found hfound
      split at h
      · rename_i hobject
        obtain rfl : found = entry := Option.some.inj (Except.ok.inj h)
        -- The trajectory is what some part of the line means.
        unfold LogEntry.ofText? at hfound
        obtain ⟨document, -, hfound⟩ := Option.bind_eq_some_iff.1 hfound
        obtain ⟨fields, -, hfound⟩ := Option.bind_eq_some_iff.1 hfound
        split at hfound
        · obtain ⟨key, -, hfound⟩ := Option.bind_eq_some_iff.1 hfound
          obtain ⟨reward, -, hfound⟩ := Option.bind_eq_some_iff.1 hfound
          obtain ⟨trajectory, htrajectory, hfound⟩ := Option.bind_eq_some_iff.1 hfound
          obtain rfl := Option.some.inj hfound
          exact Json.Value.ordered_of_ofDocument? htrajectory hobject
        · cases hfound
      · cases h

/-- Reading lines keeps the trajectories objects whose fields stand in order. -/
theorem ordered_of_readLines {number : Nat} {lines : List (List Char)}
    {entries log : KeyMap Measurement}
    (hentries : ∀ k m, entries.get? k = some m → m.trajectory.Ordered)
    (h : readLines number entries lines = .ok log) :
    ∀ k m, log.get? k = some m → m.trajectory.Ordered := by
  induction lines generalizing number entries with
  | nil =>
    obtain rfl := Except.ok.inj h
    exact hentries
  | cons line lines ih =>
    rw [readLines] at h
    obtain ⟨found, hfound, h⟩ := Except.bind_eq_ok_iff.1 h
    cases found with
    | none => exact ih hentries h
    | some entry =>
      refine ih (fun k m hm => ?_) h
      rw [KeyMap.get?_insert] at hm
      split at hm
      · obtain rfl := Option.some.inj hm
        exact ordered_of_readLine hfound
      · exact hentries k m hm

/-- The trajectories of a training log are objects whose fields stand in order. -/
theorem ordered_of_parse {text : String} {log : KeyMap Measurement} (h : parse text = .ok log)
    {k : String} {m : Measurement} (hm : log.get? k = some m) : m.trajectory.Ordered :=
  ordered_of_readLines (fun _ _ hnone => by cases hnone) h k m hm

end TrainingLog

end TraceGen
