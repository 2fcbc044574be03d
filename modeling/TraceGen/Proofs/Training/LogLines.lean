import TraceGen.Proofs.Training.Lookup
import TraceGen.Text.Substitute
import TraceGen.Training.Log

/-!
# Training logs line by line

A line of a training log can be read if it is blank or holds an entry. `TrainingLog.Reading` says
what comes of some lines: if all of them can be read, each key has the measurement of its last
entry, and else the first line that cannot be read is named with its number.

Lines behind others are read like these alone, on top of the others and with higher numbers
(`TrainingLog.readLines_both`), and only what is left of them after trimming matters
(`TrainingLog.readLines_congr`). An empty line at the end adds nothing, so a log is read piece after
piece between its newlines (`TrainingLog.parse_eq`). `TrainingLog.parse_by_lines` is what follows
for texts.
-/

namespace TraceGen

/-! ## Entries set one after the other -/

namespace Entries

variable {α : Type}

/-- The value of the last entry with a key. -/
def last? (k : String) (es : List (String × α)) : Option α :=
  ((es.filter fun e => e.1 = k).getLast?).map (·.2)

/-- The last entry of two lists stands in the second one, if that has one with the key. -/
theorem last?_append (k : String) (es es' : List (String × α)) :
    last? k (es ++ es') = (last? k es').or (last? k es) := by
  unfold last?
  rw [List.filter_append, List.getLast?_append, Option.map_or]

/-- The last of a single entry. -/
theorem last?_singleton (k : String) (e : String × α) :
    last? k [e] = if e.1 = k then some e.2 else none := by
  unfold last?
  by_cases h : e.1 = k
  · rw [if_pos h, List.filter_cons, if_pos (decide_eq_true h)]
    rfl
  · rw [if_neg h, List.filter_cons, if_neg fun hk => h (of_decide_eq_true hk)]
    rfl

/-- In sorted entries the last entry with a key is the only one. -/
theorem last?_eq_find? {k : String} {es : List (String × α)} (h : Sorted es) :
    last? k es = find? k es := by
  induction es with
  | nil => rfl
  | cons e es ih =>
    obtain ⟨a, w⟩ := e
    have hrest := ih (List.pairwise_cons.1 h).2
    rw [← List.singleton_append, last?_append, last?_singleton, hrest, List.singleton_append, find?]
    by_cases ha : a = k
    · have hnone : find? k es = none :=
        find?_eq_none_iff.2 (ha ▸ (List.nodup_cons.1 h.nodup).1)
      rw [if_pos ha, if_pos ha, hnone, Option.none_or]
    · rw [if_neg ha, if_neg ha, Option.or_none]

end Entries

namespace KeyMap

variable {α : Type}

/-- Sets entries one after the other. -/
def insertAll (m : KeyMap α) (es : List (String × α)) : KeyMap α :=
  es.foldl (fun m e => m.insert e.1 e.2) m

/-- Lays the entries of a map over those of another one. -/
def overlay (m upper : KeyMap α) : KeyMap α :=
  m.insertAll upper.entries

/-- After entries were set the last one with a key is found, and without one what was there. -/
theorem get?_insertAll (m : KeyMap α) (es : List (String × α)) (k : String) :
    (m.insertAll es).get? k = (Entries.last? k es).or (m.get? k) := by
  induction es generalizing m with
  | nil => rfl
  | cons e es ih =>
    have hsplit : m.insertAll (e :: es) = (m.insert e.1 e.2).insertAll es := rfl
    rw [hsplit, ih, get?_insert, ← List.singleton_append, Entries.last?_append,
      Entries.last?_singleton, Option.or_assoc]
    by_cases hk : e.1 = k
    · rw [if_pos hk, if_pos hk.symm, Option.some_or]
    · rw [if_neg hk, if_neg (Ne.symm hk), Option.none_or]

/-- Where the upper map holds nothing the lower one is seen. -/
theorem get?_overlay (m upper : KeyMap α) (k : String) :
    (m.overlay upper).get? k = (upper.get? k).or (m.get? k) := by
  unfold overlay
  rw [get?_insertAll, Entries.last?_eq_find? upper.sorted]
  rfl

/-- The map of a list has its entries set one after the other. -/
theorem insertAll_empty (es : List (String × α)) : empty.insertAll es = ofList es :=
  rfl

/-- The map of a list holds at a key what the last entry says. -/
theorem get?_ofList (es : List (String × α)) (k : String) :
    (ofList es).get? k = Entries.last? k es := by
  rw [← insertAll_empty, get?_insertAll]
  exact Option.or_none

/-- Two maps that hold the same at each key are equal. -/
theorem eq_of_get?_eq {m m' : KeyMap α} (h : ∀ k, m.get? k = m'.get? k) : m = m' := by
  refine ext_entries (entries_eq_of_mem_iff m'.sorted fun k v => ?_)
  rw [h, mem_entries_iff]

/-- The map of two lists is that of the second one over that of the first one. -/
theorem ofList_append (es es' : List (String × α)) :
    ofList (es ++ es') = (ofList es).overlay (ofList es') := by
  refine eq_of_get?_eq fun k => ?_
  rw [get?_overlay, get?_ofList, get?_ofList, get?_ofList, Entries.last?_append]

end KeyMap

/-! ## Carriage returns -/

namespace Text

/-- A carriage return at the end is trimmed. -/
theorem trim_append_return (cs : List Char) : trim (cs ++ ['\r']) = trim cs := by
  have hreturn : isBlank '\r' = true := by decide
  unfold trim trimFront dropBack
  rw [List.dropWhile_append]
  split
  · rename_i hblank
    rw [List.isEmpty_iff.1 hblank, List.dropWhile_cons_of_pos hreturn]
    rfl
  · rw [List.reverse_append, List.reverse_singleton, List.singleton_append,
      List.dropWhile_cons_of_pos hreturn]

/-- Where each newline gets a carriage return, each piece but the last one gets it at its end. -/
theorem forall₂_splitOn_replaceFrom (cs : List Char) :
    List.Forall₂ (fun piece piece' => piece = piece' ∨ piece = piece' ++ ['\r'])
      ((replaceFrom ['\n'] ['\r', '\n'] 0 cs).splitOn '\n') (cs.splitOn '\n') := by
  induction cs with
  | nil => exact .cons (.inl rfl) .nil
  | cons c cs ih =>
    rw [replaceFrom]
    by_cases hc : c = '\n'
    · subst hc
      exact .cons (.inr rfl) ih
    · have hnot : ¬ ['\n'].isPrefixOf (c :: cs) = true := by
        rw [List.isPrefixOf_iff_prefix, List.cons_prefix_cons]
        exact fun h => hc h.1.symm
      have hne : ¬ (c == '\n') = true := fun h => hc (beq_iff_eq.1 h)
      rw [if_neg hnot, List.splitOn_cons_eq_if_modifyHead, if_neg hne,
        List.splitOn_cons_eq_if_modifyHead, if_neg hne]
      -- The character comes to the front of the first piece on both sides.
      generalize (replaceFrom ['\n'] ['\r', '\n'] 0 cs).splitOn '\n' = pieces at ih ⊢
      generalize cs.splitOn '\n' = pieces' at ih ⊢
      cases ih with
      | nil => exact .nil
      | cons hpiece hrest =>
        refine .cons ?_ hrest
        rcases hpiece with rfl | rfl
        · exact .inl rfl
        · exact .inr rfl

/-- Pieces that differ in carriage returns at their ends are the same when trimmed. -/
theorem map_trim_eq {pieces pieces' : List (List Char)}
    (h : List.Forall₂ (fun piece piece' => piece = piece' ∨ piece = piece' ++ ['\r'])
      pieces pieces') : pieces.map trim = pieces'.map trim := by
  induction h with
  | nil => rfl
  | cons hpiece _ ih =>
    rw [List.map_cons, List.map_cons, ih]
    rcases hpiece with rfl | rfl
    · rfl
    · rw [trim_append_return]

end Text

/-- The same error in a text behind some lines. -/
def LogError.later (count : Nat) : LogError → LogError
  | .badEntry line => .badEntry (line + count)
  | .notObject line key => .notObject (line + count) key
  | .unreadable => .unreadable

namespace TrainingLog

variable {lines before after others : List (List Char)} {line : List Char} {number : Nat}
  {m : KeyMap Measurement}

/-! ## One line -/

/-- The key and the measurement of a line that is not blank and holds an entry whose trajectory is
an object. -/
def entry? (line : List Char) : Option (String × Measurement) :=
  if Text.trim line = [] then none
  else (LogEntry.ofText? (String.ofList (Text.trim line))).bind fun e =>
    if e.measurement.trajectory.isObject then some (e.key, e.measurement) else none

/-- A line is blank or holds an entry. -/
def Readable (line : List Char) : Prop :=
  Text.trim line = [] ∨ ∃ e, entry? line = some e

/-- What is wrong with a line that cannot be read: it is no entry, or the trajectory of the entry is
no object. -/
def fault (number : Nat) (line : List Char) : LogError :=
  match LogEntry.ofText? (String.ofList (Text.trim line)) with
  | none => .badEntry number
  | some entry => .notObject number entry.key

/-- A fault behind some lines. -/
theorem later_fault (count number : Nat) (line : List Char) :
    (fault number line).later count = fault (number + count) line := by
  unfold fault
  split <;> rfl

/-- A line that can be read gives its entry, if it has one, and any other one its fault. -/
theorem readLine_cases (number : Nat) (line : List Char) :
    (Text.trim line = [] ∧ readLine number line = .ok none) ∨
      (∃ e : LogEntry, entry? line = some (e.key, e.measurement) ∧
        readLine number line = .ok (some e)) ∨
      (¬ Readable line ∧ readLine number line = .error (fault number line)) := by
  unfold Readable entry? fault readLine
  by_cases hblank : Text.trim line = []
  · exact .inl ⟨hblank, by rw [hblank]; rfl⟩
  · have hsome : ¬ (Text.trim line).isEmpty = true := fun h => hblank (List.isEmpty_iff.1 h)
    dsimp only
    simp only [if_neg hsome, hblank, false_or, false_and]
    cases LogEntry.ofText? (String.ofList (Text.trim line)) with
    | none =>
      refine .inr ⟨?_, rfl⟩
      rintro ⟨e, ⟨⟩⟩
    | some e =>
      simp only [Option.bind_some]
      by_cases hobject : e.measurement.trajectory.isObject = true
      · rw [if_pos hobject, if_pos hobject]
        exact .inl ⟨e, rfl, rfl⟩
      · rw [if_neg hobject, if_neg hobject]
        refine .inr ⟨?_, rfl⟩
        rintro ⟨e, ⟨⟩⟩

/-! ## Lines one after the other -/

/-- The entries of lines in order. -/
def entries (lines : List (List Char)) : List (String × Measurement) :=
  lines.filterMap entry?

/-- Reading goes on behind lines that can be read. -/
theorem readLines_append (hbefore : ∀ l ∈ before, Readable l) :
    readLines number m (before ++ after) =
      readLines (number + before.length) (m.insertAll (entries before)) after := by
  induction before generalizing number m with
  | nil => rfl
  | cons line before ih =>
    obtain ⟨hline, hbefore⟩ := List.forall_mem_cons.1 hbefore
    rw [List.cons_append, readLines, List.length_cons, entries, List.filterMap_cons]
    rcases readLine_cases number line with ⟨hblank, hread⟩ | ⟨e, hentry, hread⟩ | ⟨hbad, -⟩
    · have hnone : entry? line = none := if_pos hblank
      rw [hread, hnone]
      show readLines (number + 1) m (before ++ after) = _
      rw [ih hbefore, Nat.add_assoc, Nat.add_comm 1]
      rfl
    · rw [hread, hentry]
      show readLines (number + 1) (m.insert e.key e.measurement) (before ++ after) = _
      rw [ih hbefore, Nat.add_assoc, Nat.add_comm 1]
      rfl
    · exact absurd hline hbad

/-- Lines can all be read, or one is the first that cannot. -/
theorem readable_or_bad (lines : List (List Char)) :
    (∀ l ∈ lines, Readable l) ∨
      ∃ before line after, lines = before ++ line :: after ∧ (∀ l ∈ before, Readable l) ∧
        ¬ Readable line := by
  induction lines with
  | nil => exact .inl (List.forall_mem_nil _)
  | cons line lines ih =>
    by_cases hline : Readable line
    · rcases ih with hlines | ⟨before, bad, after, rfl, hbefore, hbad⟩
      · exact .inl (List.forall_mem_cons.2 ⟨hline, hlines⟩)
      · exact .inr ⟨line :: before, bad, after, rfl, List.forall_mem_cons.2 ⟨hline, hbefore⟩, hbad⟩
    · exact .inr ⟨[], line, lines, rfl, List.forall_mem_nil _, hline⟩

/-- Lines that can all be read give their entries. -/
theorem readLines_whole (hlines : ∀ l ∈ lines, Readable l) :
    readLines number m lines = .ok (m.insertAll (entries lines)) := by
  rw [← List.append_nil lines, readLines_append hlines, List.append_nil]
  rfl

/-- The first line that cannot be read gives its fault. -/
theorem readLines_bad (hbefore : ∀ l ∈ before, Readable l) (hline : ¬ Readable line) :
    readLines number m (before ++ line :: after) =
      .error (fault (number + before.length) line) := by
  rw [readLines_append hbefore, readLines]
  rcases readLine_cases (number + before.length) line with ⟨hblank, -⟩ | ⟨e, hentry, -⟩ | ⟨-, hread⟩
  · exact absurd (.inl hblank) hline
  · exact absurd (.inr ⟨_, hentry⟩) hline
  · rw [hread]
    rfl

/-- What comes of reading lines. -/
inductive Reading (lines : List (List Char)) : Except LogError (KeyMap Measurement) → Prop
  /-- All lines can be read, and a key has the measurement of its last entry. -/
  | whole (m : KeyMap Measurement) (hlines : ∀ line ∈ lines, Readable line)
      (hlast : ∀ k, m.get? k = Entries.last? k (entries lines)) : Reading lines (.ok m)
  /-- A line cannot be read and all before it can; it is named with its number. -/
  | bad (before : List (List Char)) (line : List Char) (after : List (List Char))
      (hsplit : lines = before ++ line :: after) (hbefore : ∀ l ∈ before, Readable l)
      (hline : ¬ Readable line) : Reading lines (.error (fault (before.length + 1) line))

/-- Lines are read in this way. -/
theorem reading_readLines (lines : List (List Char)) :
    Reading lines (readLines 1 KeyMap.empty lines) := by
  rcases readable_or_bad lines with hlines | ⟨before, line, after, rfl, hbefore, hline⟩
  · rw [readLines_whole hlines, KeyMap.insertAll_empty]
    exact .whole _ hlines (KeyMap.get?_ofList _)
  · rw [readLines_bad hbefore hline, Nat.add_comm]
    exact .bad before line after rfl hbefore hline

/-- Lines can be read exactly if each of them can. -/
theorem Reading.exists_iff {result : Except LogError (KeyMap Measurement)}
    (h : Reading lines result) : (∃ m, result = .ok m) ↔ ∀ line ∈ lines, Readable line := by
  cases h with
  | whole m hlines => exact ⟨fun _ => hlines, fun _ => ⟨m, rfl⟩⟩
  | bad before line after hsplit _ hline =>
    refine ⟨nofun, fun h => absurd (h line ?_) hline⟩
    rw [hsplit]
    exact List.mem_append_right before List.mem_cons_self

/-- Lines behind others are read on top of these, and have higher numbers. -/
theorem readLines_both (lines others : List (List Char)) :
    readLines 1 KeyMap.empty (lines ++ others) = (do
      let m ← readLines 1 KeyMap.empty lines
      let m' ← (readLines 1 KeyMap.empty others).mapError (LogError.later lines.length)
      return m.overlay m') := by
  rcases readable_or_bad lines with hlines | ⟨before, line, after, rfl, hbefore, hline⟩
  · rw [readLines_append hlines, readLines_whole hlines]
    rcases readable_or_bad others with hothers | ⟨before, line, after, rfl, hbefore, hline⟩
    · rw [readLines_whole hothers, readLines_whole hothers, KeyMap.insertAll_empty,
        KeyMap.insertAll_empty]
      have hboth := KeyMap.ofList_append (entries lines) (entries others)
      refine congrArg Except.ok (Eq.trans ?_ hboth)
      exact List.foldl_append.symm
    · rw [readLines_bad hbefore hline, readLines_bad hbefore hline]
      show _ = Except.error ((fault (1 + before.length) line).later lines.length)
      rw [later_fault, Nat.add_right_comm]
  · rw [List.append_assoc, List.cons_append, readLines_bad hbefore hline,
      readLines_bad hbefore hline]
    rfl

/-- Only the trimmed lines matter. -/
theorem readLines_congr {others : List (List Char)}
    (h : lines.map Text.trim = others.map Text.trim) :
    readLines number m lines = readLines number m others := by
  induction lines generalizing others number m with
  | nil =>
    rw [List.map_eq_nil_iff.1 h.symm]
  | cons line lines ih =>
    obtain ⟨other, others, rfl, htrim, hrest⟩ := List.map_eq_cons_iff.1 h.symm
    have hsame : readLine number line = readLine number other := by
      unfold readLine
      rw [htrim]
    rw [readLines, readLines, hsame]
    simp only [ih hrest.symm]

/-! ## Texts -/

/-- A log is read piece after piece between its newlines. -/
theorem parse_eq (text : String) :
    parse text = readLines 1 KeyMap.empty (text.toList.splitOn '\n') := by
  unfold parse Text.lines
  dsimp only
  split
  · rename_i hlast
    obtain ⟨front, hfront⟩ := List.getLast?_eq_some_iff.1 hlast
    rw [hfront, List.dropLast_concat, readLines_both]
    -- The last piece is empty: a blank line, which lays nothing over what was read.
    cases readLines 1 KeyMap.empty front with
    | error e => rfl
    | ok m => rfl
  · rfl

/-- The lines of a text with a newline behind it are the pieces between its newlines. -/
theorem lines_append_newline (text : List Char) :
    Text.lines (text ++ ['\n']) = text.splitOn '\n' := by
  unfold Text.lines
  dsimp only
  rw [List.splitOn_append_cons_self, List.splitOn_nil, List.getLast?_concat, if_pos rfl,
    List.dropLast_concat]

/-! ## Main result -/

/-- A log can be read exactly if each of its lines can. Then every key has the measurement of its
last entry, and else the first line that cannot be read is named with its number, blank lines
counted in.
A log behind another one and a newline is read after it: what it holds is laid over what the other
one holds, and in its errors the lines of the other one count too. Carriage returns before the
newlines change nothing. -/
theorem parse_by_lines (text a b : String) :
    ((∃ m, parse text = .ok m) ↔ ∀ line ∈ Text.lines text.toList, Readable line) ∧
      Reading (Text.lines text.toList) (parse text) ∧
      parse (a ++ "\n" ++ b) = (do
        let m ← parse a
        let m' ← (parse b).mapError (LogError.later (Text.lines (a ++ "\n").toList).length)
        return m.overlay m') ∧
      parse (Text.replaceAll "\n" "\r\n" text) = parse text := by
  have hreading := reading_readLines (Text.lines text.toList)
  refine ⟨hreading.exists_iff, hreading, ?_, ?_⟩
  · have hlines : (a ++ "\n").toList = a.toList ++ ['\n'] := String.toList_append
    have hpieces : (a ++ "\n" ++ b).toList = a.toList ++ '\n' :: b.toList := by
      rw [String.toList_append, hlines, List.append_assoc, List.singleton_append]
    rw [parse_eq, parse_eq, parse_eq, hpieces, hlines, lines_append_newline,
      List.splitOn_append_cons_self, readLines_both]
  · rw [parse_eq, parse_eq]
    refine readLines_congr (Text.map_trim_eq ?_)
    have hpieces := Text.forall₂_splitOn_replaceFrom text.toList
    unfold Text.replaceAll
    rw [String.toList_ofList]
    exact hpieces

end TrainingLog

end TraceGen
